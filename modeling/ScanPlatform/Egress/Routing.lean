import ScanPlatform.Base.PolicyRouting
import ScanPlatform.Egress.KillSwitch

/-!
# The policy routing of a VPN worker

The routes and rules that `install_policy_routing` adds to those of a host, and the way that packets
take afterwards.

* `standardRouting`, `installPolicyRouting`: the host before it, and the commands;
* `AsDesigned`: what the design says of every packet;
* `policyRules`, `install_standard`, `install_again`: the rules that an installation leaves;
* `route_policyRules`: the way of a packet under these rules;
* **`as_designed_iff`**: when the design is met; `routes_beside_tunnel` is a host where it is not.
-/

set_option autoImplicit false

namespace ScanPlatform

open PolicyRouting

structure NextHop where
  dev : String
  via : Option (BitVec 32)
  deriving DecidableEq

/-! ## Hosts -/

def localTable : ℕ := 255
def mainTable : ℕ := 254
def defaultTable : ℕ := 253

/-- The rule `from all lookup table`. -/
def lookupRule (priority table : ℕ) : Rule := ⟨priority, false, none, table, none⟩

def standardRules : List Rule :=
  [lookupRule 0 localTable, lookupRule 32766 mainTable, lookupRule 32767 defaultTable]

/-- A host that has only the standard rules and tables. -/
def standardRouting (loc main dflt : List (Route 32 NextHop)) : Policy 32 NextHop where
  rules := standardRules
  tables t :=
    if t = localTable then loc
    else if t = mainTable then main
    else if t = defaultTable then dflt
    else []

/-! ## Installation -/

inductive IpCommand where
  /-- `ip route replace default dev … table …`. -/
  | routeReplace
  /-- `ip rule add`. -/
  | ruleAdd (r : Rule)
  /-- `ip rule show`. -/
  | ruleShow
  deriving DecidableEq

/-- The rule about the mark. -/
def markRule (config : EgressConfig) : Rule := ⟨9000, true, some config.fwmark, mainTable, none⟩

def suppressRule : Rule := ⟨9100, false, none, mainTable, some 0⟩

def tunnelRule (config : EgressConfig) : Rule := lookupRule 9200 config.table

/-- The default route through the tunnel. -/
def tunnelDefault (config : EgressConfig) : Route 32 NextHop :=
  ⟨everything 32, ⟨config.interface, none⟩⟩

section

variable (config : EgressConfig) (shown : List Rule → String) (carried : IpCommand → Bool)

/-- The exit status of `ip rule add`, which is 2 for a rule that exists; `carried` tells the
commands that the system carries out. -/
def ruleAdd (r : Rule) (s : Policy 32 NextHop) : Policy 32 NextHop × ℕ :=
  if carried (.ruleAdd r) then
    if r ∈ s.rules then (s, 2) else ({ s with rules := addRule r s.rules }, 0)
  else (s, 1)

/-- `hex(n)`. -/
def hex (n : ℕ) : String := "0x" ++ String.ofList (Nat.toDigits 16 n)

/-- `_rule_exists`; `shown` is the text of `ip rule show`. -/
def ruleExists (needle : String) (s : Policy 32 NextHop) : Bool :=
  carried .ruleShow && PyStr.contains (shown s.rules) needle

def installPolicyRouting (s : Policy 32 NextHop) :
    Policy 32 NextHop × Except EgressSetupError Unit :=
  if !carried .routeReplace then (s, .error .routeFailed)
  else
    let s := { s with
      tables := Function.update s.tables config.table
        (replaceDefault ⟨config.interface, none⟩ (s.tables config.table)) }
    let (s, rc) := ruleAdd carried (markRule config) s
    if rc ∉ [0, 2] ∧ !ruleExists shown carried (hex config.fwmark.toNat) s then
      (s, .error .ruleFailed)
    else
      let (s, rc) := ruleAdd carried suppressRule s
      if rc ∉ [0, 2] then (s, .error .ruleFailed)
      else
        let (s, rc) := ruleAdd carried (tunnelRule config) s
        if rc ∉ [0, 2] then (s, .error .ruleFailed) else (s, .ok ())

end

/-! ## The design -/

/-- The design, for a host that was `base` and is `s` after the installation. Packets for the host
itself are none of its business. -/
structure AsDesigned (config : EgressConfig) (shown : List Rule → String)
    (base s : Policy 32 NextHop) : Prop where
  own : ∀ p r, lookup (base.tables localTable) p.dst = some r → s.route p = some (localTable, r)
  unmarked : ∀ p, lookup (base.tables localTable) p.dst = none → p.mark ≠ config.fwmark →
    s.route p = some (match specific (base.tables mainTable) p.dst with
      | some r => (mainTable, r)
      | none => (config.table, tunnelDefault config))
  marked : ∀ p, lookup (base.tables localTable) p.dst = none → p.mark = config.fwmark →
    s.route p = (lookup (base.tables mainTable) p.dst).map fun r => (mainTable, r)
  main_unchanged : s.tables mainTable = base.tables mainTable
  again : ∀ carried s', installPolicyRouting config shown carried s = (s', .ok ()) →
    ∀ p, s'.route p = s.route p

/-! ## The rules of an installation -/

variable (config : EgressConfig)

/-- The rules after an installation; the rule about the mark is taken to exist when its mark is
shown. -/
def policyRules (withMark : Bool) : List Rule :=
  lookupRule 0 localTable :: (if withMark then [markRule config] else []) ++
    [suppressRule, tunnelRule config, lookupRule 32766 mainTable, lookupRule 32767 defaultTable]

/-- The tables after an installation. -/
def policyTables (tables : ℕ → List (Route 32 NextHop)) : ℕ → List (Route 32 NextHop) :=
  Function.update tables config.table
    (replaceDefault ⟨config.interface, none⟩ (tables config.table))

theorem policyTables_idem (tables : ℕ → List (Route 32 NextHop)) :
    policyTables config (policyTables config tables) = policyTables config tables := by
  simp only [policyTables, Function.update_self, Function.update_idem, replaceDefault_idem]

/-- The rules with `r` among them. -/
def withRule (r : Rule) (rules : List Rule) : List Rule :=
  if r ∈ rules then rules else addRule r rules

theorem ruleAdd_carried {carried : IpCommand → Bool} {r : Rule} (h : carried (.ruleAdd r))
    (s : Policy 32 NextHop) :
    ∃ rc ∈ [0, 2], ruleAdd carried r s = (⟨withRule r s.rules, s.tables⟩, rc) := by
  unfold ruleAdd withRule
  rw [if_pos h]
  split_ifs with hmem
  · exact ⟨2, by simp, rfl⟩
  · exact ⟨0, by simp, rfl⟩

theorem ruleAdd_cases (carried : IpCommand → Bool) (r : Rule) (s : Policy 32 NextHop) :
    (∃ rc ∈ [0, 2], ruleAdd carried r s = (⟨withRule r s.rules, s.tables⟩, rc)) ∨
      ruleAdd carried r s = (s, 1) := by
  by_cases h : carried (.ruleAdd r)
  · exact .inl (ruleAdd_carried h s)
  · exact .inr (if_neg h)

theorem ruleAdd_ok {carried : IpCommand → Bool} {r : Rule} {s : Policy 32 NextHop}
    (h : (ruleAdd carried r s).2 ∈ [0, 2]) :
    (ruleAdd carried r s).1 = ⟨withRule r s.rules, s.tables⟩ := by
  rcases ruleAdd_cases carried r s with ⟨rc, -, hadd⟩ | hadd
  · rw [hadd]
  · rw [hadd] at h
    simp at h

/-- What a successful installation leaves. -/
theorem install_ok {shown : List Rule → String} {carried : IpCommand → Bool}
    {s s' : Policy 32 NextHop}
    (h : installPolicyRouting config shown carried s = (s', .ok ())) :
    ∃ rules ∈ [s.rules, withRule (markRule config) s.rules],
      s' = ⟨withRule (tunnelRule config) (withRule suppressRule rules),
        policyTables config s.tables⟩ := by
  unfold installPolicyRouting at h
  split_ifs at h with hroute
  · cases h
  dsimp only at h
  obtain ⟨rules, hrules, rc, hmark⟩ : ∃ rules ∈ [s.rules, withRule (markRule config) s.rules],
      ∃ rc, ruleAdd carried (markRule config) ⟨s.rules, policyTables config s.tables⟩ =
        (⟨rules, policyTables config s.tables⟩, rc) := by
    rcases ruleAdd_cases carried (markRule config) ⟨s.rules, policyTables config s.tables⟩ with
      ⟨rc, -, hadd⟩ | hadd
    · exact ⟨_, by simp, rc, hadd⟩
    · exact ⟨_, by simp, 1, hadd⟩
  refine ⟨rules, hrules, ?_⟩
  unfold policyTables at hmark
  rw [hmark] at h
  dsimp only at h
  split_ifs at h with hexists hsuppress htunnel
  · cases h
  · rw [ruleAdd_ok hsuppress] at h htunnel
    rw [ruleAdd_ok htunnel] at h
    exact (Prod.ext_iff.mp h).1.symm
  · cases h
  · cases h

/-- An installation whose commands are all carried out. -/
theorem install_carried (shown : List Rule → String) (s : Policy 32 NextHop) :
    installPolicyRouting config shown (fun _ => true) s =
      (⟨withRule (tunnelRule config) (withRule suppressRule (withRule (markRule config) s.rules)),
        policyTables config s.tables⟩, .ok ()) := by
  have hadd : ∀ r (s : Policy 32 NextHop), ∃ rc ∈ [0, 2],
      ruleAdd (fun _ => true) r s = (⟨withRule r s.rules, s.tables⟩, rc) :=
    fun r => ruleAdd_carried rfl
  obtain ⟨rc₁, hrc₁, hmark⟩ := hadd (markRule config) ⟨s.rules, policyTables config s.tables⟩
  obtain ⟨rc₂, hrc₂, hsuppress⟩ := hadd suppressRule
    ⟨withRule (markRule config) s.rules, policyTables config s.tables⟩
  obtain ⟨rc₃, hrc₃, htunnel⟩ := hadd (tunnelRule config)
    ⟨withRule suppressRule (withRule (markRule config) s.rules), policyTables config s.tables⟩
  unfold policyTables at *
  unfold installPolicyRouting
  rw [if_neg (by simp)]
  simp only [hmark, hsuppress, htunnel, hrc₁, hrc₂, hrc₃, not_true_eq_false, false_and, if_false]

theorem withRule_again (withMark again : Bool) :
    withRule (tunnelRule config) (withRule suppressRule
      (if again then withRule (markRule config) (policyRules config withMark)
        else policyRules config withMark)) = policyRules config (withMark || again) := by
  have htunnel : ∀ b, tunnelRule config ∈ policyRules config b := by simp [policyRules]
  have hsuppress : ∀ b, suppressRule ∈ policyRules config b := by simp [policyRules]
  have hmark : withRule (markRule config) (policyRules config withMark) =
      policyRules config true := by
    cases withMark with
    | true => exact if_pos (by simp [policyRules])
    | false =>
      have hnew : markRule config ∉ policyRules config false := by
        simp [policyRules, markRule, suppressRule, tunnelRule, lookupRule]
      exact if_neg hnew
  cases again with
  | false =>
    simp only [Bool.false_eq_true, if_false, Bool.or_false, withRule, if_pos (hsuppress _),
      if_pos (htunnel _)]
  | true =>
    simp only [if_true, hmark, Bool.or_true]
    simp only [withRule, if_pos (hsuppress _), if_pos (htunnel _)]

theorem withRule_standard (withMark : Bool) :
    withRule (tunnelRule config) (withRule suppressRule
      (if withMark then withRule (markRule config) standardRules else standardRules)) =
        policyRules config withMark := by
  cases withMark with
  | true => rfl
  | false => rfl

section

variable {config} {shown : List Rule → String} {carried : IpCommand → Bool}

/-- **A host with the standard rules** gets the three others, or two of them. -/
theorem install_standard {loc main dflt : List (Route 32 NextHop)} {s : Policy 32 NextHop}
    (h : installPolicyRouting config shown carried (standardRouting loc main dflt) = (s, .ok ())) :
    ∃ withMark, s = ⟨policyRules config withMark,
      policyTables config (standardRouting loc main dflt).tables⟩ := by
  obtain ⟨rules, hrules, rfl⟩ := install_ok config h
  simp only [List.mem_cons, List.not_mem_nil, or_false] at hrules
  rcases hrules with rfl | rfl
  · exact ⟨false, by rw [← withRule_standard]; rfl⟩
  · exact ⟨true, by rw [← withRule_standard]; rfl⟩

/-- An installation over an earlier one. -/
theorem install_again {withMark : Bool} {tables : ℕ → List (Route 32 NextHop)}
    {s : Policy 32 NextHop}
    (h : installPolicyRouting config shown carried
      ⟨policyRules config withMark, policyTables config tables⟩ = (s, .ok ())) :
    ∃ withMark', s = ⟨policyRules config withMark', policyTables config tables⟩ := by
  obtain ⟨rules, hrules, rfl⟩ := install_ok config h
  simp only [List.mem_cons, List.not_mem_nil, or_false] at hrules
  rw [policyTables_idem]
  rcases hrules with rfl | rfl
  · exact ⟨withMark || false, by rw [← withRule_again]; rfl⟩
  · exact ⟨withMark || true, by rw [← withRule_again]; rfl⟩

end

/-! ## The way of a packet -/

section

variable (loc main dflt : List (Route 32 NextHop))

theorem policyTables_standard {t : ℕ} (h : t ≠ config.table) :
    policyTables config (standardRouting loc main dflt).tables t =
      (standardRouting loc main dflt).tables t := Function.update_of_ne h ..

theorem policyTables_tunnel (a : BitVec 32) :
    lookup (policyTables config (standardRouting loc main dflt).tables config.table) a =
      some (tunnelDefault config) := by
  obtain ⟨-, hdedicated⟩ := config.table_dedicated
  simp only [List.mem_cons, List.not_mem_nil, or_false, not_or] at hdedicated
  have hempty : (standardRouting loc main dflt).tables config.table = [] := by
    simp [standardRouting, localTable, mainTable, defaultTable, hdedicated]
  rw [policyTables, Function.update_self, hempty]
  exact lookup_replaceDefault_nil _ a

theorem lookupRule_lookup (tables : ℕ → List (Route 32 NextHop)) (priority table : ℕ)
    (p : Packet 32) :
    (lookupRule priority table).lookup tables p =
      (lookup (tables table) p.dst).map fun r => (table, r) := Rule.lookup_of_selects rfl rfl

/-- **The way of a packet**: to the host itself, through the main table if the rule about the mark
selects it, by a route of the main table that is no default route, or through the tunnel. -/
theorem route_policyRules (withMark : Bool) (p : Packet 32) :
    Policy.route ⟨policyRules config withMark,
      policyTables config (standardRouting loc main dflt).tables⟩ p =
      ((lookup loc p.dst).map fun r => (localTable, r)).or
        ((if withMark && (markRule config).selects p then
            (lookup main p.dst).map fun r => (mainTable, r) else none).or
          (((specific main p.dst).map fun r => (mainTable, r)).or
            (some (config.table, tunnelDefault config)))) := by
  have hdedicated := config.table_dedicated.2
  have hloc : policyTables config (standardRouting loc main dflt).tables localTable = loc :=
    policyTables_standard _ _ _ _ fun h => hdedicated (h ▸ by simp [localTable])
  have hmain : policyTables config (standardRouting loc main dflt).tables mainTable = main :=
    policyTables_standard _ _ _ _ fun h => hdedicated (h ▸ by simp [mainTable])
  have hsuppress : suppressRule.lookup
      (policyTables config (standardRouting loc main dflt).tables) p =
        (specific main p.dst).map fun r => (mainTable, r) := by
    rw [Rule.lookup_suppressed rfl rfl]
    exact congrArg (fun t => (specific t p.dst).map fun r => (mainTable, r)) hmain
  have hmark : (markRule config).selects p →
      (markRule config).lookup (policyTables config (standardRouting loc main dflt).tables) p =
        (lookup main p.dst).map fun r => (mainTable, r) := fun hsel => by
    rw [Rule.lookup_of_selects hsel rfl]
    exact congrArg (fun t => (lookup t p.dst).map fun r => (mainTable, r)) hmain
  have hunmarked : ¬ (markRule config).selects p →
      (markRule config).lookup (policyTables config (standardRouting loc main dflt).tables) p =
        none := fun hsel => if_neg hsel
  cases withMark with
  | false =>
    simp only [policyRules, Bool.false_eq_true, if_false, List.cons_append,
      List.nil_append, route_cons,
      lookupRule_lookup, hloc, hsuppress, tunnelRule, policyTables_tunnel, Bool.false_and,
      Option.none_or, Option.map_some, Option.some_or]
  | true =>
    simp only [policyRules, if_true, List.cons_append, List.nil_append, route_cons,
      lookupRule_lookup, hloc, hsuppress, tunnelRule, policyTables_tunnel, Bool.true_and,
      Option.map_some, Option.some_or]
    by_cases hsel : (markRule config).selects p
    · rw [hmark hsel, if_pos hsel]
    · rw [hunmarked hsel, if_neg hsel]

variable {config loc main dflt}

/-- Where no packet needs a default route, the rule about the mark makes no difference. -/
theorem route_of_specific (withMark : Bool) {p : Packet 32}
    (h : lookup loc p.dst = none → (specific main p.dst).isSome) :
    Policy.route ⟨policyRules config withMark,
      policyTables config (standardRouting loc main dflt).tables⟩ p =
        ((lookup loc p.dst).map fun r => (localTable, r)).or
          ((specific main p.dst).map fun r => (mainTable, r)) := by
  rw [route_policyRules]
  cases hown : lookup loc p.dst with
  | some r => rfl
  | none =>
    obtain ⟨r, hr⟩ := Option.isSome_iff_exists.mp (h hown)
    rw [hr, lookup_of_specific hr]
    split_ifs
    · rfl
    · rfl

/-- A packet that carries the mark is not selected by the rule about it. -/
theorem not_selects_marked {p : Packet 32} (h : p.mark = config.fwmark) :
    (markRule config).selects p = false := by
  simp [Rule.selects, markRule, h]

/-- The design fails for the marked packets that need a default route. -/
theorem AsDesigned.specific_isSome {shown : List Rule → String} {withMark : Bool}
    (h : AsDesigned config shown (standardRouting loc main dflt)
      ⟨policyRules config withMark, policyTables config (standardRouting loc main dflt).tables⟩)
    {a : BitVec 32} (hown : lookup loc a = none) : (specific main a).isSome := by
  have hmarked := h.marked ⟨a, config.fwmark⟩ hown rfl
  rw [route_policyRules, not_selects_marked rfl, hown] at hmarked
  cases hspec : specific main a with
  | some r => rfl
  | none =>
    rw [hspec] at hmarked
    simp only [Bool.and_false, Bool.false_eq_true, if_false, Option.map_none, Option.none_or]
      at hmarked
    obtain ⟨r, -, hr⟩ := Option.map_eq_some_iff.mp hmarked.symm
    have htable : mainTable = config.table := (Prod.ext_iff.mp hr).1
    exact absurd (htable ▸ by simp [mainTable]) config.table_dedicated.2

end

/-! ## When the design is met -/

/-- **The design is met** exactly when every packet for another host has a route of the main table
that is no default route. -/
theorem as_designed_iff (config : EgressConfig) (shown : List Rule → String)
    (loc main dflt : List (Route 32 NextHop)) :
    (∀ carried s,
      installPolicyRouting config shown carried (standardRouting loc main dflt) = (s, .ok ()) →
        AsDesigned config shown (standardRouting loc main dflt) s) ↔
      ∀ a, lookup loc a = none → (specific main a).isSome := by
  constructor
  · intro h a hown
    have hinstall := install_carried config shown (standardRouting loc main dflt)
    obtain ⟨withMark, heq⟩ := install_standard hinstall
    have hdesigned := h _ _ hinstall
    rw [heq] at hdesigned
    exact hdesigned.specific_isSome hown
  · intro hspec carried s hs
    obtain ⟨withMark, rfl⟩ := install_standard hs
    have hroute : ∀ withMark (p : Packet 32), Policy.route ⟨policyRules config withMark,
        policyTables config (standardRouting loc main dflt).tables⟩ p =
          ((lookup loc p.dst).map fun r => (localTable, r)).or
            ((specific main p.dst).map fun r => (mainTable, r)) :=
      fun withMark p => route_of_specific withMark (hspec p.dst)
    refine ⟨?_, ?_, ?_, ?_, ?_⟩
    · intro p r hr
      rw [hroute, show lookup loc p.dst = some r from hr]
      rfl
    · intro p hown hmark
      obtain ⟨r, hr⟩ := Option.isSome_iff_exists.mp (hspec p.dst hown)
      rw [hroute, show lookup loc p.dst = none from hown, hr,
        show specific ((standardRouting loc main dflt).tables mainTable) p.dst = some r from hr]
      rfl
    · intro p hown hmark
      obtain ⟨r, hr⟩ := Option.isSome_iff_exists.mp (hspec p.dst hown)
      rw [hroute, show lookup loc p.dst = none from hown, hr,
        show lookup ((standardRouting loc main dflt).tables mainTable) p.dst = some r from
          lookup_of_specific hr]
      rfl
    · refine policyTables_standard _ _ _ _ fun h => ?_
      exact config.table_dedicated.2 (h ▸ by simp [mainTable])
    · intro again s' hs' p
      obtain ⟨withMark', rfl⟩ := install_again hs'
      rw [hroute, hroute]

/-- A container on a bridge. -/
def labMain : List (Route 32 NextHop) :=
  [⟨everything 32, ⟨"eth0", some 0xAC140001⟩⟩,
    ⟨.ofPrefix 0xAC140000 16 (by decide), ⟨"eth0", none⟩⟩]

/-- **Packets to the Internet** leave beside the tunnel, and those of the tunnel go into it. -/
theorem routes_beside_tunnel :
    ∃ s, installPolicyRouting labEgressConfig (fun _ => "") (fun _ => true)
        (standardRouting [] labMain []) = (s, .ok ()) ∧
      (s.route ⟨0xC6336407, 0⟩).map (fun found => found.2.hop.dev) = some "eth0" ∧
      (s.route ⟨0xCB007109, 0xCA6C⟩).map (fun found => found.2.hop.dev) = some "wg-egress" ∧
      ¬ AsDesigned labEgressConfig (fun _ => "") (standardRouting [] labMain []) s := by
  have hinstall := install_carried labEgressConfig (fun _ => "") (standardRouting [] labMain [])
  obtain ⟨withMark, heq⟩ := install_standard hinstall
  refine ⟨_, hinstall, by decide, by decide, fun h => ?_⟩
  rw [heq] at h
  have hspec := h.specific_isSome (a := 0xC6336407) rfl
  exact absurd hspec (by decide)

end ScanPlatform

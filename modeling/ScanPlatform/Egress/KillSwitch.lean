import ScanPlatform.Base.Ipaddress
import ScanPlatform.Base.Netfilter
import ScanPlatform.Base.PyText

/-!
# The kill-switch of a VPN worker

The chain that `install_killswitch` fills and hooks, the packets that it has to drop, and the
firewall after each of its commands.

* `EgressConfig`, `EgressPacket`, `EgressGuard`: the tunnel, packets, and what rules ask of them;
* `killswitchExceptions`, `installKillswitch`: the rules and their installation;
* `KillSwitch`, `KillSwitch.Exposed`, `KillSwitch.LeftBehind`, `KillSwitch.FailsClosed`: packets
  that have to be dropped once the chain has been in force;
* `KillSwitch.verdict_installed`, `KillSwitch.install_split`, `KillSwitch.install_done`: what the
  chain does with such a packet, and when it is in force;
* **`fails_closed_iff`**: when they are dropped; `fails_open` has both ways in which they are not.
-/

set_option autoImplicit false

namespace ScanPlatform

open Ipaddress Netfilter PyStr

/-- The configuration of the tunnel. No interface is named like a pattern of `iptables`, and the
routing table is one of its own. -/
structure EgressConfig where
  interface : String
  endpoint : Option String
  table : ℕ
  fwmark : BitVec 32
  interface_plain : interface.toList.getLast? ≠ some '+'
  table_dedicated : table ≠ 0 ∧ table ∉ [253, 254, 255]

/-- The `reason` of an `EgressSetupError`. -/
inductive EgressSetupError where
  | killswitchFailed
  | routeFailed
  | ruleFailed
  deriving DecidableEq

/-! ## Packets -/

structure Flow where
  protocol : ℕ
  src : BitVec 32
  sport : ℕ
  dst : BitVec 32
  dport : ℕ
  deriving DecidableEq

/-- The same connection, the other way round. -/
def Flow.reverse (f : Flow) : Flow := ⟨f.protocol, f.dst, f.dport, f.src, f.sport⟩

/-- A packet on its way out; `about` is the connection that an error message is about. -/
structure EgressPacket where
  outInterface : String
  flow : Flow
  about : Option Flow

/-- The packet belongs to one of the connections, or is related to one. -/
def EgressPacket.tracked (history : List Flow) (p : EgressPacket) : Bool :=
  history.any fun c =>
    p.flow = c ∨ p.flow = c.reverse ∨ p.about.any fun f => f = c ∨ f = c.reverse

/-- What a rule of the chain asks of a packet. -/
inductive EgressGuard where
  /-- `-m conntrack --ctstate ESTABLISHED,RELATED`. -/
  | established
  /-- `-o`. -/
  | outInterface (name : String)
  /-- `-p udp`. -/
  | udp
  /-- `-d`, with the network that the text stands for. -/
  | destination (net : Option IpNetwork)
  /-- `--dport`. -/
  | dport (port : ℤ)

def udpProtocol : ℕ := 17

/-- The address is in the network, which is of version 4. -/
def inNetwork (net : Option IpNetwork) (address : BitVec 32) : Bool :=
  match net with
  | some (.v4 net) => net.contains address
  | _ => false

def EgressGuard.sat (history : List Flow) : EgressGuard → EgressPacket → Bool
  | .established, p => p.tracked history
  | .outInterface name, p => p.outInterface = name
  | .udp, p => p.flow.protocol = udpProtocol
  | .destination net, p => inNetwork net p.flow.dst
  | .dport port, p => p.flow.dport = port

/-- What `iptables` can express: names of interfaces, ports, and networks of version 4. -/
def EgressGuard.valid : EgressGuard → Bool
  | .established | .udp => true
  | .outInterface name => name ≠ "" ∧ name.length < 16
  | .destination (some (.v4 _)) => true
  | .destination _ => false
  | .dport port => 0 ≤ port ∧ port ≤ 65535

/-! ## Rules -/

/-- The digits of a numeral, with single underscores between them. -/
def numeralDigits (isDecimal : Char → Bool) : List Char → Option (List Char)
  | [] => none
  | [c] => if isDecimal c then some [c] else none
  | c :: '_' :: s => if isDecimal c then (numeralDigits isDecimal s).map (c :: ·) else none
  | c :: s => if isDecimal c then (numeralDigits isDecimal s).map (c :: ·) else none

/-- What `int()` knows of Unicode, and how many digits it reads. -/
structure IntReader where
  decimal : Char → Option ℕ
  maxStrDigits : ℕ

def IntReader.digits (r : IntReader) (s : List Char) : Option ℕ :=
  (numeralDigits (fun c => (r.decimal c).isSome) s).bind fun digits =>
    if digits.length ≤ r.maxStrDigits then
      some (digits.foldl (fun n c => 10 * n + (r.decimal c).getD 0) 0)
    else none

/-- `int(s)`; `none` is a `ValueError`. -/
def IntReader.int (r : IntReader) (s : List Char) : Option ℤ :=
  match stripChars isSpace s with
  | '-' :: s => (r.digits s).map fun n => -(n : ℤ)
  | '+' :: s => (r.digits s).map fun n => (n : ℤ)
  | s => (r.digits s).map fun n => (n : ℤ)

/-- The port of an endpoint. -/
def endpointPort (int : IntReader) (endpoint : String) : ℤ :=
  match rpartition ':' endpoint.toList with
  | (_, [], _) => 51820
  | (_, _, port) => (int.int port).getD 51820

/-- A text that is given and not empty. -/
def nonEmpty (text : Option String) : Option String := text.filter (· ≠ "")

/-- The rules about the endpoint. -/
def endpointExceptions (int : IntReader) (config : EgressConfig) (endpointIp : Option String) :
    List (List EgressGuard) :=
  match nonEmpty endpointIp, nonEmpty config.endpoint with
  | some ip, some endpoint =>
    [[.udp, .destination (ipNetwork (ip ++ "/32")), .dport (endpointPort int endpoint)]]
  | _, _ => []

/-- The rules about the manager's networks. -/
def dispatchExceptions : List String → Except EgressSetupError (List (List EgressGuard))
  | [] => .ok []
  | cidr :: cidrs =>
    let entry := strip cidr
    if entry = "" then dispatchExceptions cidrs
    else
      match ipNetwork entry with
      | none => .error .killswitchFailed
      | some net =>
        if net.prefixlen = 0 then .error .killswitchFailed
        else do
          let exceptions ← dispatchExceptions cidrs
          return [.destination (some net)] :: exceptions

/-- The rules that accept. -/
def killswitchExceptions (int : IntReader) (config : EgressConfig) (dispatchCidrs : List String)
    (endpointIp : Option String) : Except EgressSetupError (List (List EgressGuard)) := do
  let dispatch ← dispatchExceptions dispatchCidrs
  return [[.established], [.outInterface "lo"], [.outInterface config.interface]] ++
    endpointExceptions int config endpointIp ++ dispatch

def killswitchRules (exceptions : List (List EgressGuard)) : List (Rule EgressGuard) :=
  exceptions.map (⟨·, .accept⟩) ++ [⟨[], .drop⟩]

/-! ## Installation -/

def killswitchChain : String := "MBS_VPN_EGRESS"

section

variable (fails : ℕ → Option String)

/-- `_run(["iptables", …])`. -/
def iptables (h : Host EgressGuard) (c : Command EgressGuard) : Host EgressGuard × Option String :=
  h.iptables EgressGuard.valid fails c

def appendRules (h : Host EgressGuard) :
    List (Rule EgressGuard) → Host EgressGuard × Except EgressSetupError Unit
  | [] => (h, .ok ())
  | rule :: rules =>
    match iptables fails h (.append killswitchChain rule) with
    | (h, some _) => (h, .error .killswitchFailed)
    | (h, none) => appendRules h rules

/-- The jump is added unless there is one. -/
def hookChain (h : Host EgressGuard) : Host EgressGuard × Except EgressSetupError Unit :=
  match iptables fails h (.checkJump killswitchChain) with
  | (h, none) => (h, .ok ())
  | (h, some _) =>
    match iptables fails h (.jump killswitchChain) with
    | (h, some _) => (h, .error .killswitchFailed)
    | (h, none) => (h, .ok ())

/-- A chain that exists already is no failure. -/
def toleratesExisting (err : Option String) : Bool :=
  err.all fun err => PyStr.contains (lower err) "exists"

def installKillswitch (int : IntReader) (config : EgressConfig) (dispatchCidrs : List String)
    (endpointIp : Option String) (h : Host EgressGuard) :
    Host EgressGuard × Except EgressSetupError Unit :=
  let (h, err) := iptables fails h (.newChain killswitchChain)
  if !toleratesExisting err then (h, .error .killswitchFailed)
  else
    match iptables fails h (.flush killswitchChain) with
    | (h, some _) => (h, .error .killswitchFailed)
    | (h, none) =>
      match killswitchExceptions int config dispatchCidrs endpointIp with
      | .error e => (h, .error e)
      | .ok exceptions =>
        match appendRules fails h (killswitchRules exceptions) with
        | (h, .error e) => (h, .error e)
        | (h, .ok ()) => hookChain fails h

end

/-! ## What has to be dropped -/

/-- A configuration whose dispatch networks are accepted. -/
structure KillSwitch where
  int : IntReader
  config : EgressConfig
  dispatchCidrs : List String
  endpointIp : Option String
  exceptions : List (List EgressGuard)
  accepted : killswitchExceptions int config dispatchCidrs endpointIp = .ok exceptions

namespace KillSwitch

variable (k : KillSwitch)

/-- The packet is for the VPN endpoint, by UDP and at its port. -/
def ToEndpoint (p : EgressPacket) : Prop :=
  ∃ ip ∈ nonEmpty k.endpointIp, ∃ endpoint ∈ nonEmpty k.config.endpoint,
    p.flow.protocol = udpProtocol ∧ inNetwork (ipNetwork (ip ++ "/32")) p.flow.dst ∧
      p.flow.dport = endpointPort k.int endpoint

/-- The packet is for a dispatch network. -/
def ToDispatch (p : EgressPacket) : Prop :=
  ∃ cidr ∈ k.dispatchCidrs, inNetwork (ipNetwork (strip cidr)) p.flow.dst

/-- The packet would leave beside the tunnel. -/
def Exposed (p : EgressPacket) : Prop :=
  p.outInterface ≠ "lo" ∧ p.outInterface ≠ k.config.interface ∧ ¬ k.ToEndpoint p ∧ ¬ k.ToDispatch p

/-- The chain is in force. -/
def Installed (f : FilterTable EgressGuard) : Prop :=
  f.output = [killswitchChain] ∧ f.chains killswitchChain = some (killswitchRules k.exceptions)

/-- All the rules can be expressed. -/
def Expressible : Prop := ∀ guards ∈ k.exceptions, ∀ g ∈ guards, g.valid

/-- What an earlier run may have left of the chain, unless it is the first one. -/
inductive LeftBehind : FilterTable EgressGuard → Prop
  | nothing : LeftBehind ⟨[], fun _ => none⟩
  | unhooked (hexpr : k.Expressible) {f : FilterTable EgressGuard} (hout : f.output = [])
      (hchain : f.chains killswitchChain = some (killswitchRules k.exceptions)) : LeftBehind f
  | live (hexpr : k.Expressible) {f : FilterTable EgressGuard} (hf : k.Installed f) : LeftBehind f

/-- The installation on a host whose firewall is `f`. -/
def install (fails : ℕ → Option String) (f : FilterTable EgressGuard) :
    Host EgressGuard × Except EgressSetupError Unit :=
  installKillswitch fails k.int k.config k.dispatchCidrs k.endpointIp ⟨f, 0, []⟩

/-- The firewall before the installation and after each of its commands; the last state stays. -/
def states (fails : ℕ → Option String) (f : FilterTable EgressGuard) :
    List (FilterTable EgressGuard) :=
  f :: (k.install fails f).1.trace

/-- Whatever commands fail, an exposed packet is dropped in every state in which the chain is in
force and in those that follow it. -/
def FailsClosed (f : FilterTable EgressGuard) (history : List Flow) : Prop :=
  ∀ fails earlier s later, k.states fails f = earlier ++ s :: later → k.Installed s →
    ∀ s' ∈ s :: later, ∀ p, k.Exposed p → s'.verdict (EgressGuard.sat history) p = .drop

/-! ## The chain and a packet -/

theorem dispatchExceptions_sat {cidrs : List String} {exceptions : List (List EgressGuard)}
    (h : dispatchExceptions cidrs = .ok exceptions) (history : List Flow) (p : EgressPacket) :
    (∃ guards ∈ exceptions, ∀ g ∈ guards, g.sat history p) ↔
      ∃ cidr ∈ cidrs, inNetwork (ipNetwork (strip cidr)) p.flow.dst := by
  induction cidrs generalizing exceptions with
  | nil =>
    cases h
    simp
  | cons cidr cidrs ih =>
    simp only [List.exists_mem_cons_iff]
    unfold dispatchExceptions at h
    dsimp only at h
    split_ifs at h with hempty
    · have hnone : inNetwork (ipNetwork (strip cidr)) p.flow.dst = false := by
        rw [hempty]
        rfl
      rw [ih h, hnone]
      simp
    · split at h
      · cases h
      · rename_i net hnet
        split_ifs at h with hprefix
        cases hrest : dispatchExceptions cidrs with
        | error e => simp [hrest, bind, Except.bind] at h
        | ok rest =>
          simp only [hrest, bind, Except.bind, pure, Except.pure, Except.ok.injEq] at h
          subst h
          rw [List.exists_mem_cons_iff, ih hrest, hnet, List.forall_mem_singleton]
          rfl

theorem endpointExceptions_sat (history : List Flow) (p : EgressPacket) :
    (∃ guards ∈ endpointExceptions k.int k.config k.endpointIp, ∀ g ∈ guards, g.sat history p) ↔
      k.ToEndpoint p := by
  unfold endpointExceptions ToEndpoint
  cases nonEmpty k.endpointIp with
  | none => simp
  | some ip =>
    cases nonEmpty k.config.endpoint with
    | none => simp
    | some endpoint => simp [EgressGuard.sat]

/-- An exposed packet meets no exception but that of the connections. -/
theorem exceptions_sat {p : EgressPacket} (hp : k.Exposed p) (history : List Flow) :
    (∃ guards ∈ k.exceptions, ∀ g ∈ guards, g.sat history p) ↔ p.tracked history := by
  obtain ⟨hlo, hif, hendpoint, hdispatch⟩ := hp
  have hok := k.accepted
  unfold killswitchExceptions at hok
  cases hrest : dispatchExceptions k.dispatchCidrs with
  | error e => simp [hrest, bind, Except.bind] at hok
  | ok dispatch =>
    simp only [hrest, bind, Except.bind, pure, Except.pure, Except.ok.injEq] at hok
    rw [← hok]
    have hnoDispatch := mt (dispatchExceptions_sat hrest history p).mp hdispatch
    have hnoEndpoint := mt (k.endpointExceptions_sat history p).mp hendpoint
    constructor
    · rintro ⟨guards, hguards, hsat⟩
      simp only [List.mem_append, List.mem_cons, List.not_mem_nil, or_false] at hguards
      rcases hguards with ((rfl | rfl | rfl) | hguards) | hguards
      · exact hsat .established (List.mem_singleton_self _)
      · exact absurd (hsat _ (List.mem_singleton_self _)) (by simpa [EgressGuard.sat] using hlo)
      · exact absurd (hsat _ (List.mem_singleton_self _)) (by simpa [EgressGuard.sat] using hif)
      · exact absurd ⟨guards, hguards, hsat⟩ hnoEndpoint
      · exact absurd ⟨guards, hguards, hsat⟩ hnoDispatch
    · intro htracked
      exact ⟨[.established], by simp, by simpa [EgressGuard.sat] using htracked⟩

/-- **The chain drops an exposed packet** unless it belongs to a connection. -/
theorem verdict_installed {f : FilterTable EgressGuard} (hf : k.Installed f) {p : EgressPacket}
    (hp : k.Exposed p) (history : List Flow) :
    f.verdict (EgressGuard.sat history) p = if p.tracked history then .accept else .drop := by
  simp only [FilterTable.verdict, hf.1, List.findSome?_cons, hf.2, Option.bind_some,
    killswitchRules, decide_accepts, k.exceptions_sat hp history, Option.getD_some]

/-- A hooked chain without rules accepts everything. -/
theorem verdict_flushed {f : FilterTable EgressGuard} (hout : f.output = [killswitchChain])
    (hchain : f.chains killswitchChain = some []) (history : List Flow) (p : EgressPacket) :
    f.verdict (EgressGuard.sat history) p = .accept := by
  simp [FilterTable.verdict, hout, hchain, Netfilter.decide]

/-! ## The states of an installation -/

section

variable (fails : ℕ → Option String)

variable {fails} in
/-- Rules that are appended without a failure stand behind those that were there. -/
theorem appendRules_done {rules done : List (Rule EgressGuard)} {h h' : Host EgressGuard}
    (hchain : h.filter.chains killswitchChain = some done)
    (hok : appendRules fails h rules = (h', .ok ())) :
    h'.filter.chains killswitchChain = some (done ++ rules) ∧
      ∀ rule ∈ rules, rule.guards.all EgressGuard.valid := by
  induction rules generalizing h done with
  | nil =>
    cases hok
    simpa using hchain
  | cons rule rules ih =>
    unfold appendRules at hok
    split at hok
    · cases hok
    · rename_i h₁ hrun
      obtain ⟨hexec, -⟩ := Host.iptables_done hrun
      simp only [Command.exec, hchain] at hexec
      split_ifs at hexec with hvalid
      have hchain₁ : h₁.filter.chains killswitchChain = some (done ++ [rule]) := by
        rw [← Except.ok.inj hexec]
        simp
      obtain ⟨hrules, hall⟩ := ih hchain₁ hok
      refine ⟨by simpa using hrules, ?_⟩
      exact List.forall_mem_cons.mpr ⟨hvalid, hall⟩

theorem appendRules_unhooked (rules : List (Rule EgressGuard)) {h : Host EgressGuard}
    (hh : h.Unhooked) : (appendRules fails h rules).1.Unhooked := by
  induction rules generalizing h with
  | nil => exact hh
  | cons rule rules ih =>
    have hnext : (iptables fails h (.append killswitchChain rule)).1.Unhooked :=
      Host.iptables_unhooked (by simp) hh
    unfold appendRules
    split
    · rename_i h₁ err hrun
      rwa [hrun] at hnext
    · rename_i h₁ hrun
      rw [hrun] at hnext
      exact ih hnext

/-- Hooking is the last thing that happens, to a chain that is complete. -/
theorem hookChain_unhooked {h : Host EgressGuard} (hh : h.Unhooked) :
    (hookChain fails h).1.Unhooked ∨
      ∃ f, (hookChain fails h).1.trace = h.trace ++ [h.filter, f] ∧
        f.output = [killswitchChain] ∧ f.chains = h.filter.chains := by
  have hcheck : (iptables fails h (.checkJump killswitchChain)).1.Unhooked :=
    Host.iptables_unhooked (by simp) hh
  unfold hookChain
  split
  · rename_i h₁ hrun
    rw [hrun] at hcheck
    exact .inl hcheck
  · rename_i h₁ err hrun
    rw [hrun] at hcheck
    obtain ⟨hfilter, htrace⟩ := Host.iptables_failed hrun
    split
    · rename_i h₂ err hjump
      obtain ⟨hfilter₂, htrace₂⟩ := Host.iptables_failed hjump
      refine .inl ⟨hfilter₂ ▸ hcheck.1, fun s hs => ?_⟩
      rw [htrace₂] at hs
      rcases List.mem_append.mp hs with hs | hs
      · exact hcheck.2 s hs
      · exact List.mem_singleton.mp hs ▸ hcheck.1
    · rename_i h₂ hjump
      obtain ⟨hexec, htrace₂⟩ := Host.iptables_done hjump
      refine .inr ⟨h₂.filter, by simp [htrace₂, htrace], ?_⟩
      simp only [Command.exec] at hexec
      split_ifs at hexec with hsome
      rw [← Except.ok.inj hexec, hfilter, hh.1]
      exact ⟨rfl, rfl⟩

/-- **An installation that finds nothing hooked** hooks the complete chain at the end, if at all,
and only when its rules can be expressed. -/
theorem install_split {f : FilterTable EgressGuard} (hout : f.output = []) :
    ∃ before after, k.states fails f = before ++ after ∧ (∀ s ∈ before, s.output = []) ∧
      ∀ s ∈ after, k.Installed s ∧ k.Expressible := by
  have hstart : (⟨f, 0, []⟩ : Host EgressGuard).Unhooked := ⟨hout, by simp⟩
  have hnone : ∀ h : Host EgressGuard, h.Unhooked → ∃ before after,
      f :: h.trace = before ++ after ∧ (∀ s ∈ before, s.output = []) ∧
        ∀ s ∈ after, k.Installed s ∧ k.Expressible := by
    intro h hh
    refine ⟨f :: h.trace, [], (List.append_nil _).symm, ?_, by simp⟩
    exact List.forall_mem_cons.mpr ⟨hout, hh.2⟩
  unfold states install installKillswitch
  have hnew : (iptables fails ⟨f, 0, []⟩ (.newChain killswitchChain)).1.Unhooked :=
    Host.iptables_unhooked (by simp) hstart
  generalize iptables fails ⟨f, 0, []⟩ (.newChain killswitchChain) = created at hnew ⊢
  obtain ⟨h₁, err⟩ := created
  dsimp only
  split_ifs with htolerated
  · exact hnone _ hnew
  · have hflush : (iptables fails h₁ (.flush killswitchChain)).1.Unhooked :=
      Host.iptables_unhooked (by simp) hnew
    split
    · rename_i h₂ err hrun
      rw [hrun] at hflush
      exact hnone _ hflush
    · rename_i h₂ hrun
      rw [hrun] at hflush
      obtain ⟨hexec, -⟩ := Host.iptables_done hrun
      have hempty : h₂.filter.chains killswitchChain = some [] := by
        simp only [Command.exec] at hexec
        split_ifs at hexec with hsome
        rw [← Except.ok.inj hexec]
        simp
      simp only [k.accepted]
      have happend := appendRules_unhooked fails (killswitchRules k.exceptions) hflush
      split
      · rename_i h₃ e hrules
        rw [hrules] at happend
        exact hnone _ happend
      · rename_i h₃ hrules
        rw [hrules] at happend
        obtain ⟨hchain, hvalid⟩ := appendRules_done hempty hrules
        rcases hookChain_unhooked fails happend with hhook | ⟨s, htrace, hjump, hchains⟩
        · exact hnone _ hhook
        · refine ⟨f :: h₃.trace ++ [h₃.filter], [s], by simp [htrace], ?_, ?_⟩
          · simp only [List.mem_append, List.mem_cons, List.not_mem_nil, or_false]
            rintro t ((rfl | ht) | rfl)
            · exact hout
            · exact happend.2 t ht
            · exact happend.1
          · intro t ht
            obtain rfl := List.mem_singleton.mp ht
            refine ⟨⟨hjump, by rw [hchains, hchain, List.nil_append]⟩, fun guards hguards => ?_⟩
            exact List.all_eq_true.mp (hvalid ⟨guards, .accept⟩ (by
              simpa [killswitchRules] using hguards))

end

/-! ## An installation without failures -/

theorem killswitchRules_valid (hexpr : k.Expressible) :
    ∀ rule ∈ killswitchRules k.exceptions, rule.guards.all EgressGuard.valid := by
  intro rule hrule
  simp only [killswitchRules, List.mem_append, List.mem_map, List.mem_singleton] at hrule
  rcases hrule with ⟨guards, hguards, rfl⟩ | rfl
  · exact List.all_eq_true.mpr (hexpr guards hguards)
  · rfl

theorem appendRules_ok {rules done : List (Rule EgressGuard)} {h : Host EgressGuard}
    (hvalid : ∀ rule ∈ rules, rule.guards.all EgressGuard.valid)
    (hchain : h.filter.chains killswitchChain = some done) :
    ∃ h', appendRules (fun _ => none) h rules = (h', .ok ()) ∧
      h'.filter.output = h.filter.output ∧ h.trace <+: h'.trace ∧
        h'.filter.chains killswitchChain = some (done ++ rules) := by
  induction rules generalizing h done with
  | nil => exact ⟨h, rfl, rfl, List.prefix_refl _, by simpa using hchain⟩
  | cons rule rules ih =>
    obtain ⟨hrule, hrules⟩ := List.forall_mem_cons.mp hvalid
    have hexec : (Command.append killswitchChain rule).exec EgressGuard.valid h.filter =
        .ok { h.filter with
          chains := h.filter.chains.set killswitchChain (done ++ [rule]) } := by
      simp only [Command.exec, hchain, if_pos hrule]
    have hset : (h.filter.chains.set killswitchChain (done ++ [rule])) killswitchChain =
        some (done ++ [rule]) := Table.set_self _ _ _
    obtain ⟨h', happend, hout, htrace, hchain'⟩ := ih
      (h := ⟨{ h.filter with chains := h.filter.chains.set killswitchChain (done ++ [rule]) },
        h.tried + 1, h.trace ++ [_]⟩) hrules hset
    refine ⟨h', ?_, hout, (List.prefix_append _ _).trans htrace, by simpa using hchain'⟩
    rw [appendRules, iptables, Host.iptables_exec hexec]
    exact happend

/-- What `-N` and `-F` lead to: a chain that has no rules, under the jumps that there are. -/
theorem install_flushed (f : FilterTable EgressGuard) :
    ∃ h : Host EgressGuard, (∃ s, h.trace = [s, h.filter]) ∧ h.filter.output = f.output ∧
      h.filter.chains killswitchChain = some [] ∧
        k.install (fun _ => none) f =
          match appendRules (fun _ => none) h (killswitchRules k.exceptions) with
          | (h, .error e) => (h, .error e)
          | (h, .ok ()) => hookChain (fun _ => none) h := by
  have hflush : ∀ s : FilterTable EgressGuard, (s.chains killswitchChain).isSome →
      (Command.flush killswitchChain).exec EgressGuard.valid s =
        .ok { s with chains := s.chains.set killswitchChain [] } := fun s hs => by
    simp only [Command.exec, if_pos hs]
  unfold install installKillswitch iptables
  by_cases hsome : (f.chains killswitchChain).isSome
  · have hnew : (Command.newChain killswitchChain).exec EgressGuard.valid f =
        .error "iptables: Chain already exists." := by simp only [Command.exec, if_pos hsome]
    have htolerated : toleratesExisting (some "iptables: Chain already exists.") = true := by
      decide
    rw [Host.iptables_error hnew]
    simp only [htolerated, Bool.not_true, Bool.false_eq_true, if_false]
    rw [Host.iptables_exec (hflush f hsome)]
    simp only [k.accepted]
    refine ⟨⟨{ f with chains := f.chains.set killswitchChain [] }, _, _⟩, ⟨f, rfl⟩, rfl, ?_, rfl⟩
    simp
  · have hnew : (Command.newChain killswitchChain).exec EgressGuard.valid f =
        .ok { f with chains := f.chains.set killswitchChain [] } := by
      simp only [Command.exec, if_neg hsome]
    rw [Host.iptables_exec hnew]
    simp only [toleratesExisting, Option.all_none, Bool.not_true, Bool.false_eq_true, if_false]
    rw [Host.iptables_exec (hflush _ (by simp))]
    simp only [k.accepted]
    refine ⟨⟨⟨f.output, (f.chains.set killswitchChain []).set killswitchChain []⟩, _, _⟩, ⟨_, rfl⟩,
      rfl, ?_, rfl⟩
    simp

/-- **Without failures**, the chain is in force at the end. -/
theorem install_done {f : FilterTable EgressGuard} (hout : f.output = []) (hexpr : k.Expressible) :
    ∃ earlier s, k.states (fun _ => none) f = earlier ++ [s] ∧ k.Installed s := by
  obtain ⟨h, -, hout', hempty, hinstall⟩ := k.install_flushed f
  obtain ⟨h', happend, hsame, -, hchain⟩ := appendRules_ok (k.killswitchRules_valid hexpr) hempty
  have hnojump : h'.filter.output = [] := hsame.trans (hout'.trans hout)
  have hcheck : (Command.checkJump killswitchChain).exec EgressGuard.valid h'.filter =
      .error "iptables: Bad rule (does a matching rule exist in that chain?)." := by
    simp [Command.exec, hnojump]
  have hjump : (Command.jump killswitchChain).exec EgressGuard.valid h'.filter =
      .ok { h'.filter with output := h'.filter.output ++ [killswitchChain] } := by
    simp [Command.exec, hchain]
  have hhook : (hookChain (fun _ => none) h').1.trace = h'.trace ++ [h'.filter] ++
      [⟨h'.filter.output ++ [killswitchChain], h'.filter.chains⟩] := by
    unfold hookChain iptables
    rw [Host.iptables_error hcheck]
    simp only
    rw [Host.iptables_exec (h := ⟨h'.filter, h'.tried + 1, h'.trace ++ [h'.filter]⟩) hjump]
  refine ⟨f :: h'.trace ++ [h'.filter], ⟨h'.filter.output ++ [killswitchChain], h'.filter.chains⟩,
    ?_, ?_, ?_⟩
  · simp only [states, hinstall, happend, hhook, List.cons_append]
  · simp [hnojump]
  · simpa using hchain

/-- **An installation on a chain that is in force** flushes it. -/
theorem install_live {f : FilterTable EgressGuard} (hf : k.Installed f) (hexpr : k.Expressible) :
    ∃ flushed ∈ k.states (fun _ => none) f,
      flushed.output = [killswitchChain] ∧ flushed.chains killswitchChain = some [] := by
  obtain ⟨h, ⟨s, htrace⟩, hout, hempty, hinstall⟩ := k.install_flushed f
  obtain ⟨h', happend, hsame, hinitial, -⟩ := appendRules_ok (k.killswitchRules_valid hexpr) hempty
  have hjumps : h'.filter.output = [killswitchChain] := hsame.trans (hout.trans hf.1)
  have hcheck : (Command.checkJump killswitchChain).exec EgressGuard.valid h'.filter =
      .ok h'.filter := by simp [Command.exec, hjumps]
  have hhook : (hookChain (fun _ => none) h').1.trace = h'.trace ++ [h'.filter] := by
    unfold hookChain iptables
    rw [Host.iptables_exec hcheck]
  refine ⟨h.filter, ?_, hout.trans hf.1, hempty⟩
  have hmem : h.filter ∈ h'.trace := hinitial.subset (by simp [htrace])
  simp only [states, hinstall, happend, hhook]
  exact List.mem_cons_of_mem _ (List.mem_append_left _ hmem)

/-! ## When it fails closed -/

variable {k} in
/-- The first way in which it fails open: connections that were there before the chain. -/
theorem FailsClosed.tracked_eq_false {f : FilterTable EgressGuard} {history : List Flow}
    (h : k.FailsClosed f history) (hout : f.output = []) (hexpr : k.Expressible) {p : EgressPacket}
    (hp : k.Exposed p) : p.tracked history = false := by
  obtain ⟨earlier, s, hstates, hs⟩ := k.install_done hout hexpr
  have hdrop := h _ earlier s [] hstates hs s List.mem_cons_self p hp
  rw [k.verdict_installed hs hp] at hdrop
  split_ifs at hdrop with htracked
  exact Bool.eq_false_iff.mpr htracked

variable {k} in
/-- The second way: the chain is flushed while it is in force. -/
theorem FailsClosed.not_exposed {f : FilterTable EgressGuard} {history : List Flow}
    (h : k.FailsClosed f history) (hf : k.Installed f) (hexpr : k.Expressible)
    (p : EgressPacket) : ¬ k.Exposed p := by
  intro hp
  obtain ⟨flushed, hmem, hjumps, hempty⟩ := k.install_live hf hexpr
  have hdrop := h _ [] f _ rfl hf flushed hmem p hp
  rw [verdict_flushed hjumps hempty] at hdrop
  cases hdrop

end KillSwitch

/-- **The chain never fails open** when it was not in force before, and no exposed packet belongs to
a connection; or when there are no exposed packets. -/
theorem fails_closed_iff (k : KillSwitch) (history : List Flow) {f : FilterTable EgressGuard}
    (hf : k.LeftBehind f) :
    k.FailsClosed f history ↔
      if f.output = [] then k.Expressible → ∀ p, k.Exposed p → p.tracked history = false
      else ∀ p, ¬ k.Exposed p := by
  split_ifs with hout
  · constructor
    · intro hclosed hexpr p hp
      exact hclosed.tracked_eq_false hout hexpr hp
    · intro hfresh fails earlier s later hstates hs s' hs' p hp
      obtain ⟨before, after, hsplit, hbefore, hafter⟩ := k.install_split fails hout
      have hmem : s' ∈ after := by
        rw [hsplit] at hstates
        rcases List.append_eq_append_iff.mp hstates with ⟨t, -, hlater⟩ | ⟨t, hbefore', hlater⟩
        · rw [hlater]
          exact List.mem_append_right _ hs'
        · cases t with
          | nil => exact (List.nil_append after ▸ hlater) ▸ hs'
          | cons x t =>
            obtain ⟨rfl, -⟩ := List.cons.inj hlater
            have := hbefore s (by simp [hbefore'])
            rw [hs.1] at this
            cases this
      obtain ⟨hinst, hexpr⟩ := hafter s' hmem
      rw [k.verdict_installed hinst hp, hfresh hexpr p hp]
      rfl
  · obtain ⟨hinst, hexpr⟩ : k.Installed f ∧ k.Expressible := by
      cases hf with
      | nothing => exact absurd rfl hout
      | unhooked _ hno => exact absurd hno hout
      | live hexpr hinst => exact ⟨hinst, hexpr⟩
    constructor
    · intro hclosed
      exact hclosed.not_exposed hinst hexpr
    · intro hnone fails earlier s later hstates hs s' hs' p hp
      exact absurd hp (hnone p)

/-! ## A worker beside a manager -/

/-- ASCII digits. -/
def labIntReader : IntReader where
  decimal c := if c.isDigit then some (c.toNat - '0'.toNat) else none
  maxStrDigits := 4300

def labEgressConfig : EgressConfig where
  interface := "wg-egress"
  endpoint := some "203.0.113.9:51820"
  table := 51820
  fwmark := 0xCA6C
  interface_plain := by decide
  table_dedicated := by decide

def labKillSwitch : KillSwitch where
  int := labIntReader
  config := labEgressConfig
  dispatchCidrs := ["172.20.0.0/16"]
  endpointIp := some "203.0.113.9"
  exceptions := [[.established], [.outInterface "lo"], [.outInterface "wg-egress"],
    [.udp, .destination (ipNetwork "203.0.113.9/32"), .dport 51820],
    [.destination (ipNetwork "172.20.0.0/16")]]
  accepted := rfl

/-- A connection to `198.51.100.7`, and its next packet if the tunnel is gone. -/
def labFlow : Flow := ⟨6, 0xAC140005, 40000, 0xC6336407, 443⟩

def labPacket : EgressPacket := ⟨"eth0", labFlow, none⟩

theorem labPacket_exposed : labKillSwitch.Exposed labPacket := by
  refine ⟨by decide, by decide, ?_, ?_⟩
  · rintro ⟨ip, -, endpoint, -, hudp, -⟩
    exact absurd hudp (by decide)
  · rintro ⟨cidr, hcidr, hin⟩
    obtain rfl := List.mem_singleton.mp hcidr
    exact absurd hin (by decide)

theorem labKillSwitch_expressible : labKillSwitch.Expressible := by
  unfold KillSwitch.Expressible
  decide

/-- **It fails open** for a connection that was there before it, and while it is installed again. -/
theorem fails_open :
    ¬ labKillSwitch.FailsClosed ⟨[], fun _ => none⟩ [labFlow] ∧
      ∃ f, labKillSwitch.LeftBehind f ∧ ¬ labKillSwitch.FailsClosed f [] := by
  constructor
  · intro h
    have := h.tracked_eq_false rfl labKillSwitch_expressible labPacket_exposed
    exact absurd this (by decide)
  · refine ⟨⟨[killswitchChain], fun _ => some (killswitchRules labKillSwitch.exceptions)⟩,
      .live labKillSwitch_expressible ⟨rfl, rfl⟩, fun h => ?_⟩
    exact h.not_exposed ⟨rfl, rfl⟩ labKillSwitch_expressible _ labPacket_exposed

/-- The first run of a worker, before any connection. -/
theorem fails_closed_iff_first :
    labKillSwitch.FailsClosed ⟨[], fun _ => none⟩ [] ↔
      if ([] : List String) = [] then
        labKillSwitch.Expressible → ∀ p, labKillSwitch.Exposed p → p.tracked [] = false
      else ∀ p, ¬ labKillSwitch.Exposed p :=
  fails_closed_iff labKillSwitch [] .nothing

end ScanPlatform

import Mathlib.Data.List.Basic
import ScanPlatform.Base.Table

/-!
# Packet filters

The filter table of a host: chains of rules, of which the first one that a packet matches decides,
and the jumps of the `OUTPUT` chain, whose policy is to accept.

* `Rule`, `decide`, `FilterTable.verdict`: what becomes of a packet;
* `Command`, `Command.exec`: `iptables`, with what makes it fail;
* `Host`, `Host.iptables`: commands one after the other, and the states that they lead to;
* `Host.Unhooked`, `Host.iptables_unhooked`: as long as there are no jumps;
* `decide_append`, **`decide_accepts`**: a chain of exceptions that ends with a drop.
-/

set_option autoImplicit false

namespace Netfilter

inductive Verdict where
  | accept
  | drop
  deriving DecidableEq

/-- A packet matches a rule when it meets all of its guards. -/
structure Rule (G : Type*) where
  guards : List G
  target : Verdict

/-- The jumps of `OUTPUT`, and the other chains under their names. -/
structure FilterTable (G : Type*) where
  output : List String
  chains : Table String (List (Rule G))

variable {G P : Type*} (sat : G → P → Bool)

/-- The first rule that the packet matches decides. -/
def decide (rules : List (Rule G)) (p : P) : Option Verdict :=
  (rules.find? fun r => r.guards.all (sat · p)).map Rule.target

/-- A chain that does not decide returns, and a packet that no chain decides is accepted. -/
def FilterTable.verdict (f : FilterTable G) (p : P) : Verdict :=
  (f.output.findSome? fun chain =>
    (f.chains chain).bind fun rules => decide sat rules p).getD .accept

variable {sat}

theorem decide_append (rules rules' : List (Rule G)) (p : P) :
    decide sat (rules ++ rules') p = (decide sat rules p).or (decide sat rules' p) := by
  unfold decide
  rw [List.find?_append]
  cases rules.find? fun r => r.guards.all (sat · p) with
  | none => rfl
  | some r => rfl

/-- **A chain of exceptions that ends with a drop** accepts what meets one of them, and drops the
rest. -/
theorem decide_accepts (exceptions : List (List G)) (p : P) :
    decide sat (exceptions.map (⟨·, .accept⟩) ++ [⟨[], .drop⟩]) p =
      some (if ∃ guards ∈ exceptions, ∀ g ∈ guards, sat g p then .accept else .drop) := by
  rw [decide_append]
  unfold decide
  rw [List.find?_map]
  cases hfind : exceptions.find? fun guards => guards.all (sat · p) with
  | none =>
    have hnone : ¬ ∃ guards ∈ exceptions, ∀ g ∈ guards, sat g p = true := by
      rintro ⟨guards, hguards, hall⟩
      exact List.find?_eq_none.mp hfind guards hguards (List.all_eq_true.mpr hall)
    simp [Function.comp_def, hfind, hnone]
  | some guards =>
    have hguards := List.find?_some hfind
    have hsome : ∃ guards ∈ exceptions, ∀ g ∈ guards, sat g p = true :=
      ⟨guards, List.mem_of_find?_eq_some hfind, List.all_eq_true.mp hguards⟩
    simp [Function.comp_def, hfind, hsome]

/-! ## Commands -/

inductive Command (G : Type*) where
  /-- `-N`. -/
  | newChain (chain : String)
  /-- `-F`. -/
  | flush (chain : String)
  /-- `-A chain`. -/
  | append (chain : String) (rule : Rule G)
  /-- `-C OUTPUT -j chain`. -/
  | checkJump (chain : String)
  /-- `-A OUTPUT -j chain`. -/
  | jump (chain : String)

def noChain : String := "iptables: No chain/target/match by that name."

/-- What a command does when the system carries it out, or its error; `valid` tells the guards that
can be expressed. -/
def Command.exec (valid : G → Bool) (f : FilterTable G) : Command G → Except String (FilterTable G)
  | .newChain chain =>
    if (f.chains chain).isSome then .error "iptables: Chain already exists."
    else .ok { f with chains := f.chains.set chain [] }
  | .flush chain =>
    if (f.chains chain).isSome then .ok { f with chains := f.chains.set chain [] }
    else .error noChain
  | .append chain rule =>
    match f.chains chain with
    | none => .error noChain
    | some rules =>
      if rule.guards.all valid then .ok { f with chains := f.chains.set chain (rules ++ [rule]) }
      else .error "iptables: Invalid argument."
  | .checkJump chain =>
    if f.output.any (· = chain) then .ok f
    else .error "iptables: Bad rule (does a matching rule exist in that chain?)."
  | .jump chain =>
    if (f.chains chain).isSome then .ok { f with output := f.output ++ [chain] }
    else .error noChain

/-- The filter, how many commands have been tried, and the states after each of them. -/
structure Host (G : Type*) where
  filter : FilterTable G
  tried : ℕ
  trace : List (FilterTable G)

variable (valid : G → Bool) (fails : ℕ → Option String)

/-- A command and its error, if it fails; `fails` are those that the system does not carry out. -/
def Host.iptables (h : Host G) (c : Command G) : Host G × Option String :=
  match fails h.tried with
  | some err => (⟨h.filter, h.tried + 1, h.trace ++ [h.filter]⟩, some err)
  | none =>
    match c.exec valid h.filter with
    | .error err => (⟨h.filter, h.tried + 1, h.trace ++ [h.filter]⟩, some err)
    | .ok f => (⟨f, h.tried + 1, h.trace ++ [f]⟩, none)

variable {valid fails}

/-- A command that fails leaves the filter as it was. -/
theorem Host.iptables_failed {h h' : Host G} {c : Command G} {err : String}
    (hc : h.iptables valid fails c = (h', some err)) :
    h'.filter = h.filter ∧ h'.trace = h.trace ++ [h.filter] := by
  unfold Host.iptables at hc
  split at hc
  · cases hc
    exact ⟨rfl, rfl⟩
  · split at hc
    · cases hc
      exact ⟨rfl, rfl⟩
    · cases hc

/-- A command that does not fail has been carried out. -/
theorem Host.iptables_done {h h' : Host G} {c : Command G}
    (hc : h.iptables valid fails c = (h', none)) :
    c.exec valid h.filter = .ok h'.filter ∧ h'.trace = h.trace ++ [h'.filter] := by
  unfold Host.iptables at hc
  split at hc
  · cases hc
  · split at hc
    · cases hc
    · rename_i f hexec
      cases hc
      exact ⟨hexec, rfl⟩

/-- A command that does not add a jump leaves the jumps as they are. -/
theorem Command.exec_output {f f' : FilterTable G} {c : Command G} (hc : ∀ chain, c ≠ .jump chain)
    (hexec : c.exec valid f = .ok f') : f'.output = f.output := by
  unfold Command.exec at hexec
  split at hexec
  case h_5 chain => exact absurd rfl (hc chain)
  all_goals
    repeat' split at hexec
    all_goals cases hexec <;> rfl

/-- There are no jumps, and there have been none. -/
def Host.Unhooked (h : Host G) : Prop :=
  h.filter.output = [] ∧ ∀ s ∈ h.trace, s.output = []

theorem Host.iptables_unhooked {h : Host G} {c : Command G} (hc : ∀ chain, c ≠ .jump chain)
    (hh : h.Unhooked) : (h.iptables valid fails c).1.Unhooked := by
  have hnext : ∀ f : FilterTable G, f.output = [] → ∀ s ∈ h.trace ++ [f], s.output = [] := by
    intro f hf s hs
    rcases List.mem_append.mp hs with hs | hs
    · exact hh.2 s hs
    · exact List.mem_singleton.mp hs ▸ hf
  cases herr : (h.iptables valid fails c).2 with
  | some err =>
    obtain ⟨hfilter, htrace⟩ := Host.iptables_failed (Prod.ext rfl herr)
    exact ⟨hfilter ▸ hh.1, htrace ▸ hnext _ hh.1⟩
  | none =>
    obtain ⟨hexec, htrace⟩ := Host.iptables_done (Prod.ext rfl herr)
    have hout := (Command.exec_output hc hexec).trans hh.1
    exact ⟨hout, htrace ▸ hnext _ hout⟩

/-- On a system that carries out everything, a command that can be executed is executed. -/
theorem Host.iptables_exec {h : Host G} {c : Command G} {f : FilterTable G}
    (hexec : c.exec valid h.filter = .ok f) :
    h.iptables valid (fun _ => none) c = (⟨f, h.tried + 1, h.trace ++ [f]⟩, none) := by
  unfold Host.iptables
  simp only [hexec]

theorem Host.iptables_error {h : Host G} {c : Command G} {err : String}
    (hexec : c.exec valid h.filter = .error err) :
    h.iptables valid (fun _ => none) c =
      (⟨h.filter, h.tried + 1, h.trace ++ [h.filter]⟩, some err) := by
  unfold Host.iptables
  simp only [hexec]

end Netfilter

import Mathlib.Data.Finset.Basic
import Mathlib.Data.Finset.Dedup
import Mathlib.Data.Finset.Lattice.Lemmas
import ScanPlatform.Base.Returns
import ScanPlatform.Base.Table
import ScanPlatform.Net.NetGuard

/-!
# The derived scope

Which of the hosts that a scan finds it may touch: those under the domain of its target, the
addresses of that domain and of names under it, or the hosts of its range. While a scan runs, the
answers of the resolver are kept, and a failure is kept as an empty answer.

* `ScopeGuard`, `ResolutionCache`, `resolveCached`: what is given, and a lookup;
* `hostInScope`, `derivedScopeRoots`, `partitionInScope`: the functions that judge hosts;
* `InScope`, `rootsOf`: what they decide, in terms of the resolver alone;
* **`returns_hostInScope`**, **`returns_partitionInScope`**: they decide it with a cache and
  without one;
* **`resolution_cache_invisible`**: the answers to a sequence of calls.
-/

set_option autoImplicit false

namespace ScanPlatform.DerivedScope

open Ipaddress PyStr

/-! ## What is given -/

inductive TargetType where
  | domain
  | ipRange
  | other (name : String)

/-- What `bool` and `str` make of a value. One that is not there is falsy. -/
structure PyValue where
  truthy : Bool
  str : String

/-- A finding, with `host` and `ip` of its metadata. -/
structure Finding where
  host : PyValue
  ip : PyValue
  value : PyValue

structure ScopeGuard where
  /-- `str.lower`. -/
  lower : String → String
  scanDerivedScopeExcludes : List String
  /-- The order in which a set is walked through. -/
  walk : Finset String → List String
  mem_walk : ∀ hosts h, h ∈ walk hosts ↔ h ∈ hosts

structure ResolutionCache where
  entries : Table String (List String)
  hits : ℕ

/-- The cache of `resolution_cache_scope`, before the first lookup. -/
def ResolutionCache.empty : ResolutionCache := ⟨fun _ => none, 0⟩

/-- A computation with the cache that is open, if one is. -/
abbrev Scan (α : Type) := StateM (Option ResolutionCache) α

/-! ## Names -/

section

variable (g : ScopeGuard) (resolver : String → Option (List String))

/-- `_norm`. -/
def norm : Option String → String
  | none => ""
  | some host =>
    if host = "" then ""
    else String.ofList ((g.lower (strip host)).toList.rdropWhile (· = '.'))

/-- The host is the domain or ends with a dot and the domain. -/
def Under (domain host : String) : Prop :=
  host = domain ∨ '.' :: domain.toList <:+ host.toList

instance (domain host : String) : Decidable (Under domain host) :=
  inferInstanceAs (Decidable (_ ∨ _))

/-- `_host_excluded`. -/
def hostExcluded (host : String) : Bool :=
  g.scanDerivedScopeExcludes.any fun entry =>
    norm g (some entry) ≠ "" ∧ Under (norm g (some entry)) host

/-- `_target_domain`. -/
def targetDomain (targetValue : String) : String := norm g (some (hostFromValue targetValue))

/-- `_is_ip`. -/
def isIp (value : String) : Bool := (ipAddress value).isSome

/-- `extract_host`. -/
def extractHost (finding : Finding) : Option String :=
  let host := if finding.host.truthy then finding.host else finding.ip
  if host.truthy then some host.str
  else if !finding.value.truthy then none
  else if hostFromValue finding.value.str = "" then none
  else some (hostFromValue finding.value.str)

/-! ## Lookups -/

/-- `_resolve_cached`. Without a cache the error of the resolver is left to the caller. -/
def resolveCached (hostname : String) : Scan (Option (List String)) := fun cache =>
  match cache with
  | none => (resolver hostname, none)
  | some cache =>
    match cache.entries hostname with
    | some addrs => (some addrs, some { cache with hits := cache.hits + 1 })
    | none =>
      let addrs := (resolver hostname).getD []
      (some addrs, some { cache with entries := cache.entries.set hostname addrs })

/-- What `_ip_host_in_range` makes of a lookup. -/
def allInside (net : IpNetwork) : Option (List String) → Bool
  | none => false
  | some addrs => addrs ≠ [] ∧ ∀ a ∈ addrs, ∃ ip ∈ ipAddress a, net.contains ip = true

/-- `_ip_host_in_range`. -/
def ipHostInRange (targetValue host : String) : Scan Bool :=
  match ipNetwork (strip targetValue) with
  | none => pure false
  | some net =>
    match ipAddress host with
    | some ip => pure (net.contains ip)
    | none => do
      let addrs ← resolveCached resolver host
      pure (allInside net addrs)

/-- `_hostname_resolves_to`. -/
def hostnameResolvesTo (hostname ipValue : String) : Scan Bool :=
  if !isIp ipValue then pure false
  else do
    let addrs ← resolveCached resolver hostname
    pure (addrs.any (ipValue ∈ ·))

/-! ## Judging hosts -/

/-- `host_in_scope` for a domain. -/
def hostOfDomain (d host : String) (extra : Option (Finset String)) : Scan Bool :=
  if d = "" then pure false
  else if Under d host then pure true
  else do
    let direct ← hostnameResolvesTo resolver d host
    if direct then pure true
    else (g.walk (extra.getD ∅)).anyM fun named => hostnameResolvesTo resolver named host

/-- `host_in_scope`, with the normalized host. -/
def normInScope (targetType : TargetType) (targetValue host : String)
    (extra : Option (Finset String)) : Scan Bool :=
  if host = "" then pure false
  else if hostExcluded g host then pure false
  else
    match targetType with
    | .domain => hostOfDomain g resolver (targetDomain g targetValue) host extra
    | .ipRange => ipHostInRange resolver targetValue host
    | .other _ => pure false

/-- `host_in_scope`. -/
def hostInScope (targetType : TargetType) (targetValue : String) (host : Option String)
    (extra : Option (Finset String)) : Scan Bool :=
  normInScope g resolver targetType targetValue (norm g host) extra

/-- The body of the loop of `derived_scope_roots`. -/
def addRoot (targetValue : String) (roots : Finset String) (finding : Finding) :
    Scan (Finset String) :=
  let h := norm g (extractHost finding)
  if h = "" ∨ isIp h then pure roots
  else do
    let ok ← hostInScope g resolver .domain targetValue (some h) none
    pure (if ok then insert h roots else roots)

/-- `derived_scope_roots`. -/
def derivedScopeRoots (targetType : TargetType) (targetValue : String) (findings : List Finding) :
    Scan (Finset String) :=
  match targetType with
  | .domain => findings.foldlM (addRoot g resolver targetValue) ∅
  | .ipRange | .other _ => pure ∅

/-- `finding_in_scope`. -/
def findingInScope (targetType : TargetType) (targetValue : String) (finding : Finding)
    (extra : Option (Finset String)) : Scan Bool :=
  hostInScope g resolver targetType targetValue (extractHost finding) extra

/-- The body of the loop of `partition_in_scope`. -/
def sortFinding (targetType : TargetType) (targetValue : String) (extra : Finset String)
    (parts : List Finding × List Finding) (finding : Finding) :
    Scan (List Finding × List Finding) := do
  let ok ← findingInScope g resolver targetType targetValue finding (some extra)
  pure (if ok then (parts.1 ++ [finding], parts.2) else (parts.1, parts.2 ++ [finding]))

/-- The names that `partition_in_scope` passes on. -/
def authorizedNames (targetType : TargetType) (targetValue : String) (findings : List Finding) :
    Option (Finset String) → Scan (Finset String)
  | none => derivedScopeRoots g resolver targetType targetValue findings
  | some extra => pure extra

/-- `partition_in_scope`. -/
def partitionInScope (targetType : TargetType) (targetValue : String) (findings : List Finding)
    (extra : Option (Finset String)) : Scan (List Finding × List Finding) := do
  let extra ← authorizedNames g resolver targetType targetValue findings extra
  findings.foldlM (sortFinding g resolver targetType targetValue extra) ([], [])

end

/-! ## What is decided -/

section

variable (g : ScopeGuard) (resolver : String → Option (List String))

/-- The addresses that the resolver gives for a name, none if it fails. -/
def addresses (hostname : String) : List String := (resolver hostname).getD []

/-- The host is an address of the name. -/
def AddressOf (hostname host : String) : Prop :=
  isIp host = true ∧ host ∈ addresses resolver hostname

/-- The host is an address in the network or has addresses, all of them in it. -/
def Inside (net : IpNetwork) (host : String) : Prop :=
  (∃ ip ∈ ipAddress host, net.contains ip = true) ∨
    ipAddress host = none ∧ addresses resolver host ≠ [] ∧
      ∀ a ∈ addresses resolver host, ∃ ip ∈ ipAddress a, net.contains ip = true

/-- What the target allows. -/
def Authorized (targetType : TargetType) (targetValue : String) (names : Finset String)
    (host : String) : Prop :=
  match targetType with
  | .domain => targetDomain g targetValue ≠ "" ∧ (Under (targetDomain g targetValue) host ∨
      AddressOf resolver (targetDomain g targetValue) host ∨
        ∃ name ∈ names, AddressOf resolver name host)
  | .ipRange => ∃ net ∈ ipNetwork (strip targetValue), Inside resolver net host
  | .other _ => False

/-- What is decided of a normalized host. -/
def InScope (targetType : TargetType) (targetValue : String) (names : Finset String)
    (host : String) : Prop :=
  host ≠ "" ∧ hostExcluded g host = false ∧
    Authorized g resolver targetType targetValue names host

/-- A host becomes a root of the domain. -/
def IsRoot (targetValue : String) (h : String) : Prop :=
  h ≠ "" ∧ isIp h = false ∧ InScope g resolver .domain targetValue ∅ (norm g (some h))

instance (hostname host : String) : Decidable (AddressOf resolver hostname host) :=
  inferInstanceAs (Decidable (_ ∧ _))

instance (net : IpNetwork) (host : String) : Decidable (Inside resolver net host) :=
  inferInstanceAs (Decidable (_ ∨ _))

instance (targetType : TargetType) (targetValue : String) (names : Finset String)
    (host : String) : Decidable (Authorized g resolver targetType targetValue names host) :=
  match targetType with
  | .domain => inferInstanceAs (Decidable (_ ∧ _))
  | .ipRange => inferInstanceAs (Decidable (∃ _ ∈ _, _))
  | .other _ => inferInstanceAs (Decidable False)

instance (targetType : TargetType) (targetValue : String) (names : Finset String)
    (host : String) : Decidable (InScope g resolver targetType targetValue names host) :=
  inferInstanceAs (Decidable (_ ∧ _))

instance (targetValue : String) : DecidablePred (IsRoot g resolver targetValue) := fun _ =>
  inferInstanceAs (Decidable (_ ∧ _))

/-- The roots of a list of findings. -/
def rootsOf (targetType : TargetType) (targetValue : String) (findings : List Finding) :
    Finset String :=
  match targetType with
  | .domain => (findings.map fun f => norm g (extractHost f)).toFinset.filter
      (IsRoot g resolver targetValue)
  | .ipRange | .other _ => ∅

end

/-! ## The cache does not decide it -/

section

variable {g : ScopeGuard} {resolver : String → Option (List String)}

/-- What the cache holds is what the resolver answers. -/
def Consistent (resolver : String → Option (List String)) : Option ResolutionCache → Prop
  | none => True
  | some cache => ∀ h addrs, cache.entries h = some addrs → addrs = addresses resolver h

theorem consistent_empty : Consistent resolver (some .empty) := by
  intro h addrs hentry
  cases hentry

theorem resolveCached_spec (hostname : String) {cache : Option ResolutionCache}
    (hcache : Consistent resolver cache) :
    (resolveCached resolver hostname cache).1.getD [] = addresses resolver hostname ∧
      Consistent resolver (resolveCached resolver hostname cache).2 := by
  rcases cache with _ | cache
  · exact ⟨rfl, trivial⟩
  · unfold resolveCached
    cases hentry : cache.entries hostname with
    | some addrs =>
      simp only [hentry]
      exact ⟨hcache hostname addrs hentry, hcache⟩
    | none =>
      simp only [hentry]
      refine ⟨rfl, ?_⟩
      intro h addrs haddrs
      by_cases heq : h = hostname
      · subst heq
        exact (Option.some.inj ((Table.set_self ..).symm.trans haddrs)).symm
      · exact hcache h addrs ((Table.set_of_ne _ _ heq).symm.trans haddrs)

/-- A lookup, from which a caller takes what depends on the addresses only. -/
theorem returns_resolveCached (hostname : String) {d : Option (List String) → Bool}
    (hd : ∀ r, d r = d (some (r.getD []))) :
    Returns (Consistent resolver) (resolveCached resolver hostname >>= fun r => pure (d r))
      (d (some (addresses resolver hostname))) := by
  intro cache hcache
  obtain ⟨haddrs, hafter⟩ := resolveCached_spec hostname hcache
  refine ⟨?_, hafter⟩
  rw [← haddrs, ← hd]
  rfl

theorem returns_hostnameResolvesTo (hostname ipValue : String) :
    Returns (Consistent resolver) (hostnameResolvesTo resolver hostname ipValue)
      (decide (AddressOf resolver hostname ipValue)) := by
  unfold hostnameResolvesTo
  by_cases hip : isIp ipValue = true
  · rw [if_neg (by simp [hip])]
    refine (returns_resolveCached hostname
      (d := fun r => r.any fun addrs => decide (ipValue ∈ addrs)) ?_).decide ?_
    · rintro (_ | addrs)
      · rfl
      · rfl
    · simp [AddressOf, hip]
  · rw [if_pos (by simp [hip])]
    exact (Returns.pure false).decide (by simp [AddressOf, hip])

theorem returns_ipHostInRange (targetValue host : String) :
    Returns (Consistent resolver) (ipHostInRange resolver targetValue host)
      (decide (∃ net ∈ ipNetwork (strip targetValue), Inside resolver net host)) := by
  unfold ipHostInRange
  cases hnet : ipNetwork (strip targetValue) with
  | none => exact (Returns.pure false).decide (by simp)
  | some net =>
    cases hip : ipAddress host with
    | some ip => exact (Returns.pure (net.contains ip)).decide (by simp [Inside, hip])
    | none =>
      refine (returns_resolveCached host (d := allInside net) ?_).decide ?_
      · rintro (_ | addrs)
        · rfl
        · rfl
      · simp [Inside, hip, allInside]

theorem returns_hostOfDomain (targetValue host : String) (extra : Option (Finset String)) :
    Returns (Consistent resolver)
      (hostOfDomain g resolver (targetDomain g targetValue) host extra)
      (decide (Authorized g resolver .domain targetValue (extra.getD ∅) host)) := by
  unfold hostOfDomain
  by_cases hd : targetDomain g targetValue = ""
  · rw [if_pos hd]
    exact (Returns.pure false).decide (by simp [Authorized, hd])
  rw [if_neg hd]
  by_cases hunder : Under (targetDomain g targetValue) host
  · rw [if_pos hunder]
    exact (Returns.pure true).decide (by simp [Authorized, hd, hunder])
  rw [if_neg hunder]
  refine (returns_hostnameResolvesTo _ _).bind ?_
  by_cases haddr : AddressOf resolver (targetDomain g targetValue) host
  · rw [decide_eq_true haddr]
    exact (Returns.pure true).decide (by simp [Authorized, hd, haddr])
  · rw [decide_eq_false haddr]
    refine (Returns.anyM (fun named => returns_hostnameResolvesTo named host) _).decide ?_
    simp [Authorized, hd, haddr, hunder, g.mem_walk]

theorem returns_normInScope (targetType : TargetType) (targetValue host : String)
    (extra : Option (Finset String)) :
    Returns (Consistent resolver) (normInScope g resolver targetType targetValue host extra)
      (decide (InScope g resolver targetType targetValue (extra.getD ∅) host)) := by
  unfold normInScope
  by_cases hempty : host = ""
  · rw [if_pos hempty]
    exact (Returns.pure false).decide (by simp [InScope, hempty])
  rw [if_neg hempty]
  by_cases hexcl : hostExcluded g host = true
  · rw [if_pos hexcl]
    exact (Returns.pure false).decide (by simp [InScope, hexcl])
  rw [if_neg hexcl]
  cases targetType with
  | domain =>
    refine (returns_hostOfDomain targetValue host extra).decide ?_
    simp [InScope, hempty, hexcl]
  | ipRange =>
    refine (returns_ipHostInRange targetValue host).decide ?_
    simp [InScope, Authorized, hempty, hexcl]
  | other name => exact (Returns.pure false).decide (by simp [InScope, Authorized])

/-- **A host is judged** by the resolver's answers alone. -/
theorem returns_hostInScope (targetType : TargetType) (targetValue : String)
    (host : Option String) (extra : Option (Finset String)) :
    Returns (Consistent resolver) (hostInScope g resolver targetType targetValue host extra)
      (decide (InScope g resolver targetType targetValue (extra.getD ∅) (norm g host))) :=
  returns_normInScope targetType targetValue (norm g host) extra

theorem returns_addRoot (targetValue : String) (roots : Finset String) (finding : Finding) :
    Returns (Consistent resolver) (addRoot g resolver targetValue roots finding)
      (if IsRoot g resolver targetValue (norm g (extractHost finding)) then
        insert (norm g (extractHost finding)) roots else roots) := by
  unfold addRoot
  by_cases hname : norm g (extractHost finding) = "" ∨ isIp (norm g (extractHost finding)) = true
  · have hroot : ¬ IsRoot g resolver targetValue (norm g (extractHost finding)) := by
      rintro ⟨hne, hip, -⟩
      rcases hname with hname | hname
      · exact hne hname
      · rw [hip] at hname
        cases hname
    rw [if_pos hname, if_neg hroot]
    exact Returns.pure roots
  · have hroot : IsRoot g resolver targetValue (norm g (extractHost finding)) ↔
        InScope g resolver .domain targetValue ∅
          (norm g (some (norm g (extractHost finding)))) := by
      obtain ⟨hne, hip⟩ := not_or.mp hname
      exact ⟨fun h => h.2.2, fun h => ⟨hne, by simpa using hip, h⟩⟩
    rw [if_neg hname]
    simp only [hroot]
    refine (returns_hostInScope .domain targetValue _ none).bind ?_
    simp only [decide_eq_true_eq, Option.getD_none]
    exact Returns.pure _

/-- The set that a loop fills with the hosts that pass a test. -/
theorem foldl_addRoot {α : Type} (h : α → String) (p : String → Prop) [DecidablePred p]
    (l : List α) (roots : Finset String) :
    l.foldl (fun roots a => if p (h a) then insert (h a) roots else roots) roots =
      roots ∪ (l.map h).toFinset.filter p := by
  induction l generalizing roots with
  | nil => simp
  | cons a l ih =>
    rw [List.foldl_cons, ih, List.map_cons, List.toFinset_cons, Finset.filter_insert]
    split_ifs
    · rw [Finset.insert_union, Finset.union_insert]
    · rfl

/-- **The roots** are those of the resolver's answers alone. -/
theorem returns_derivedScopeRoots (targetType : TargetType) (targetValue : String)
    (findings : List Finding) :
    Returns (Consistent resolver) (derivedScopeRoots g resolver targetType targetValue findings)
      (rootsOf g resolver targetType targetValue findings) := by
  cases targetType with
  | domain =>
    have hfold := Returns.foldlM (fun roots f => @returns_addRoot g resolver
      targetValue roots f) findings ∅
    rw [foldl_addRoot, Finset.empty_union] at hfold
    exact hfold
  | ipRange => exact Returns.pure ∅
  | other name => exact Returns.pure ∅

/-- Two lists that a loop fills, in the order of the list. -/
theorem foldl_sort {α : Type} (p : α → Bool) (l : List α) (parts : List α × List α) :
    l.foldl (fun parts a => if p a then (parts.1 ++ [a], parts.2) else (parts.1, parts.2 ++ [a]))
        parts =
      (parts.1 ++ l.filter p, parts.2 ++ l.filter fun a => !p a) := by
  induction l generalizing parts with
  | nil => simp
  | cons a l ih =>
    rw [List.foldl_cons, ih]
    cases hp : p a with
    | true => simp [hp]
    | false => simp [hp]

theorem returns_sortFinding (targetType : TargetType) (targetValue : String)
    (names : Finset String) (parts : List Finding × List Finding) (finding : Finding) :
    Returns (Consistent resolver)
      (sortFinding g resolver targetType targetValue names parts finding)
      (if decide (InScope g resolver targetType targetValue names
          (norm g (extractHost finding))) = true then
        (parts.1 ++ [finding], parts.2) else (parts.1, parts.2 ++ [finding])) :=
  (returns_hostInScope targetType targetValue _ (some names)).bind (Returns.pure _)

/-- The names that the findings are judged with. -/
def namesOf (g : ScopeGuard) (resolver : String → Option (List String)) (targetType : TargetType)
    (targetValue : String) (findings : List Finding) (extra : Option (Finset String)) :
    Finset String :=
  extra.getD (rootsOf g resolver targetType targetValue findings)

theorem returns_authorizedNames (targetType : TargetType) (targetValue : String)
    (findings : List Finding) (extra : Option (Finset String)) :
    Returns (Consistent resolver)
      (authorizedNames g resolver targetType targetValue findings extra)
      (namesOf g resolver targetType targetValue findings extra) := by
  cases extra with
  | none => exact returns_derivedScopeRoots targetType targetValue findings
  | some extra => exact Returns.pure extra

/-- The findings in the scope and the others. -/
def partitionOf (g : ScopeGuard) (resolver : String → Option (List String))
    (targetType : TargetType) (targetValue : String) (names : Finset String)
    (findings : List Finding) : List Finding × List Finding :=
  findings.partition fun f =>
    InScope g resolver targetType targetValue names (norm g (extractHost f))

/-- **The findings are sorted** by the resolver's answers alone. -/
theorem returns_partitionInScope (targetType : TargetType) (targetValue : String)
    (findings : List Finding) (extra : Option (Finset String)) :
    Returns (Consistent resolver)
      (partitionInScope g resolver targetType targetValue findings extra)
      (partitionOf g resolver targetType targetValue
        (namesOf g resolver targetType targetValue findings extra) findings) := by
  refine (returns_authorizedNames targetType targetValue findings extra).bind ?_
  have hfold := Returns.foldlM (fun parts f => @returns_sortFinding g resolver
    targetType targetValue
    (namesOf g resolver targetType targetValue findings extra) parts f) findings ([], [])
  rw [foldl_sort] at hfold
  unfold partitionOf
  rw [List.partition_eq_filter_filter]
  exact hfold

/-! ## A scan -/

/-- A call, with what it is given. -/
inductive ScopeCall where
  | hostInScope (targetType : TargetType) (targetValue : String) (host : Option String)
      (extra : Option (Finset String))
  | findingInScope (targetType : TargetType) (targetValue : String) (finding : Finding)
      (extra : Option (Finset String))
  | derivedScopeRoots (targetType : TargetType) (targetValue : String) (findings : List Finding)
  | partitionInScope (targetType : TargetType) (targetValue : String) (findings : List Finding)
      (extra : Option (Finset String))

inductive ScopeAnswer where
  | verdict (inScope : Bool)
  | roots (hosts : Finset String)
  | parts (inScope outOfScope : List Finding)

def answerCall (g : ScopeGuard) (resolver : String → Option (List String)) :
    ScopeCall → Scan ScopeAnswer
  | .hostInScope targetType targetValue host extra => do
    let ok ← hostInScope g resolver targetType targetValue host extra
    pure (.verdict ok)
  | .findingInScope targetType targetValue finding extra => do
    let ok ← findingInScope g resolver targetType targetValue finding extra
    pure (.verdict ok)
  | .derivedScopeRoots targetType targetValue findings => do
    let roots ← derivedScopeRoots g resolver targetType targetValue findings
    pure (.roots roots)
  | .partitionInScope targetType targetValue findings extra => do
    let parts ← partitionInScope g resolver targetType targetValue findings extra
    pure (.parts parts.1 parts.2)

/-- What the answer is to be, by the resolver's answers alone. -/
def trueAnswer (g : ScopeGuard) (resolver : String → Option (List String)) :
    ScopeCall → ScopeAnswer
  | .hostInScope targetType targetValue host extra =>
    .verdict (InScope g resolver targetType targetValue (extra.getD ∅) (norm g host))
  | .findingInScope targetType targetValue finding extra =>
    .verdict (InScope g resolver targetType targetValue (extra.getD ∅)
      (norm g (extractHost finding)))
  | .derivedScopeRoots targetType targetValue findings =>
    .roots (rootsOf g resolver targetType targetValue findings)
  | .partitionInScope targetType targetValue findings extra =>
    let parts := partitionOf g resolver targetType targetValue
      (namesOf g resolver targetType targetValue findings extra) findings
    .parts parts.1 parts.2

theorem returns_answerCall (call : ScopeCall) :
    Returns (Consistent resolver) (answerCall g resolver call) (trueAnswer g resolver call) := by
  cases call with
  | hostInScope targetType targetValue host extra =>
    exact (returns_hostInScope targetType targetValue host extra).map ScopeAnswer.verdict
  | findingInScope targetType targetValue finding extra =>
    exact (returns_hostInScope targetType targetValue (extractHost finding) extra).map
      ScopeAnswer.verdict
  | derivedScopeRoots targetType targetValue findings =>
    exact (returns_derivedScopeRoots targetType targetValue findings).map ScopeAnswer.roots
  | partitionInScope targetType targetValue findings extra =>
    exact (returns_partitionInScope targetType targetValue findings extra).map
      fun parts => ScopeAnswer.parts parts.1 parts.2

/-- **The cache cannot be seen**: the answers to a sequence of calls are those without a cache. -/
theorem resolution_cache_invisible (g : ScopeGuard) (resolver : String → Option (List String))
    (calls : List ScopeCall) :
    ((calls.mapM (answerCall g resolver)).run (some .empty)).1 =
      ((calls.mapM (answerCall g resolver)).run none).1 :=
  (Returns.mapM returns_answerCall calls).same consistent_empty trivial

end

end ScanPlatform.DerivedScope

import Mathlib.Data.Finset.Sort
import Mathlib.Data.String.Basic
import ScanPlatform.Net.ScopeGuard

/-!
# Soundness of the derived scope

A finding that may be touched is entitled to it: by its name, by an address of an authorized name,
or by its range. The authorized names that are derived from the findings are hosts that pass the
check themselves. But the check normalizes them once more, which may change them, and so it is of
another name.

* `ScopeSound`: what is to hold of the findings in the scope and of the authorized names;
* `Drifts`: a host that passes by its second normal form only;
* **`derived_scope_sound_iff`**: when the derived scope is sound; `derived_scope_leaks` is a name
  with a space at its end.
-/

set_option autoImplicit false

namespace ScanPlatform.DerivedScope

open Ipaddress PyStr

section

variable (g : ScopeGuard) (resolver : String → Option (List String)) (targetType : TargetType)
  (targetValue : String) (findings : List Finding) (extra : Option (Finset String))

/-- What entitles a host. -/
def Entitled (names : Finset String) (host : String) : Prop :=
  host ≠ "" ∧ hostExcluded g host = false ∧
    match targetType with
    | .domain => Under (targetDomain g targetValue) host ∨
        ∃ name, (name = targetDomain g targetValue ∨ name ∈ names) ∧ AddressOf resolver name host
    | .ipRange => ∃ net ∈ ipNetwork (strip targetValue), Inside resolver net host
    | .other _ => False

/-- The two lists share out the findings, in their order; those in the scope are entitled to it,
and so are the authorized names, if they are derived from the findings. -/
structure ScopeSound (names : Finset String) (parts : List Finding × List Finding) : Prop where
  sorted : ∃ p : Finding → Bool, parts = (findings.filter p, findings.filter fun f => !p f)
  entitled : ∀ f ∈ parts.1,
    Entitled g resolver targetType targetValue names (norm g (extractHost f))
  derived : extra = none → ∀ name ∈ names,
    Under (targetDomain g targetValue) name ∧ hostExcluded g name = false

/-- The host is a name that changes when it is normalized again. In its second form it passes the
check of the domain; as it is, it is excluded or not under the domain. -/
structure Drifts (host : String) : Prop where
  ne_empty : host ≠ ""
  not_ip : isIp host = false
  changes : norm g (some host) ≠ host
  passes : InScope g resolver .domain targetValue ∅ (norm g (some host))
  astray : ¬ (Under (targetDomain g targetValue) host ∧ hostExcluded g host = false)

end

section

variable {g : ScopeGuard} {resolver : String → Option (List String)} {targetType : TargetType}
  {targetValue : String} {findings : List Finding} {names : Finset String} {host : String}

theorem entitled_of_inScope (h : InScope g resolver targetType targetValue names host) :
    Entitled g resolver targetType targetValue names host := by
  obtain ⟨hne, hexcl, hauth⟩ := h
  refine ⟨hne, hexcl, ?_⟩
  cases targetType with
  | domain =>
    rcases hauth.2 with hunder | haddr | ⟨name, hname, haddr⟩
    · exact .inl hunder
    · exact .inr ⟨_, .inl rfl, haddr⟩
    · exact .inr ⟨name, .inr hname, haddr⟩
  | ipRange => exact hauth
  | other name => exact hauth

theorem isRoot_of_drifts (h : Drifts g resolver targetValue host) :
    IsRoot g resolver targetValue host :=
  ⟨h.ne_empty, h.not_ip, h.passes⟩

/-- A root is under the domain if the check is of the same name. -/
theorem root_or_drifts (h : IsRoot g resolver targetValue host) :
    Under (targetDomain g targetValue) host ∧ hostExcluded g host = false ∨
      Drifts g resolver targetValue host := by
  obtain ⟨hne, hip, hscope⟩ := h
  by_cases hsame : norm g (some host) = host
  · rw [hsame] at hscope
    obtain ⟨-, hexcl, -, hunder | haddr | ⟨name, hname, -⟩⟩ := hscope
    · exact .inl ⟨hunder, hexcl⟩
    · -- an address is no name
      rw [haddr.1] at hip
      cases hip
    · simp at hname
  · by_cases hunder : Under (targetDomain g targetValue) host ∧ hostExcluded g host = false
    · exact .inl hunder
    · exact .inr ⟨hne, hip, hsame, hscope, hunder⟩

theorem mem_rootsOf : host ∈ rootsOf g resolver .domain targetValue findings ↔
    (∃ f ∈ findings, norm g (extractHost f) = host) ∧ IsRoot g resolver targetValue host := by
  simp [rootsOf]

/-- The roots are under the domain exactly if no host drifts. -/
theorem roots_under_iff :
    (∀ name ∈ rootsOf g resolver targetType targetValue findings,
      Under (targetDomain g targetValue) name ∧ hostExcluded g name = false) ↔
      (targetType = .domain → ∀ f ∈ findings,
        ¬ Drifts g resolver targetValue (norm g (extractHost f))) := by
  cases targetType with
  | domain =>
    simp only [mem_rootsOf, forall_const]
    constructor
    · intro h f hf hdrifts
      exact hdrifts.astray (h _ ⟨⟨f, hf, rfl⟩, isRoot_of_drifts hdrifts⟩)
    · rintro h name ⟨⟨f, hf, rfl⟩, hroot⟩
      exact (root_or_drifts hroot).resolve_right (h f hf)
  | ipRange => simp [rootsOf]
  | other name => simp [rootsOf]

end

/-- **The derived scope is sound** if and only if the authorized names are given, or no host of
the findings drifts. -/
theorem derived_scope_sound_iff (g : ScopeGuard) (resolver : String → Option (List String))
    (targetType : TargetType) (targetValue : String) (findings : List Finding)
    (extra : Option (Finset String)) :
    ScopeSound g resolver targetType targetValue findings extra
        ((authorizedNames g resolver targetType targetValue findings extra).run none).1
        ((partitionInScope g resolver targetType targetValue findings extra).run none).1 ↔
      (extra = none → targetType = .domain → ∀ f ∈ findings,
        ¬ Drifts g resolver targetValue (norm g (extractHost f))) := by
  rw [(returns_authorizedNames targetType targetValue findings extra none trivial).1,
    (returns_partitionInScope targetType targetValue findings extra none trivial).1]
  constructor
  · intro h hextra
    subst hextra
    exact roots_under_iff.mp (h.derived rfl)
  · intro h
    refine ⟨⟨_, List.partition_eq_filter_filter⟩, ?_, ?_⟩
    · intro f hf
      unfold partitionOf at hf
      rw [List.partition_eq_filter_filter] at hf
      exact entitled_of_inScope (of_decide_eq_true (List.mem_filter.mp hf).2)
    · rintro rfl
      exact roots_under_iff.mpr (h rfl)

/-! ## A leak -/

def labGuard : ScopeGuard where
  lower := lower
  scanDerivedScopeExcludes := []
  walk hosts := hosts.sort (· ≤ ·)
  mem_walk _ _ := Finset.mem_sort _

/-- A finding whose metadata has this host. -/
def labFinding (host : String) : Finding := ⟨⟨true, host⟩, ⟨false, ""⟩, ⟨true, host⟩⟩

/-- The resolver knows the name with a space at its end. -/
def labResolver (hostname : String) : Option (List String) :=
  if hostname = "a.example.com " then some ["203.0.113.9"] else none

def labFindings : List Finding := [labFinding "a.example.com .", labFinding "203.0.113.9"]

/-- The name with the space is authorized, though it is not under the domain; the second finding
is an address that the resolver gives for it. -/
theorem derived_scope_leaks :
    ¬ ScopeSound labGuard labResolver .domain "example.com" labFindings none
        ((authorizedNames labGuard labResolver .domain "example.com" labFindings none).run none).1
        ((partitionInScope labGuard labResolver .domain "example.com" labFindings none).run
          none).1 := by
  intro h
  have hroot : "a.example.com " ∈
      ((authorizedNames labGuard labResolver .domain "example.com" labFindings none).run
        none).1 := by
    rw [(returns_authorizedNames (g := labGuard) _ _ _ _ none trivial).1]
    decide
  have hunder : ¬ Under (targetDomain labGuard "example.com") "a.example.com " := by
    decide
  exact hunder (h.derived rfl _ hroot).1

end ScanPlatform.DerivedScope

import Mathlib.Data.Nat.Log
import Mathlib.Data.Rat.Floor
import ScanPlatform.Reports.Scoring

/-!
# One more finding

* `posture_append`, **`posture_append_le_iff`**: the posture with one more finding;
* `NeverImproves`: one more finding does not improve the score, nor does another order;
* `FirstBelow`, `Discounts`: a finding that brings its issue a first value below 5;
* **`never_improves_iff`**: the score never improves, except for such a finding.
-/

set_option autoImplicit false

namespace ScanPlatform

open Grouping

section

variable {K : Type*} [Field K] [LinearOrder K] {findings : List (Finding K)} {f : Finding K}

/-- The scorable findings of an issue. -/
def issueMembers (findings : List (Finding K)) (key : String) : List (Finding K) :=
  members Finding.issueKey (scorable findings) key

theorem scorable_append (findings : List (Finding K)) (f : Finding K) :
    scorable (findings ++ [f]) = scorable findings ++ if f.isScorable then [f] else [] := by
  unfold scorable
  rw [List.filter_append]
  by_cases hf : f.isScorable <;> simp [hf]

theorem issueMembers_append_self (hf : f.isScorable) :
    issueMembers (findings ++ [f]) f.issueKey = issueMembers findings f.issueKey ++ [f] := by
  unfold issueMembers
  rw [scorable_append, if_pos hf, members_append, members_singleton_self]

theorem issueMembers_append_of_ne (hf : f.isScorable) {key : String} (hkey : key ≠ f.issueKey) :
    issueMembers (findings ++ [f]) key = issueMembers findings key := by
  unfold issueMembers
  rw [scorable_append, if_pos hf, members_append, members_singleton_of_ne hkey, List.append_nil]

theorem posture_append_of_not_scorable (log : Log K) (hf : ¬ f.isScorable) :
    posture log (findings ++ [f]) = posture log findings := by
  unfold posture
  rw [scorable_append, if_neg hf, List.append_nil]

variable [IsStrictOrderedRing K]

variable (findings) in
/-- The other issues are as they were. -/
theorem posture_append (log : Log K) (hf : f.isScorable) : ∃ others : K, 0 < others ∧
    posture log (findings ++ [f]) =
      groupRemaining log (issueMembers findings f.issueKey ++ [f]) * others ∧
    posture log findings = (if issueMembers findings f.issueKey = [] then 1 else
      groupRemaining log (issueMembers findings f.issueKey)) * others := by
  have hkeys : ((scorable (findings ++ [f])).map Finding.issueKey).toFinset =
      insert f.issueKey ((scorable findings).map Finding.issueKey).toFinset := by
    rw [scorable_append, if_pos hf, List.map_append, List.toFinset_append, Finset.union_comm]
    rfl
  refine ⟨∏ key ∈ ((scorable findings).map Finding.issueKey).toFinset.erase f.issueKey,
    groupRemaining log (issueMembers findings key),
    Finset.prod_pos fun key _ => groupRemaining_pos log _, ?_, ?_⟩
  · unfold posture
    rw [hkeys, ← Finset.mul_prod_erase _ _ (Finset.mem_insert_self _ _),
      Finset.erase_insert_eq_erase]
    refine congrArg₂ (· * ·) ?_ ?_
    · exact congrArg (groupRemaining log) (issueMembers_append_self hf)
    · refine Finset.prod_congr rfl fun key hkey => ?_
      exact congrArg (groupRemaining log)
        (issueMembers_append_of_ne hf (Finset.ne_of_mem_erase hkey))
  · by_cases hnew : issueMembers findings f.issueKey = []
    · rw [if_pos hnew, one_mul, Finset.erase_eq_of_notMem]
      · rfl
      · rw [List.mem_toFinset]
        exact members_eq_nil.mp hnew
    · rw [if_neg hnew,
        Finset.mul_prod_erase _ fun key => groupRemaining log (issueMembers findings key)]
      · rfl
      · rw [List.mem_toFinset]
        exact members_ne_nil.mp hnew

/-- The group had no such value, and the finding brings one below 5. -/
def FirstBelow (value : Finding K → Option K) (members : List (Finding K)) (f : Finding K) : Prop :=
  members.filterMap value = [] ∧ ∃ x ∈ value f, x < neutralValue

/-- A finding that lowers the penalty of its issue: the discount of a first CVSS or a first risk
below 5 is not made up for by the severity and the number of locations. -/
structure Discounts (log : Log K) (findings : List (Finding K)) (f : Finding K) : Prop where
  scorable : f.isScorable
  known : issueMembers findings f.issueKey ≠ []
  first : FirstBelow Finding.cvssScore (issueMembers findings f.issueKey) f ∨
    FirstBelow Finding.finalRiskScore (issueMembers findings f.issueKey) f
  lowers : groupPenalty log (issueMembers findings f.issueKey ++ [f]) <
    min maxIssuePenalty (groupPenalty log (issueMembers findings f.issueKey))

/-- Only a first value below 5 lowers the penalty of a group. -/
theorem firstBelow_of_lt (log : Log K) {members : List (Finding K)} (hne : members ≠ [])
    (h : groupPenalty log (members ++ [f]) < groupPenalty log members) :
    FirstBelow Finding.cvssScore members f ∨ FirstBelow Finding.finalRiskScore members f := by
  by_contra hno
  obtain ⟨hcvss, hrisk⟩ := not_or.mp hno
  have hfive : ∀ value : Finding K → Option K, ¬ FirstBelow value members f →
      (members.filterMap value).max? = none →
        ∀ y ∈ ((members ++ [f]).filterMap value).max?, 5 ≤ y := by
    intro value hvalue hnone y hy
    refine le_of_not_gt fun hlt => hvalue ⟨List.max?_eq_none_iff.mp hnone, y, ?_, hlt⟩
    exact mem_of_maxValue_append hnone hy
  have hle := groupPenalty_le log (List.sublist_append_left members [f]).subperm hne
    (hfive _ hcvss) (hfive _ hrisk)
  exact absurd h hle.not_gt

/-- **One more finding lowers the posture**, unless it lowers the penalty of its issue. -/
theorem posture_append_le_iff (log : Log K) (findings : List (Finding K)) (f : Finding K) :
    posture log (findings ++ [f]) ≤ posture log findings ↔ ¬ Discounts log findings f := by
  by_cases hf : f.isScorable
  · obtain ⟨others, hothers, hafter, hbefore⟩ := posture_append findings log hf
    rw [hafter, hbefore, mul_le_mul_iff_of_pos_right hothers]
    by_cases hnew : issueMembers findings f.issueKey = []
    · rw [if_pos hnew]
      exact iff_of_true (groupRemaining_le_one log _) fun h => h.known hnew
    · rw [if_neg hnew, groupRemaining_le_iff, ← not_lt, not_iff_not]
      constructor
      · intro hlt
        exact ⟨hf, hnew, firstBelow_of_lt log hnew (hlt.trans_le (min_le_right ..)), hlt⟩
      · exact Discounts.lowers
  · rw [posture_append_of_not_scorable log hf]
    exact iff_of_true le_rfl fun h => hf h.scorable

theorem computeSecurityScore_eq (log : Log K) (round : Rounding K) (findings : List (Finding K)) :
    computeSecurityScore log round findings =
      max 0 (min 100 (round.round (100 * posture log findings))) := by
  unfold computeSecurityScore scoreFromIssues
  rw [posture_eq]

/-- One more finding does not improve the score, and neither does another order. -/
structure NeverImproves (log : Log K) (findings : List (Finding K)) (f : Finding K) : Prop where
  added : ∀ round : Rounding K,
    computeSecurityScore log round (findings ++ [f]) ≤ computeSecurityScore log round findings
  permuted : ∀ (round : Rounding K) (findings' : List (Finding K)), findings.Perm findings' →
    computeSecurityScore log round findings = computeSecurityScore log round findings'

/-- A rounding that tells apart what is above `x`. -/
def Rounding.above (x : K) : Rounding K where
  round y := if x < y then 1 else 0
  mono := by
    intro y z hyz
    by_cases hy : x < y
    · rw [if_pos hy, if_pos (hy.trans_le hyz)]
    · rw [if_neg hy]
      split <;> decide

/-- **The score never improves with one more finding**, except when a first CVSS or a first risk
below 5 lowers the penalty of its issue. -/
theorem never_improves_iff (log : Log K) (findings : List (Finding K)) (f : Finding K) :
    NeverImproves log findings f ↔ ¬ Discounts log findings f := by
  rw [← posture_append_le_iff]
  constructor
  · intro h
    by_contra hlt
    have hscore := h.added (.above (100 * posture log findings))
    rw [computeSecurityScore_eq, computeSecurityScore_eq] at hscore
    have hraised : 100 * posture log findings < 100 * posture log (findings ++ [f]) := by
      linarith [not_le.mp hlt]
    simp [Rounding.above, hraised] at hscore
  · intro hle
    refine ⟨fun round => ?_, fun round findings' hperm => ?_⟩
    · rw [computeSecurityScore_eq, computeSecurityScore_eq]
      have hround := round.mono (show 100 * posture log (findings ++ [f]) ≤
        100 * posture log findings by linarith)
      exact max_le_max_left 0 (min_le_min_left 100 hround)
    · rw [computeSecurityScore_eq, computeSecurityScore_eq, posture_perm log hperm]

/-- `round`: to the nearest integer, and to the even one of two. -/
def Rounding.halfEven [FloorRing K] : Rounding K where
  round x :=
    if Int.fract x < 1 / 2 then ⌊x⌋
    else if 1 / 2 < Int.fract x then ⌊x⌋ + 1
    else if Even ⌊x⌋ then ⌊x⌋ else ⌊x⌋ + 1
  mono := by
    intro x y hxy
    have hfloor : ⌊x⌋ ≤ ⌊y⌋ := Int.floor_mono hxy
    rcases hfloor.lt_or_eq with hlt | heq
    · split_ifs <;> omega
    · have hfract : Int.fract x ≤ Int.fract y := by
        unfold Int.fract
        rw [heq]
        linarith
      rw [heq]
      split_ifs <;> first | omega | (exfalso; linarith)

end

/-- The binary logarithm, which agrees with the natural one at 1. -/
def labLog : Log ℚ where
  ln n := Nat.log 2 n
  one := by simp
  mono := fun _ hmn => by exact_mod_cast Nat.log_mono_right hmn

/-- An occurrence of an issue at one location. -/
def labOccurrence (cvssScore : Option ℚ) : Finding ℚ where
  severity := some "high"
  status := some "open"
  templateId := some "unix-command-injection"
  title := some "Command injection"
  matchedAt := some "https://shop.example/search"
  cvssScore := cvssScore
  finalRiskScore := none
  tags := none
  cve := none

/-- A finding of an issue that the list does not have. -/
theorem never_improves_iff_new :
    NeverImproves labLog [labOccurrence none]
      { labOccurrence (some 0) with templateId := some "CVE-2022-0591" } := by
  refine (never_improves_iff labLog _ _).mpr fun h => h.known ?_
  exact members_eq_nil.mpr (by decide +kernel)

/-- **A second occurrence improves the score.** -/
theorem second_occurrence_improves :
    ¬ NeverImproves labLog [labOccurrence none] (labOccurrence (some 0)) := by
  intro h
  have hbefore : computeSecurityScore labLog .halfEven [labOccurrence none] = 75 := by
    decide +kernel
  have hafter : computeSecurityScore labLog .halfEven
      [labOccurrence none, labOccurrence (some 0)] = 81 := by
    decide +kernel
  have hle := h.added .halfEven
  rw [List.singleton_append, hbefore, hafter] at hle
  exact absurd hle (by decide)

end ScanPlatform

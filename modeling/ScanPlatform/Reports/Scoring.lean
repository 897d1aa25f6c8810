import Mathlib.Algebra.Order.BigOperators.Ring.Finset
import Mathlib.Data.List.Sort
import Mathlib.Data.Prod.Lex
import Mathlib.Data.String.Basic
import Mathlib.Tactic.FieldSimp
import Mathlib.Tactic.Linarith
import Mathlib.Tactic.NormNum
import Mathlib.Tactic.Positivity
import ScanPlatform.Base.Grouping
import ScanPlatform.Reports.Classification

/-!
# The security score

The score of a list of findings, over any ordered field, with a logarithm and a rounding that are
given.

* `Log`, `Rounding`: what the score relies on of `math.log` and of `round`;
* `groupIssues`, `scoreFromIssues`, `computeSecurityScore`: the score of a list of findings;
* `posture_eq`: the issues combine to a product over the keys of the findings;
* `groupPenalty_perm`, `groupPenalty_le`: the penalty of a group does not depend on the order of its
  members, and more members raise it unless a first CVSS or a first risk below 5 is among them.
-/

set_option autoImplicit false

namespace ScanPlatform

open Grouping

/-- `math.log` at positive integers. -/
structure Log (K : Type*) [Zero K] [LE K] where
  ln : ℕ → K
  one : ln 1 = 0
  mono {m n : ℕ} : 1 ≤ m → m ≤ n → ln m ≤ ln n

/-- `round` to an integer. -/
structure Rounding (K : Type*) [LE K] where
  round : K → ℤ
  mono {x y : K} : x ≤ y → round x ≤ round y

def activeStatuses : List String := ["open", "confirmed", "reopened"]

section

variable {K : Type*} [Field K] [LinearOrder K]

/-- `issue_key`. -/
def Finding.issueKey (finding : Finding K) : String :=
  match truthy finding.templateId with
  | some templateId => "template:" ++ templateId
  | none => "title:" ++ finding.title.getD ""

def Finding.isActive (finding : Finding K) : Prop := ∃ s ∈ finding.status, s ∈ activeStatuses

instance (finding : Finding K) : Decidable finding.isActive :=
  inferInstanceAs (Decidable (∃ s ∈ finding.status, s ∈ activeStatuses))

/-- `(severity or "").lower()`. -/
def lowered (severity : Option String) : String := PyStr.lower (severity.getD "")

def Finding.isScorable (finding : Finding K) : Prop :=
  finding.isActive ∧ lowered finding.severity ≠ "info" ∧ classifyRow finding ≠ .detection

instance (finding : Finding K) : Decidable finding.isScorable :=
  inferInstanceAs (Decidable (_ ∧ _))

/-- `_BASE_PENALTY.get(severity, _UNKNOWN_SEVERITY_PENALTY)`. -/
def basePenalty (severity : String) : K :=
  match severity with
  | "critical" => 40
  | "high" => 25
  | "medium" => 10
  | "low" => 4
  | _ => 4

/-- `_severity_rank`. -/
def severityRank (severity : Option String) : ℕ :=
  match lowered severity with
  | "critical" => 4
  | "high" => 3
  | "medium" => 2
  | "low" => 1
  | _ => 0

/-- `max(0.0, min(10.0, x))`. -/
def clamp (x : K) : K := max 0 (min 10 x)

/-- A factor around 1, which a missing value leaves at 1. -/
def boundedFactor (neutral slope : K) : Option K → K
  | none => 1
  | some x => neutral + slope * clamp x

/-- `_cvss_factor`. -/
def cvssFactor : Option K → K := boundedFactor (75 / 100) (5 / 100)

/-- `_risk_factor`. -/
def riskFactor : Option K → K := boundedFactor (85 / 100) (3 / 100)

/-- The value at which both factors are 1. -/
def neutralValue : K := 5

/-- `_location_factor`. -/
def locationFactor (log : Log K) (locationCount : ℕ) : K :=
  1 + 35 / 100 * log.ln (max 1 locationCount)

/-- `_MAX_ISSUE_PENALTY`. -/
def maxIssuePenalty : K := 65

structure ScoredIssue (K : Type*) where
  key : String
  title : Option String
  severity : Option String
  locationCount : ℕ
  occurrenceCount : ℕ
  maxCvss : Option K
  maxRisk : Option K
  penalty : K

/-- `max((m.severity for m in members), key=_severity_rank)`. -/
def topSeverity (members : List (Finding K)) : Option String :=
  ((members.map Finding.severity).argmax severityRank).join

/-- The number of distinct locations of the members; one without a location counts as one. -/
def locationCount (members : List (Finding K)) : ℕ :=
  max 1 ((members.filterMap fun m => truthy m.matchedAt).dedup.length +
    members.countP fun m => truthy m.matchedAt = none)

def maxCvss (members : List (Finding K)) : Option K := (members.filterMap Finding.cvssScore).max?

def maxRisk (members : List (Finding K)) : Option K :=
  (members.filterMap Finding.finalRiskScore).max?

/-- The penalty of a group before the ceiling. -/
def groupPenalty (log : Log K) (members : List (Finding K)) : K :=
  basePenalty (lowered (topSeverity members)) * cvssFactor (maxCvss members) *
    riskFactor (maxRisk members) * locationFactor log (locationCount members)

/-- The order of representatives: the severity, then the length of the title, then the title. -/
def representativeKey (m : Finding K) : ℕ ×ₗ ℕ ×ₗ String :=
  toLex (severityRank m.severity, toLex ((m.title.getD "").length, m.title.getD ""))

def scoredIssue (log : Log K) (key : String) (members : List (Finding K)) : ScoredIssue K where
  key := key
  title := (members.argmax representativeKey).bind Finding.title
  severity := topSeverity members
  locationCount := locationCount members
  occurrenceCount := members.length
  maxCvss := maxCvss members
  maxRisk := maxRisk members
  penalty := min maxIssuePenalty (groupPenalty log members)

/-- The order of issues: the highest penalty first, then by key. -/
def ScoredIssue.sortKey (issue : ScoredIssue K) : Kᵒᵈ ×ₗ String :=
  toLex (OrderDual.toDual issue.penalty, issue.key)

def scorable (findings : List (Finding K)) : List (Finding K) :=
  findings.filter fun f => f.isScorable

def groupIssues (log : Log K) (findings : List (Finding K)) : List (ScoredIssue K) :=
  let issues := (groupBy Finding.issueKey (scorable findings)).map fun b => scoredIssue log b.1 b.2
  issues.insertionSort fun i j => i.sortKey ≤ j.sortKey

/-- What an issue leaves of the posture. -/
def ScoredIssue.remaining (issue : ScoredIssue K) : K :=
  1 - min maxIssuePenalty (max 0 issue.penalty) / 100

def scoreFromIssues (round : Rounding K) (issues : List (ScoredIssue K)) : ℤ :=
  let remaining := issues.foldl (fun remaining issue => remaining * issue.remaining) 1
  max 0 (min 100 (round.round (100 * remaining)))

def computeSecurityScore (log : Log K) (round : Rounding K) (findings : List (Finding K)) : ℤ :=
  scoreFromIssues round (groupIssues log findings)

end

/-! ## The factors of a penalty -/

section

variable {K : Type*} [Field K]

/-- The base penalty of a rank. -/
def rankPenalty (rank : ℕ) : K :=
  if 4 ≤ rank then 40 else if 3 ≤ rank then 25 else if 2 ≤ rank then 10 else 4

theorem basePenalty_eq (severity : Option String) :
    (basePenalty (lowered severity) : K) = rankPenalty (severityRank severity) := by
  unfold basePenalty severityRank
  split <;> simp [rankPenalty]

variable [LinearOrder K]

theorem clamp_nonneg (x : K) : 0 ≤ clamp x := le_max_left ..

theorem clamp_mono {x y : K} (h : x ≤ y) : clamp x ≤ clamp y :=
  max_le_max_left 0 (min_le_min_left 10 h)

variable [IsStrictOrderedRing K]

theorem rankPenalty_mono : Monotone (rankPenalty : ℕ → K) := by
  intro m n hmn
  unfold rankPenalty
  split_ifs <;> first | omega | norm_num

theorem basePenalty_pos (severity : Option String) :
    (0 : K) < basePenalty (lowered severity) := by
  unfold basePenalty
  split <;> norm_num

theorem five_le_clamp {x : K} (h : 5 ≤ x) : 5 ≤ clamp x :=
  le_max_of_le_right (le_min (by norm_num) h)

section

variable {neutral slope : K}

theorem boundedFactor_pos (hneutral : 0 < neutral) (hslope : 0 ≤ slope) (o : Option K) :
    0 < boundedFactor neutral slope o := by
  cases o with
  | none => exact one_pos
  | some x => exact add_pos_of_pos_of_nonneg hneutral (mul_nonneg hslope (clamp_nonneg x))

/-- The factor rises with the value; a first value raises it from 5 on. -/
theorem boundedFactor_le (hslope : 0 ≤ slope) (hone : neutral + slope * 5 = 1) {o o' : Option K}
    (hle : ∀ x ∈ o, ∃ y ∈ o', x ≤ y) (hfirst : o = none → ∀ y ∈ o', 5 ≤ y) :
    boundedFactor neutral slope o ≤ boundedFactor neutral slope o' := by
  cases o with
  | none =>
    cases o' with
    | none => exact le_rfl
    | some y =>
      have hy : 5 ≤ clamp y := five_le_clamp (hfirst rfl y rfl)
      calc boundedFactor neutral slope none = neutral + slope * 5 := hone.symm
        _ ≤ neutral + slope * clamp y := by gcongr
  | some x =>
    obtain ⟨y, rfl, hxy⟩ := hle x rfl
    have hclamp : clamp x ≤ clamp y := clamp_mono hxy
    show neutral + slope * clamp x ≤ neutral + slope * clamp y
    gcongr

end

theorem cvssFactor_pos (o : Option K) : 0 < cvssFactor o :=
  boundedFactor_pos (by norm_num) (by norm_num) o

theorem riskFactor_pos (o : Option K) : 0 < riskFactor o :=
  boundedFactor_pos (by norm_num) (by norm_num) o

theorem one_le_locationFactor (log : Log K) (n : ℕ) : 1 ≤ locationFactor log n := by
  have hln : 0 ≤ log.ln (max 1 n) := log.one ▸ log.mono le_rfl (le_max_left 1 n)
  have hslope : (0 : K) ≤ 35 / 100 * log.ln (max 1 n) := mul_nonneg (by norm_num) hln
  unfold locationFactor
  linarith

theorem locationFactor_mono (log : Log K) {m n : ℕ} (h : m ≤ n) :
    locationFactor log m ≤ locationFactor log n := by
  have hln : log.ln (max 1 m) ≤ log.ln (max 1 n) :=
    log.mono (le_max_left 1 m) (max_le_max_left 1 h)
  unfold locationFactor
  gcongr

end

/-! ## The penalty of a group -/

section

variable {K : Type*} {members members' : List (Finding K)}

theorem topSeverity_le (hsub : members ⊆ members') (hne : members ≠ []) :
    severityRank (topSeverity members) ≤ severityRank (topSeverity members') := by
  have hne' : members' ≠ [] := fun h => hne (List.subset_nil.mp (h ▸ hsub))
  obtain ⟨s, hs⟩ : ∃ s, s ∈ (members.map Finding.severity).argmax severityRank :=
    Option.ne_none_iff_exists'.mp (by simpa [List.argmax_eq_none] using hne)
  obtain ⟨s', hs'⟩ : ∃ s, s ∈ (members'.map Finding.severity).argmax severityRank :=
    Option.ne_none_iff_exists'.mp (by simpa [List.argmax_eq_none] using hne')
  have hle : severityRank s ≤ severityRank s' := argmax_le (List.map_subset _ hsub) hs hs'
  rw [Option.mem_def] at hs hs'
  simpa [topSeverity, hs, hs'] using hle

theorem locationCount_le (hsub : members.Subperm members') :
    locationCount members ≤ locationCount members' := by
  unfold locationCount
  have hlocated : (members.filterMap fun m => truthy m.matchedAt).dedup.length ≤
      (members'.filterMap fun m => truthy m.matchedAt).dedup.length := by
    rw [← List.card_toFinset, ← List.card_toFinset]
    refine Finset.card_le_card fun s hs => ?_
    rw [List.mem_toFinset] at hs ⊢
    exact List.filterMap_subset _ hsub.subset hs
  have hunlocated := hsub.countP_le fun m => truthy m.matchedAt = none
  omega

variable [LinearOrder K]

/-- The greatest of the values that the members have. -/
theorem maxValue_le (value : Finding K → Option K) (hsub : members ⊆ members') :
    ∀ x ∈ (members.filterMap value).max?, ∃ y ∈ (members'.filterMap value).max?, x ≤ y := by
  intro x hx
  have hvalues : members.filterMap value ⊆ members'.filterMap value :=
    List.filterMap_subset value hsub
  obtain ⟨y, hy⟩ : ∃ y, (members'.filterMap value).max? = some y :=
    Option.isSome_iff_exists.mp
      (List.isSome_max?_of_mem (hvalues (List.max?_eq_some_iff.mp hx).1))
  exact ⟨y, hy, max?_mono hvalues hx hy⟩

theorem maxValue_perm (value : Finding K → Option K) (h : members.Perm members') :
    (members.filterMap value).max? = none → (members'.filterMap value).max? = none := by
  intro hnone
  rw [List.max?_eq_none_iff] at hnone ⊢
  exact (hnone ▸ h.filterMap value).nil_eq.symm

/-- The greatest value is that of the finding, where the group had none. -/
theorem mem_of_maxValue_append {value : Finding K → Option K} {f : Finding K}
    (hnone : (members.filterMap value).max? = none) {y : K}
    (hy : y ∈ ((members ++ [f]).filterMap value).max?) : y ∈ value f := by
  rw [List.max?_eq_none_iff] at hnone
  rw [List.filterMap_append, hnone, List.nil_append] at hy
  cases hf : value f with
  | none => simp [hf] at hy
  | some x => simpa [hf] using hy

variable [Field K] [IsStrictOrderedRing K]

theorem groupPenalty_pos (log : Log K) (members : List (Finding K)) :
    0 < groupPenalty log members := by
  have hlocation := one_pos.trans_le (one_le_locationFactor log (locationCount members))
  exact mul_pos (mul_pos (mul_pos (basePenalty_pos _) (cvssFactor_pos _)) (riskFactor_pos _))
    hlocation

/-- **More members raise the penalty of a group**, unless they bring it a first value below 5. -/
theorem groupPenalty_le (log : Log K) (hsub : members.Subperm members') (hne : members ≠ [])
    (hcvss : maxCvss members = none → ∀ y ∈ maxCvss members', 5 ≤ y)
    (hrisk : maxRisk members = none → ∀ y ∈ maxRisk members', 5 ≤ y) :
    groupPenalty log members ≤ groupPenalty log members' := by
  have hbase : (basePenalty (lowered (topSeverity members)) : K) ≤
      basePenalty (lowered (topSeverity members')) := by
    rw [basePenalty_eq, basePenalty_eq]
    exact rankPenalty_mono (topSeverity_le hsub.subset hne)
  have hcvss' : cvssFactor (maxCvss members) ≤ cvssFactor (maxCvss members') :=
    boundedFactor_le (by norm_num) (by norm_num) (maxValue_le _ hsub.subset) hcvss
  have hrisk' : riskFactor (maxRisk members) ≤ riskFactor (maxRisk members') :=
    boundedFactor_le (by norm_num) (by norm_num) (maxValue_le _ hsub.subset) hrisk
  have hlocation : locationFactor log (locationCount members) ≤
      locationFactor log (locationCount members') :=
    locationFactor_mono log (locationCount_le hsub)
  have hpos := (basePenalty_pos (K := K) (topSeverity members')).le
  have hpos₁ := (cvssFactor_pos (maxCvss members)).le
  have hpos₂ := (cvssFactor_pos (maxCvss members')).le
  have hpos₃ := (riskFactor_pos (maxRisk members)).le
  have hpos₄ := (riskFactor_pos (maxRisk members')).le
  have hpos₅ := zero_le_one.trans (one_le_locationFactor log (locationCount members))
  exact mul_le_mul (mul_le_mul (mul_le_mul hbase hcvss' hpos₁ hpos) hrisk' hpos₃
    (mul_nonneg hpos hpos₂)) hlocation hpos₅ (mul_nonneg (mul_nonneg hpos hpos₂) hpos₄)

/-- **The penalty of a group does not depend on the order of its members.** -/
theorem groupPenalty_perm (log : Log K) (h : members.Perm members') (hne : members ≠ []) :
    groupPenalty log members = groupPenalty log members' := by
  have hle : ∀ {ms ms' : List (Finding K)}, ms.Perm ms' → ms ≠ [] →
      groupPenalty log ms ≤ groupPenalty log ms' := fun h hne =>
    groupPenalty_le log h.subperm hne
      (fun hnone y hy => by simp [maxCvss, maxValue_perm _ h hnone] at hy)
      (fun hnone y hy => by simp [maxRisk, maxValue_perm _ h hnone] at hy)
  exact (hle h hne).antisymm (hle h.symm fun hnil => hne (hnil ▸ h).eq_nil)

end

/-! ## The posture -/

section

variable {K : Type*} [Field K] [LinearOrder K] [IsStrictOrderedRing K] {findings : List (Finding K)}

/-- What a group leaves of the posture. -/
def groupRemaining (log : Log K) (members : List (Finding K)) : K :=
  1 - min maxIssuePenalty (groupPenalty log members) / 100

/-- The posture: the product of what each issue leaves. -/
def posture (log : Log K) (findings : List (Finding K)) : K :=
  ∏ key ∈ ((scorable findings).map Finding.issueKey).toFinset,
    groupRemaining log (members Finding.issueKey (scorable findings) key)

theorem scoredIssue_remaining (log : Log K) (key : String) (members : List (Finding K)) :
    (scoredIssue log key members).remaining = groupRemaining log members := by
  have hpos := groupPenalty_pos log members
  have hmax : (0 : K) ≤ min maxIssuePenalty (groupPenalty log members) :=
    le_min (by norm_num [maxIssuePenalty]) hpos.le
  simp [ScoredIssue.remaining, scoredIssue, groupRemaining, max_eq_right hmax]

/-- **The issues combine to the posture**, whatever their order. -/
theorem posture_eq (log : Log K) (findings : List (Finding K)) :
    (groupIssues log findings).foldl (fun remaining issue => remaining * issue.remaining) 1 =
      posture log findings := by
  have hprod : ∀ (issues : List (ScoredIssue K)) (x : K),
      issues.foldl (fun remaining issue => remaining * issue.remaining) x =
        x * (issues.map ScoredIssue.remaining).prod := fun issues => by
    induction issues with
    | nil => simp
    | cons issue issues ih => intro x; simp [ih, mul_assoc]
  have hsort : (groupIssues log findings).Perm
      ((groupBy Finding.issueKey (scorable findings)).map fun b => scoredIssue log b.1 b.2) :=
    List.perm_insertionSort _ _
  rw [hprod, one_mul, (hsort.map ScoredIssue.remaining).prod_eq, List.map_map, prod_groupBy]
  exact Finset.prod_congr rfl fun key _ => scoredIssue_remaining log key _

theorem groupRemaining_pos (log : Log K) (members : List (Finding K)) :
    0 < groupRemaining log members := by
  have hle : min maxIssuePenalty (groupPenalty log members) ≤ 65 := min_le_left ..
  unfold groupRemaining
  linarith

theorem groupRemaining_le_one (log : Log K) (members : List (Finding K)) :
    groupRemaining log members ≤ 1 := by
  have hle : (0 : K) ≤ min maxIssuePenalty (groupPenalty log members) :=
    le_min (by norm_num [maxIssuePenalty]) (groupPenalty_pos log members).le
  unfold groupRemaining
  linarith

theorem groupRemaining_le_iff (log : Log K) (ms ms' : List (Finding K)) :
    groupRemaining log ms' ≤ groupRemaining log ms ↔
      min maxIssuePenalty (groupPenalty log ms) ≤ groupPenalty log ms' := by
  unfold groupRemaining
  rw [sub_le_sub_iff_left, div_le_div_iff_of_pos_right (by norm_num), le_min_iff]
  exact and_iff_right (min_le_left ..)

/-- The posture of a permutation is the same. -/
theorem posture_perm (log : Log K) {findings' : List (Finding K)} (h : findings.Perm findings') :
    posture log findings = posture log findings' := by
  have hscorable : (scorable findings).Perm (scorable findings') := h.filter _
  have hkeys : ((scorable findings).map Finding.issueKey).toFinset =
      ((scorable findings').map Finding.issueKey).toFinset :=
    List.toFinset_eq_of_perm _ _ (hscorable.map Finding.issueKey)
  unfold posture
  rw [← hkeys]
  refine Finset.prod_congr rfl fun key hkey => ?_
  rw [List.mem_toFinset, ← members_ne_nil] at hkey
  have hmembers : (members Finding.issueKey (scorable findings) key).Perm
      (members Finding.issueKey (scorable findings') key) := hscorable.filter _
  unfold groupRemaining
  rw [groupPenalty_perm log hmembers hkey]

end

end ScanPlatform

import Mathlib.Data.Prod.Lex
import Mathlib.Order.Nat
import ScanPlatform.Base.Contest
import ScanPlatform.Base.Table
import ScanPlatform.Base.Uuid
import ScanPlatform.Nuclei.Location

/-!
# The origins of the web assets

Which asset of a target a finding at an origin is attributed to.

* `findingOrigin`, `OriginIndex.visit`, `originIndex`: the functions;
* `Inventory`, `Answers`: the assets, and what the queries return in some order;
* `Contender`, `Preferred`, `BestContender`: the assets that have an origin, and the best of them;
* `candidate`, `StandsAs`, **`agrees_enter`**, `agrees_visits`: for each origin the loop holds a
  contest of the assets that have it;
* **`bestContender_iff`**, `originIndex_owned`, `originIndex_tied`: what the contest decides, of the
  assets.
-/

set_option autoImplicit false

namespace ScanPlatform

open Contest PyStr UrlSplit

variable {F : Type} (py : Python F)

/-! ## The functions -/

/-- `_finding_origin`; a `ValueError` is caught. -/
def findingOrigin (location : String) : Option (List Char) :=
  ((normalizeUrl py location.toList).bind (urlsplit py)).bind fun parts =>
    if parts.scheme ∉ ["http".toList, "https".toList] ∨ parts.netloc = [] then none
    else
      let netloc := (rpartition '@' parts.netloc).2.2
      if netloc = [] then none else some (parts.scheme ++ "://".toList ++ netloc)

/-- `_WEB_ASSET_TYPES`. -/
inductive WebAssetType where
  | httpService
  | url
  deriving DecidableEq

def WebAssetType.text : WebAssetType → String
  | .httpService => "http_service"
  | .url => "url"

def webAssetTypes : List WebAssetType := [.httpService, .url]

/-- What the queries read of an asset. -/
structure WebAsset where
  id : Uuid
  targetId : Uuid
  assetType : String
  value : String

structure OriginIndex where
  index : Table (List Char) (Option Uuid)
  claimedBy : Table (List Char) (WebAssetType × ℕ)
  claimedValue : Table (List Char × ℕ) (List Char)

def OriginIndex.empty : OriginIndex := ⟨fun _ => none, fun _ => none, fun _ => none⟩

/-- Whether the asset is the origin, or merely lives under it. -/
def originRank (origin normalized : List Char) : ℕ :=
  if rstrip '/' normalized = origin then 0 else 1

def OriginIndex.claim (s : OriginIndex) (origin : List Char) (assetType : WebAssetType) (rank : ℕ)
    (normalized : List Char) (id : Uuid) : OriginIndex where
  index := s.index.set origin (some id)
  claimedBy := s.claimedBy.set origin (assetType, rank)
  claimedValue := s.claimedValue.set (origin, rank) normalized

/-- A row that a query returns. -/
def OriginIndex.visit (assetType : WebAssetType) (s : OriginIndex) (row : WebAsset) : OriginIndex :=
  match findingOrigin py row.value, normalizeUrl py row.value.toList with
  | some origin, some normalized =>
    let rank := originRank origin normalized
    match s.claimedBy origin with
    | none => s.claim origin assetType rank normalized row.id
    | some current =>
      if rank < current.2 then s.claim origin assetType rank normalized row.id
      else if current = (assetType, rank) ∧ s.index origin ≠ some (some row.id) ∧
          s.claimedValue (origin, rank) ≠ some normalized then
        { s with index := s.index.set origin none }
      else s
  -- No origin; the second call raises nothing unless the first one did.
  | _, _ => s

/-- The assets. -/
structure Inventory where
  assets : List WebAsset
  nodup : (assets.map WebAsset.id).Nodup

/-- The rows of a type of the target; texts compare as the collation does. -/
def Inventory.ofType (inv : Inventory) (collate : String → String) (targetId : Uuid)
    (assetType : WebAssetType) : List WebAsset :=
  inv.assets.filter fun a => a.targetId = targetId ∧ collate a.assetType = collate assetType.text

/-- What the database returns for each type: its rows, in whatever order. -/
structure Answers (inv : Inventory) (collate : String → String) (targetId : Uuid) where
  rows : WebAssetType → List WebAsset
  perm : ∀ t, (rows t).Perm (inv.ofType collate targetId t)

variable {inv : Inventory} {collate : String → String} {targetId : Uuid}

/-- `_origin_index`. -/
def originIndex (answers : Answers inv collate targetId) : Table (List Char) (Option Uuid) :=
  (webAssetTypes.foldl (fun s assetType =>
    (answers.rows assetType).foldl (OriginIndex.visit py assetType) s) OriginIndex.empty).index

/-! ## The assets of an origin -/

/-- A web asset of the target that has the origin, in its role. -/
structure Contender (inv : Inventory) (collate : String → String) (targetId : Uuid)
    (origin : List Char) (t : WebAssetType) (a : WebAsset) : Prop where
  mem : a ∈ inv.assets
  target : a.targetId = targetId
  type : collate a.assetType = collate t.text
  has : findingOrigin py a.value = some origin

/-- The normalized value is the origin itself, with or without slashes behind it. -/
def IsOrigin (origin : List Char) (a : WebAsset) : Prop :=
  ∃ n, normalizeUrl py a.value.toList = some (origin ++ List.replicate n '/')

/-- Assets that are the origin come before assets under it, and then services before URLs. -/
def Preferred (origin : List Char) (t : WebAssetType) (a : WebAsset) (t' : WebAssetType)
    (a' : WebAsset) : Prop :=
  (IsOrigin py origin a ∧ ¬ IsOrigin py origin a') ∨
    (IsOrigin py origin a ↔ IsOrigin py origin a') ∧ t = .httpService ∧ t' = .url

/-- No contender is preferred to it. -/
def BestContender (inv : Inventory) (collate : String → String) (targetId : Uuid)
    (origin : List Char) (t : WebAssetType) (a : WebAsset) : Prop :=
  Contender py inv collate targetId origin t a ∧
    ∀ t' a', Contender py inv collate targetId origin t' a' → ¬ Preferred py origin t' a' t a

/-! ## The rows in order -/

/-- The rows that the loop visits. -/
def visits (answers : Answers inv collate targetId) : List (WebAssetType × WebAsset) :=
  webAssetTypes.flatMap fun t => (answers.rows t).map (t, ·)

theorem originIndex_eq (answers : Answers inv collate targetId) :
    originIndex py answers = ((visits answers).foldl (fun s x => s.visit py x.1 x.2)
      OriginIndex.empty).index := by
  simp [originIndex, visits, webAssetTypes, List.foldl_map]

theorem mem_visits {answers : Answers inv collate targetId} {x : WebAssetType × WebAsset} :
    x ∈ visits answers ↔
      x.2 ∈ inv.assets ∧ x.2.targetId = targetId ∧ collate x.2.assetType = collate x.1.text := by
  obtain ⟨t, a⟩ := x
  have htypes : t ∈ webAssetTypes := by cases t <;> decide
  have hrows : a ∈ answers.rows t ↔ a ∈ inv.ofType collate targetId t := (answers.perm t).mem_iff
  simp [visits, htypes, hrows, Inventory.ofType]

/-- Where a type stands in the order of preference. -/
def WebAssetType.place : WebAssetType → ℕ
  | .httpService => 0
  | .url => 1

theorem place_injective : Function.Injective WebAssetType.place := by
  intro t t' h
  cases t <;> cases t' <;> first | rfl | cases h

/-- The types come in order, and no row of a type comes twice. -/
def Before (x y : WebAssetType × WebAsset) : Prop :=
  x.1.place ≤ y.1.place ∧ (x.1 = y.1 → x.2.id ≠ y.2.id)

theorem pairwise_visits (answers : Answers inv collate targetId) :
    (visits answers).Pairwise Before := by
  have hids : ∀ t, (answers.rows t).Pairwise fun a b => a.id ≠ b.id := by
    intro t
    have hsub : ((inv.ofType collate targetId t).map WebAsset.id).Nodup :=
      inv.nodup.sublist (List.filter_sublist.map _)
    exact List.pairwise_map.mp (((answers.perm t).map _).nodup_iff.mpr hsub)
  have hone : ∀ t, ((answers.rows t).map (t, ·)).Pairwise Before := fun t =>
    List.pairwise_map.mpr ((hids t).imp fun hne => ⟨le_rfl, fun _ => hne⟩)
  have hvisits : visits answers = (answers.rows .httpService).map (.httpService, ·) ++
      (answers.rows .url).map (.url, ·) := by
    simp [visits, webAssetTypes]
  rw [hvisits]
  refine List.pairwise_append.mpr ⟨hone _, hone _, ?_⟩
  intro x hx y hy
  obtain ⟨a, -, rfl⟩ := List.mem_map.mp hx
  obtain ⟨b, -, rfl⟩ := List.mem_map.mp hy
  exact ⟨Nat.zero_le _, fun h => by cases h⟩

/-! ## A contest for each origin -/

abbrev OriginClass := ℕ ×ₗ ℕ

/-- Smaller is better: the rank counts first. -/
def originClass (t : WebAssetType) (rank : ℕ) : OriginClass := toLex (rank, t.place)

theorem originClass_inj {t t' : WebAssetType} {rank rank' : ℕ} :
    originClass t rank = originClass t' rank' ↔ t = t' ∧ rank = rank' := by
  unfold originClass
  rw [toLex_inj, Prod.mk.injEq, place_injective.eq_iff]
  exact and_comm

theorem originClass_lt {t t' : WebAssetType} {rank rank' : ℕ} :
    originClass t rank < originClass t' rank' ↔
      rank < rank' ∨ rank = rank' ∧ t.place < t'.place :=
  Prod.Lex.toLex_lt_toLex

/-- What a row enters in the contest for the origin. -/
def candidate (origin : List Char) (x : WebAssetType × WebAsset) :
    Option (Entry OriginClass (List Char) Uuid) :=
  if findingOrigin py x.2.value = some origin then
    (normalizeUrl py x.2.value.toList).map fun normalized =>
      ⟨originClass x.1 (originRank origin normalized), normalized, x.2.id⟩
  else none

/-- The entry of the origin in the three tables, beside the standing of its contest. -/
inductive StandsAs (s : OriginIndex) (origin : List Char) :
    Option (Standing OriginClass (List Char) Uuid) → Prop
  | unclaimed (hindex : s.index origin = none) (hclaimed : s.claimedBy origin = none) :
    StandsAs s origin none
  | claimed {st : Standing OriginClass (List Char) Uuid} {t : WebAssetType} {rank : ℕ}
    (hindex : s.index origin = some st.owner) (hclaimed : s.claimedBy origin = some (t, rank))
    (hcls : st.cls = originClass t rank)
    (hvalue : s.claimedValue (origin, rank) = some st.value) : StandsAs s origin (some st)

section

variable {py} {s : OriginIndex} {origin : List Char} {t : WebAssetType} {a : WebAsset}
  {standing : Option (Standing OriginClass (List Char) Uuid)}
  {e : Entry OriginClass (List Char) Uuid}

theorem candidate_eq_some :
    candidate py origin (t, a) = some e ↔ ∃ normalized, findingOrigin py a.value = some origin ∧
      normalizeUrl py a.value.toList = some normalized ∧
      e = ⟨originClass t (originRank origin normalized), normalized, a.id⟩ := by
  unfold candidate
  by_cases horigin : findingOrigin py a.value = some origin
  · rw [if_pos horigin, Option.map_eq_some_iff]
    constructor
    · rintro ⟨normalized, hnormalized, rfl⟩
      exact ⟨normalized, horigin, hnormalized, rfl⟩
    · rintro ⟨normalized, -, hnormalized, rfl⟩
      exact ⟨normalized, hnormalized, rfl⟩
  · rw [if_neg horigin]
    constructor
    · intro h
      cases h
    · rintro ⟨-, horigin', -⟩
      exact absurd horigin' horigin

theorem agrees_claim (t : WebAssetType) (rank : ℕ) (normalized : List Char) (id : Uuid) :
    StandsAs (s.claim origin t rank normalized id) origin
      (some ⟨originClass t rank, normalized, some id⟩) :=
  .claimed (Table.set_self ..) (Table.set_self ..) rfl (Table.set_self ..)

/-- The entries of the other origins stay as they are. -/
theorem agrees_of_ne {origin' : List Char} (hne : origin ≠ origin')
    (horigin : findingOrigin py a.value = some origin') (h : StandsAs s origin standing) :
    StandsAs (s.visit py t a) origin standing := by
  unfold OriginIndex.visit
  rw [horigin]
  cases normalizeUrl py a.value.toList with
  | none => exact h
  | some normalized =>
    have hclaim : ∀ rank id, StandsAs (s.claim origin' t rank normalized id) origin standing := by
      intro rank id
      have hpair : ∀ rank', (origin, rank') ≠ (origin', rank) := fun rank' heq =>
        hne (Prod.mk.inj heq).1
      cases h with
      | unclaimed hindex hclaimed =>
        exact .unclaimed ((Table.set_of_ne _ _ hne).trans hindex)
          ((Table.set_of_ne _ _ hne).trans hclaimed)
      | claimed hindex hclaimed hcls hvalue =>
        exact .claimed ((Table.set_of_ne _ _ hne).trans hindex)
          ((Table.set_of_ne _ _ hne).trans hclaimed) hcls
          ((Table.set_of_ne _ _ (hpair _)).trans hvalue)
    dsimp only
    split
    · exact hclaim _ _
    · split_ifs
      · exact hclaim _ _
      · cases h with
        | unclaimed hindex hclaimed =>
          exact .unclaimed ((Table.set_of_ne _ _ hne).trans hindex) hclaimed
        | claimed hindex hclaimed hcls hvalue =>
          exact .claimed ((Table.set_of_ne _ _ hne).trans hindex) hclaimed hcls hvalue
      · exact h

/-- **A row enters the contest for its origin**: it is of a type that does not come before that of
the leader, and it is not the leader itself. -/
theorem agrees_enter (he : candidate py origin (t, a) = some e) (h : StandsAs s origin standing)
    (hbefore : ∀ st t' rank, standing = some st → st.cls = originClass t' rank →
      t'.place ≤ t.place ∧ (t' = t → st.owner ≠ some a.id)) :
    StandsAs (s.visit py t a) origin (enter standing e) := by
  obtain ⟨normalized, horigin, hnormalized, rfl⟩ := candidate_eq_some.mp he
  unfold OriginIndex.visit
  rw [horigin, hnormalized]
  dsimp only
  cases h with
  | unclaimed hindex hclaimed =>
    rw [hclaimed]
    exact agrees_claim ..
  | @claimed st t' rank hindex hclaimed hcls hvalue =>
    obtain ⟨hplace, hother⟩ := hbefore st t' rank rfl hcls
    rw [hclaimed]
    dsimp only [enter]
    rw [hcls]
    have hlt : originClass t (originRank origin normalized) < originClass t' rank ↔
        originRank origin normalized < rank := by
      rw [originClass_lt]
      exact or_iff_left fun hboth => absurd hboth.2 (not_lt_of_ge hplace)
    by_cases hrank : originRank origin normalized < rank
    · rw [if_pos hrank, if_pos (hlt.mpr hrank)]
      exact agrees_claim ..
    · rw [if_neg hrank, if_neg fun hclass => hrank (hlt.mp hclass)]
      by_cases hcontest : (t', rank) = (t, originRank origin normalized) ∧
          normalized ≠ st.value
      · -- a rival of the same class with another value
        obtain ⟨hsame, hne⟩ := hcontest
        obtain ⟨rfl, rfl⟩ := Prod.mk.inj hsame
        have howner : s.index origin ≠ some (some a.id) := by
          rw [hindex]
          exact fun heq => hother rfl (Option.some.inj heq)
        have hclash : s.claimedValue (origin, originRank origin normalized) ≠ some normalized := by
          rw [hvalue]
          exact fun heq => hne (Option.some.inj heq).symm
        rw [if_pos ⟨rfl, howner, hclash⟩, if_pos ⟨rfl, hne⟩]
        exact .claimed (Table.set_self ..) hclaimed rfl hvalue
      · rw [if_neg, if_neg]
        · exact .claimed hindex hclaimed hcls hvalue
        · rintro ⟨hclass, hne⟩
          obtain ⟨rfl, rfl⟩ := originClass_inj.mp hclass
          exact hcontest ⟨rfl, hne⟩
        · rintro ⟨hsame, -, hne⟩
          obtain ⟨rfl, rfl⟩ := Prod.mk.inj hsame
          exact hcontest ⟨rfl, fun heq => hne (by rw [hvalue, heq])⟩

/-- A row that is no entry changes nothing. -/
theorem agrees_of_no_candidate (he : candidate py origin (t, a) = none)
    (h : StandsAs s origin standing) : StandsAs (s.visit py t a) origin standing := by
  cases horigin : findingOrigin py a.value with
  | none =>
    unfold OriginIndex.visit
    rw [horigin]
    exact h
  | some origin' =>
    by_cases hne : origin = origin'
    · subst hne
      unfold OriginIndex.visit
      cases hnormalized : normalizeUrl py a.value.toList with
      | none =>
        rw [horigin]
        exact h
      | some normalized =>
        rw [candidate_eq_some.mpr ⟨normalized, horigin, hnormalized, rfl⟩] at he
        cases he
    · exact agrees_of_ne hne horigin h

/-- A row that comes after the others is of a type that does not come before that of the leader, and
it is not the leader itself. -/
theorem leader_before {rows : List (WebAssetType × WebAsset)}
    (hbefore : ∀ x ∈ rows, Before x (t, a)) {st : Standing OriginClass (List Char) Uuid}
    (hst : contest (rows.filterMap (candidate py origin)) = some st) {t' : WebAssetType} {rank : ℕ}
    (hcls : st.cls = originClass t' rank) :
    t'.place ≤ t.place ∧ (t' = t → st.owner ≠ some a.id) := by
  have hdecided := decided_of_contest hst
  obtain ⟨top, htop, htopcls, -⟩ := hdecided.leads
  -- an entry of the leader's class is of a row of the leader's type
  have hfrom : ∀ e', Best (rows.filterMap (candidate py origin)) e' →
      ∃ a', (t', a') ∈ rows ∧ e'.owner = a'.id := by
    intro e' he'
    obtain ⟨⟨t₁, a₁⟩, hmem, he₁⟩ := List.mem_filterMap.mp he'.1
    obtain ⟨normalized, -, -, rfl⟩ := candidate_eq_some.mp he₁
    have hclass := (he'.cls_eq htop).trans (htopcls.trans hcls)
    obtain ⟨rfl, -⟩ := originClass_inj.mp hclass
    exact ⟨a₁, hmem, rfl⟩
  obtain ⟨a', hmem, -⟩ := hfrom top htop
  refine ⟨(hbefore _ hmem).1, fun heq howner => ?_⟩
  obtain ⟨⟨e', he', hid⟩, -⟩ := hdecided.owned a.id howner
  obtain ⟨a'', hmem', hid'⟩ := hfrom e' he'
  exact (hbefore _ hmem').2 heq (hid'.symm.trans hid)

/-- **Every origin has its contest.** -/
theorem agrees_visits {rows : List (WebAssetType × WebAsset)} (h : rows.Pairwise Before)
    (origin : List Char) :
    StandsAs (rows.foldl (fun s x => s.visit py x.1 x.2) OriginIndex.empty) origin
      (contest (rows.filterMap (candidate py origin))) := by
  induction rows using List.reverseRecOn with
  | nil => exact .unclaimed rfl rfl
  | append_singleton rows x ih =>
    obtain ⟨t, a⟩ := x
    obtain ⟨hrows, -, hbefore⟩ := List.pairwise_append.mp h
    have hrun := ih hrows
    rw [List.foldl_append, List.filterMap_append]
    dsimp only [List.foldl_cons, List.foldl_nil]
    cases he : candidate py origin (t, a) with
    | none =>
      rw [List.filterMap_cons_none he, List.filterMap_nil, List.append_nil]
      exact agrees_of_no_candidate he hrun
    | some e =>
      rw [List.filterMap_cons_some he, List.filterMap_nil, contest_concat]
      have hlast : ∀ x ∈ rows, Before x (t, a) := fun x hx =>
        hbefore x hx _ (List.mem_singleton_self _)
      exact agrees_enter he hrun fun st t' rank hst hcls => leader_before hlast hst hcls

theorem originIndex_apply (answers : Answers inv collate targetId) (origin : List Char) :
    originIndex py answers origin =
      (contest ((visits answers).filterMap (candidate py origin))).map Standing.owner := by
  have hrun : StandsAs _ origin (contest ((visits answers).filterMap (candidate py origin))) :=
    agrees_visits (pairwise_visits answers) origin
  rw [originIndex_eq]
  generalize contest ((visits answers).filterMap (candidate py origin)) = standing at hrun ⊢
  cases hrun with
  | unclaimed hindex hclaimed => exact hindex
  | claimed hindex hclaimed hcls hvalue => exact hindex

/-! ## The best contenders -/

variable {t' : WebAssetType} {a' : WebAsset}

/-- An origin does not end with a slash. -/
theorem getLast?_of_findingOrigin {location : String}
    (h : findingOrigin py location = some origin) : origin.getLast? ≠ some '/' := by
  obtain ⟨parts, hparts, h⟩ := Option.bind_eq_some_iff.mp h
  obtain ⟨url, -, hsplit⟩ := Option.bind_eq_some_iff.mp hparts
  rw [ite_eq_iff] at h
  obtain ⟨-, h⟩ | ⟨-, h⟩ := h
  · cases h
  dsimp only at h
  split_ifs at h with hnetloc
  obtain rfl := Option.some.inj h
  have hslash : '/' ∉ (rpartition '@' parts.netloc).2.2 := by
    have hclean : '/' ∉ parts.netloc := fun hmem =>
      ((urlsplit_parsed hsplit).netloc '/' hmem).1 (List.mem_cons_self ..)
    rcases rpartition_cases '@' parts.netloc with ⟨-, heq⟩ | ⟨before, after, hwhole, -, heq⟩
    · rw [heq]
      exact hclean
    · rw [heq]
      exact fun hmem => hclean (by rw [hwhole]; simp [hmem])
  rw [List.getLast?_append_of_ne_nil _ hnetloc]
  exact fun hlast => hslash (List.mem_of_getLast? hlast)

theorem originRank_eq_zero {normalized : List Char} :
    originRank origin normalized = 0 ↔ rstrip '/' normalized = origin := by
  unfold originRank
  split_ifs with h <;> simp [h]

theorem originRank_eq (horigin : findingOrigin py a.value = some origin) {normalized : List Char}
    (hnormalized : normalizeUrl py a.value.toList = some normalized) :
    originRank origin normalized = 0 ↔ IsOrigin py origin a := by
  rw [originRank_eq_zero, rstrip_eq_iff (getLast?_of_findingOrigin horigin)]
  unfold IsOrigin
  simp only [hnormalized, Option.some.injEq]

theorem originRank_le (origin normalized : List Char) : originRank origin normalized ≤ 1 := by
  unfold originRank
  split_ifs <;> decide

/-- The contenders are the rows that enter. -/
theorem contender_iff (answers : Answers inv collate targetId) :
    Contender py inv collate targetId origin t a ↔
      (t, a) ∈ visits answers ∧ ∃ e, candidate py origin (t, a) = some e := by
  constructor
  · intro h
    refine ⟨mem_visits.mpr ⟨h.mem, h.target, h.type⟩, ?_⟩
    obtain ⟨parts, hparts, -⟩ := Option.bind_eq_some_iff.mp h.has
    obtain ⟨normalized, hnormalized, -⟩ := Option.bind_eq_some_iff.mp hparts
    exact ⟨_, candidate_eq_some.mpr ⟨normalized, h.has, hnormalized, rfl⟩⟩
  · rintro ⟨hmem, e, he⟩
    obtain ⟨hasset, htarget, htype⟩ := mem_visits.mp hmem
    obtain ⟨-, horigin, -⟩ := candidate_eq_some.mp he
    exact ⟨hasset, htarget, htype, horigin⟩

theorem preferred_iff {e' : Entry OriginClass (List Char) Uuid}
    (he : candidate py origin (t, a) = some e) (he' : candidate py origin (t', a') = some e') :
    Preferred py origin t' a' t a ↔ e'.cls < e.cls := by
  obtain ⟨normalized, horigin, hnormalized, rfl⟩ := candidate_eq_some.mp he
  obtain ⟨normalized', horigin', hnormalized', rfl⟩ := candidate_eq_some.mp he'
  have hplace : t'.place < t.place ↔ t' = .httpService ∧ t = .url := by
    cases t <;> cases t' <;> simp [WebAssetType.place]
  have hle := originRank_le origin normalized
  have hle' := originRank_le origin normalized'
  unfold Preferred
  rw [originClass_lt, hplace, ← originRank_eq horigin hnormalized,
    ← originRank_eq horigin' hnormalized']
  have hlt : originRank origin normalized' = 0 ∧ ¬ originRank origin normalized = 0 ↔
      originRank origin normalized' < originRank origin normalized := by omega
  have heq : (originRank origin normalized' = 0 ↔ originRank origin normalized = 0) ↔
      originRank origin normalized' = originRank origin normalized := by omega
  rw [hlt, heq]

/-- **The best contenders are the best entries.** -/
theorem bestContender_iff (answers : Answers inv collate targetId) :
    BestContender py inv collate targetId origin t a ↔ (t, a) ∈ visits answers ∧
      ∃ e, candidate py origin (t, a) = some e ∧
        Best ((visits answers).filterMap (candidate py origin)) e := by
  constructor
  · rintro ⟨hcontender, hbest⟩
    obtain ⟨hmem, e, he⟩ := (contender_iff answers).mp hcontender
    refine ⟨hmem, e, he, List.mem_filterMap.mpr ⟨_, hmem, he⟩, fun e' he' => ?_⟩
    obtain ⟨⟨t', a'⟩, hmem', hcandidate⟩ := List.mem_filterMap.mp he'
    have hnot := hbest t' a' ((contender_iff answers).mpr ⟨hmem', e', hcandidate⟩)
    rw [preferred_iff he hcandidate] at hnot
    exact le_of_not_gt hnot
  · rintro ⟨hmem, e, he, hbest⟩
    refine ⟨(contender_iff answers).mpr ⟨hmem, e, he⟩, fun t' a' hcontender => ?_⟩
    obtain ⟨hmem', e', he'⟩ := (contender_iff answers).mp hcontender
    rw [preferred_iff he he']
    exact not_lt_of_ge (hbest.2 e' (List.mem_filterMap.mpr ⟨_, hmem', he'⟩))

/-- The best entries, seen as contenders. -/
theorem best_iff {answers : Answers inv collate targetId} :
    Best ((visits answers).filterMap (candidate py origin)) e ↔
      ∃ t a, BestContender py inv collate targetId origin t a ∧
        candidate py origin (t, a) = some e := by
  constructor
  · intro hbest
    obtain ⟨⟨t, a⟩, hmem, he⟩ := List.mem_filterMap.mp hbest.1
    exact ⟨t, a, (bestContender_iff answers).mpr ⟨hmem, e, he, hbest⟩, he⟩
  · rintro ⟨t, a, hbest, he⟩
    obtain ⟨-, e', he', hbest'⟩ := (bestContender_iff answers).mp hbest
    rw [he] at he'
    exact Option.some.inj he' ▸ hbest'

theorem of_candidate (he : candidate py origin (t, a) = some e) :
    normalizeUrl py a.value.toList = some e.value ∧ a.id = e.owner := by
  obtain ⟨normalized, -, hnormalized, rfl⟩ := candidate_eq_some.mp he
  exact ⟨hnormalized, rfl⟩

/-- The values of the best entries. -/
theorem best_value_iff (answers : Answers inv collate targetId) {v : List Char} :
    (∃ e, Best ((visits answers).filterMap (candidate py origin)) e ∧ e.value = v) ↔
      ∃ t a, BestContender py inv collate targetId origin t a ∧
        normalizeUrl py a.value.toList = some v := by
  constructor
  · rintro ⟨e, hbest, rfl⟩
    obtain ⟨t, a, hcontender, he⟩ := best_iff.mp hbest
    exact ⟨t, a, hcontender, (of_candidate he).1⟩
  · rintro ⟨t, a, hcontender, hvalue⟩
    obtain ⟨-, e, he, hbest⟩ := (bestContender_iff answers).mp hcontender
    exact ⟨e, hbest, Option.some.inj ((of_candidate he).1.symm.trans hvalue)⟩

/-- An origin is absent when no asset has it. -/
theorem originIndex_eq_none {answers : Answers inv collate targetId} :
    originIndex py answers origin = none ↔
      ∀ t a, ¬ Contender py inv collate targetId origin t a := by
  rw [originIndex_apply, Option.map_eq_none_iff, contest_eq_none, List.filterMap_eq_nil_iff]
  constructor
  · intro hnone t a hcontender
    obtain ⟨hmem, e, he⟩ := (contender_iff answers).mp hcontender
    rw [hnone _ hmem] at he
    cases he
  · rintro hno ⟨t, a⟩ hmem
    by_contra hsome
    obtain ⟨e, he⟩ := Option.ne_none_iff_exists'.mp hsome
    exact hno t a ((contender_iff answers).mpr ⟨hmem, e, he⟩)

/-- The standing behind an origin that is not absent. -/
theorem standing_of_originIndex {answers : Answers inv collate targetId} {owner : Option Uuid} :
    originIndex py answers origin = some owner ↔
      ∃ st, contest ((visits answers).filterMap (candidate py origin)) = some st ∧
        st.owner = owner := by
  rw [originIndex_apply, Option.map_eq_some_iff]

/-- An asset has the origin when the best contenders have one value. -/
theorem originIndex_owned {answers : Answers inv collate targetId} :
    (∃ id, originIndex py answers origin = some (some id)) ↔
      ∃! v, ∃ t a, BestContender py inv collate targetId origin t a ∧
        normalizeUrl py a.value.toList = some v := by
  simp only [standing_of_originIndex, ← best_value_iff answers]
  constructor
  · rintro ⟨id, st, hst, howner⟩
    exact (won_iff hst).mp (by rw [howner]; rfl)
  · intro hunique
    obtain ⟨v, e, hbest, -⟩ := hunique.exists
    rcases contest_cases ((visits answers).filterMap (candidate py origin)) with
      ⟨hnil, -⟩ | ⟨-, st, hst, -⟩
    · exact absurd (hnil ▸ hbest.1) List.not_mem_nil
    · obtain ⟨id, hid⟩ := Option.isSome_iff_exists.mp ((won_iff hst).mpr hunique)
      exact ⟨id, st, hst, hid⟩

/-- It is one of the best contenders, all of which have its value. -/
theorem originIndex_owner {answers : Answers inv collate targetId} {id : Uuid}
    (h : originIndex py answers origin = some (some id)) :
    ∃ t a, BestContender py inv collate targetId origin t a ∧ a.id = id ∧
      ∀ t' a', BestContender py inv collate targetId origin t' a' →
        normalizeUrl py a'.value.toList = normalizeUrl py a.value.toList := by
  obtain ⟨st, hst, howner⟩ := standing_of_originIndex.mp h
  obtain ⟨⟨e, hbest, hid⟩, hall⟩ := (decided_of_contest hst).owned id howner
  obtain ⟨t, a, hcontender, he⟩ := best_iff.mp hbest
  refine ⟨t, a, hcontender, (of_candidate he).2.trans hid, fun t' a' hcontender' => ?_⟩
  obtain ⟨-, e', he', hbest'⟩ := (bestContender_iff answers).mp hcontender'
  rw [(of_candidate he).1, (of_candidate he').1, hall e hbest, hall e' hbest']

/-- The entry is empty when they have two values. -/
theorem originIndex_tied {answers : Answers inv collate targetId} :
    originIndex py answers origin = some none ↔
      ∃ t a t' a', BestContender py inv collate targetId origin t a ∧
        BestContender py inv collate targetId origin t' a' ∧
        normalizeUrl py a.value.toList ≠ normalizeUrl py a'.value.toList := by
  rw [standing_of_originIndex]
  constructor
  · rintro ⟨st, hst, howner⟩
    obtain ⟨e, e', hbest, hbest', hne⟩ := (tied_iff hst).mp howner
    obtain ⟨t, a, hcontender, he⟩ := best_iff.mp hbest
    obtain ⟨t', a', hcontender', he'⟩ := best_iff.mp hbest'
    refine ⟨t, a, t', a', hcontender, hcontender', ?_⟩
    rw [(of_candidate he).1, (of_candidate he').1]
    exact fun heq => hne (Option.some.inj heq)
  · rintro ⟨t, a, t', a', hcontender, hcontender', hne⟩
    obtain ⟨-, e, he, hbest⟩ := (bestContender_iff answers).mp hcontender
    obtain ⟨-, e', he', hbest'⟩ := (bestContender_iff answers).mp hcontender'
    rw [(of_candidate he).1, (of_candidate he').1] at hne
    rcases contest_cases ((visits answers).filterMap (candidate py origin)) with
      ⟨hnil, -⟩ | ⟨-, st, hst, -⟩
    · exact absurd (hnil ▸ hbest.1) List.not_mem_nil
    · exact ⟨st, hst, (tied_iff hst).mpr
        ⟨e, e', hbest, hbest', fun heq => hne (congrArg some heq)⟩⟩

end

/-- **The index is fail-closed, and no order of the rows matters.** -/
theorem origin_index_decides (answers : Answers inv collate targetId) (origin : List Char) :
    (originIndex py answers origin = none ↔
      ∀ t a, ¬ Contender py inv collate targetId origin t a) ∧
    ((∃ id, originIndex py answers origin = some (some id)) ↔
      ∃! v, ∃ t a, BestContender py inv collate targetId origin t a ∧
        normalizeUrl py a.value.toList = some v) ∧
    (∀ id, originIndex py answers origin = some (some id) →
      ∃ t a, BestContender py inv collate targetId origin t a ∧ a.id = id ∧
        ∀ t' a', BestContender py inv collate targetId origin t' a' →
          normalizeUrl py a'.value.toList = normalizeUrl py a.value.toList) ∧
    (originIndex py answers origin = some none ↔
      ∃ t a t' a', BestContender py inv collate targetId origin t a ∧
        BestContender py inv collate targetId origin t' a' ∧
        normalizeUrl py a.value.toList ≠ normalizeUrl py a'.value.toList) :=
  ⟨originIndex_eq_none, originIndex_owned, fun _ => originIndex_owner, originIndex_tied⟩

end ScanPlatform

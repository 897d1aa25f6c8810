import ScanPlatform.Base.Json
import ScanPlatform.Remediation.Db

/-!
# The metadata of an asset

A document of what the tools have reported of an asset, with a list of the tool runs that have
observed it. A new observation is merged into the document that is stored.

* `AssetServices`: the texts of floats, and the collation of the table;
* `mergeAssetMetadata` and its parts `mergeTech`, `mergeMarks`, `mergeObservations`;
* `Tells`, **`tells_merge`**: the keys that a document tells stay when it is merged;
* `observations`, **`observations_merge`**: a merge adds the observation of a new run at the end,
  and drops the oldest ones.
-/

set_option autoImplicit false

namespace ScanPlatform

open Json

/-- What the merge of documents and the table of assets take from outside: `str()` of a float, and
the weights of the collation, which are equal when the texts compare equal. -/
structure AssetServices where
  floatText : ℤ → ℕ → String
  collate : String → String

/-! ## The merge -/

def observationsKey : String := "observations"

def maxObservations : ℕ := 20

/-- `_PROVENANCE_KEYS`. -/
def provenanceKeys : List String :=
  ["discovered_by_tool", "discovered_by_tool_version", "discovered_in_tool_run", "in_scope"]

/-- `_observation_of`. -/
def observationOf (metadata : Object) : Object :=
  let observation := provenanceKeys.filterMap fun k => (metadata.get k).map fun v => (k, v)
  if observation.isEmpty then [] else observation ++ [("provenance", .str "OBSERVED")]

/-- `str(i)` for a string or a number. -/
def itemText (svc : AssetServices) : Value → Option String
  | .str s => some s
  | .bool b => some (if b then "True" else "False")
  | .num m e => some (if e = 0 then toString m else svc.floatText m e)
  | _ => none

/-- `_as_list`. -/
def asList (svc : AssetServices) : Option Value → List String
  | some (.str s) => [s]
  | some (.arr xs) => xs.filterMap (itemText svc)
  | _ => []

/-- `_union_tech`. -/
def unionTech (svc : AssetServices) (existing incoming : Option Value) : Option (List String) :=
  let combined := asList svc existing ++ asList svc incoming
  if combined.isEmpty then none else some combined.eraseDups

/-- A list of texts. -/
def texts (l : List String) : Value := .arr (l.map .str)

section

variable (svc : AssetServices) (existing incoming : Object)

/-- The union of the technologies. -/
def mergeTech (merged : Object) : Object :=
  if existing.has "tech" || incoming.has "tech" then
    match unionTech svc (existing.get "tech") (incoming.get "tech") with
    | some union => merged.set "tech" (texts union)
    | none => merged
  else merged

/-- The union of the marks, of which those stay that mark a key of the document. -/
def mergeMarks (merged : Object) : Object :=
  if existing.has "inferred_keys" || incoming.has "inferred_keys" then
    match unionTech svc (existing.get "inferred_keys") (incoming.get "inferred_keys") with
    | some union =>
      let marks := sorted (union.filter merged.has)
      if marks.isEmpty then merged.erase "inferred_keys"
      else merged.set "inferred_keys" (texts marks)
    | none => merged
  else merged

/-- The observations of a document: those that are dictionaries. -/
def observations (doc : Object) : List Object :=
  match doc.get observationsKey with
  | some (.arr xs) => xs.filterMap fun
    | .obj o => some o
    | _ => none
  | _ => []

/-- The tool run of an observation; `None` when it has none. -/
def observedRun (o : Object) : Value := (o.get "discovered_in_tool_run").getD .null

/-- `l[-n:]`, for a positive `n`. -/
def lastOf {α : Type} (n : ℕ) (l : List α) : List α := l.drop (l.length - n)

/-- The observations of the existing document with that of the incoming one. -/
def mergeObservations : List Object :=
  let prior := observations existing
  let observation := observationOf incoming
  if observation.isEmpty then prior
  else if prior.any fun o => (observedRun o).eq (observedRun observation) then
    lastOf maxObservations prior
  else lastOf (maxObservations - 1) prior ++ [observation]

/-- `merge_asset_metadata`; a stored document that is not a dictionary is read as an empty one. -/
def mergeAssetMetadata (stored : Option Value) : Object :=
  let existing := (stored.getD .null).members
  let merged := (existing.update incoming).erase "provenance"
  let merged := mergeMarks svc existing incoming (mergeTech svc existing incoming merged)
  let observations := mergeObservations existing incoming
  if observations.isEmpty then merged
  else merged.set observationsKey (.arr (observations.map .obj))

end

/-! ## Keys -/

section

variable {svc : AssetServices} {existing incoming merged doc : Object} {key : String}

/-- The document tells the key: `provenance` belongs to the observations, and `inferred_keys` has to
mark a key of the document. -/
def Tells (svc : AssetServices) (doc : Object) (key : String) : Prop :=
  doc.has key ∧ key ≠ "provenance" ∧ (key = "inferred_keys" →
    ∃ mark ∈ asList svc (doc.get "inferred_keys"), doc.has mark ∧ mark ≠ "provenance")

theorem asList_texts (l : List String) : asList svc (some (texts l)) = l := by
  show (l.map Value.str).filterMap (itemText svc) = l
  rw [List.filterMap_map]
  exact List.filterMap_some

/-- The union has the entries of both. -/
theorem mem_unionTech {v w : Option Value} {entry : String}
    (h : entry ∈ asList svc v ∨ entry ∈ asList svc w) :
    ∃ union, unionTech svc v w = some union ∧ entry ∈ union := by
  have hmem : entry ∈ asList svc v ++ asList svc w := List.mem_append.mpr h
  unfold unionTech
  rw [if_neg (by simpa using List.ne_nil_of_mem hmem)]
  exact ⟨_, rfl, List.mem_eraseDups.mpr hmem⟩

theorem has_mergeTech (h : merged.has key) : (mergeTech svc existing incoming merged).has key := by
  unfold mergeTech
  split_ifs
  · split
    · simp [has_set, h]
    · exact h
  · exact h

theorem has_mergeMarks (h : merged.has key) (hne : key ≠ "inferred_keys") :
    (mergeMarks svc existing incoming merged).has key := by
  unfold mergeMarks
  split_ifs
  · split
    · dsimp only
      split_ifs
      · simp [has_erase, h, hne]
      · simp [has_set, h]
    · exact h
  · exact h

/-- A mark of a key of the document stays. -/
theorem mergeMarks_mark {mark : String} (hmark : mark ∈ asList svc (existing.get "inferred_keys") ∨
      mark ∈ asList svc (incoming.get "inferred_keys")) (hkey : merged.has mark) :
    (mergeMarks svc existing incoming merged).has "inferred_keys" ∧
      mark ∈ asList svc ((mergeMarks svc existing incoming merged).get "inferred_keys") := by
  have hhas : (existing.has "inferred_keys" || incoming.has "inferred_keys") = true := by
    have hsome : ∀ {v : Option Value}, mark ∈ asList svc v → v.isSome = true := by
      intro v hv
      cases v with
      | none => cases hv
      | some v => rfl
    rw [Bool.or_eq_true]
    exact hmark.imp hsome hsome
  obtain ⟨union, hunion, hmem⟩ := mem_unionTech hmark
  have hsorted : mark ∈ sorted (union.filter merged.has) := by
    rw [sorted, List.mem_mergeSort]
    exact List.mem_filter.mpr ⟨hmem, hkey⟩
  unfold mergeMarks
  rw [if_pos hhas, hunion]
  dsimp only
  rw [if_neg (by simpa using List.ne_nil_of_mem hsorted)]
  refine ⟨by simp [has_set], ?_⟩
  rw [get_set_self, asList_texts]
  exact hsorted

variable {stored : Option Value}

/-- The list of the observations is written last, under a key of its own. -/
theorem get_mergeAssetMetadata (h : key ≠ observationsKey) :
    (mergeAssetMetadata svc incoming stored).get key =
      (mergeMarks svc (stored.getD .null).members incoming
        (mergeTech svc (stored.getD .null).members incoming
          (((stored.getD .null).members.update incoming).erase "provenance"))).get key := by
  unfold mergeAssetMetadata
  dsimp only
  split_ifs
  · rfl
  · exact get_set_of_ne _ _ h

theorem has_mergeAssetMetadata (h : (stored.getD .null).members.has key ∨ incoming.has key)
    (hprovenance : key ≠ "provenance") (hmarks : key ≠ "inferred_keys") :
    (mergeAssetMetadata svc incoming stored).has key := by
  have hkey : (((stored.getD .null).members.update incoming).erase "provenance").has key := by
    rw [has_erase, has_update]
    simpa [hprovenance] using h.symm
  have htech := @has_mergeTech svc (stored.getD .null).members incoming _ key hkey
  have hmerged := @has_mergeMarks svc (stored.getD .null).members incoming _ key htech hmarks
  unfold mergeAssetMetadata
  dsimp only
  split_ifs
  · exact hmerged
  · rw [has_set, hmerged, Bool.or_true]

/-- **The keys that the documents tell stay** when one is merged into the other. -/
theorem tells_merge (h : Tells svc (stored.getD .null).members key ∨ Tells svc incoming key) :
    Tells svc (mergeAssetMetadata svc incoming stored) key := by
  have hkey : (stored.getD .null).members.has key ∨ incoming.has key :=
    h.imp (fun h => h.1) fun h => h.1
  have hprovenance : key ≠ "provenance" := h.elim (fun h => h.2.1) fun h => h.2.1
  by_cases hmarks : key = "inferred_keys"
  · subst hmarks
    obtain ⟨mark, hmark, hhas, hne⟩ : ∃ mark,
        (mark ∈ asList svc ((stored.getD .null).members.get "inferred_keys") ∨
          mark ∈ asList svc (incoming.get "inferred_keys")) ∧
        ((stored.getD .null).members.has mark ∨ incoming.has mark) ∧ mark ≠ "provenance" := by
      rcases h with ⟨-, -, h⟩ | ⟨-, -, h⟩
      · obtain ⟨mark, hmark, hhas, hne⟩ := h rfl
        exact ⟨mark, .inl hmark, .inl hhas, hne⟩
      · obtain ⟨mark, hmark, hhas, hne⟩ := h rfl
        exact ⟨mark, .inr hmark, .inr hhas, hne⟩
    have hmerged : (((stored.getD .null).members.update incoming).erase "provenance").has mark := by
      rw [has_erase, has_update]
      simpa [hne] using hhas.symm
    have htech := @has_mergeTech svc (stored.getD .null).members incoming _ mark hmerged
    obtain ⟨hin, hstays⟩ := mergeMarks_mark hmark htech
    have hget := @get_mergeAssetMetadata svc incoming "inferred_keys" stored (by decide)
    refine ⟨?_, hprovenance, fun _ => ⟨mark, by rw [hget]; exact hstays, ?_, hne⟩⟩
    · rw [Object.has, hget]
      exact hin
    · by_cases hself : mark = "inferred_keys"
      · rw [hself, Object.has, hget]
        exact hin
      · exact has_mergeAssetMetadata hhas hne hself
  · exact ⟨has_mergeAssetMetadata hkey hprovenance hmarks, hprovenance,
      fun heq => absurd heq hmarks⟩

/-! ## Observations -/

/-- The tool run that a document is stamped with, or that an observation tells. -/
def toolRun (doc : Object) : Option String :=
  match doc.get "discovered_in_tool_run" with
  | some (.str run) => some run
  | _ => none

theorem toolRun_eq_some {run : String} :
    toolRun doc = some run ↔ doc.get "discovered_in_tool_run" = some (.str run) := by
  unfold toolRun
  constructor
  · intro h
    split at h
    · next hget => rw [hget, Option.some.inj h]
    · cases h
  · intro h
    rw [h]

/-- The observation of a stamped document is of its run. -/
theorem toolRun_observationOf {run : String} (h : toolRun incoming = some run) :
    toolRun (observationOf incoming) = some run := by
  rw [toolRun_eq_some]
  have hget := (@get_filterMap provenanceKeys incoming "discovered_in_tool_run"
    (by decide)).trans (toolRun_eq_some.mp h)
  unfold observationOf
  dsimp only
  split_ifs with hempty
  · rw [List.isEmpty_iff.mp hempty] at hget
    cases hget
  · unfold Object.get at hget ⊢
    rw [List.lookup_append, hget]
    rfl

/-- The runs of observations are compared as values. -/
theorem observedRun_eq_str {run : String} :
    observedRun doc = .str run ↔ toolRun doc = some run := by
  rw [toolRun_eq_some, observedRun]
  cases doc.get "discovered_in_tool_run" with
  | none => simp
  | some v => simp

/-- The observations that are written are read. -/
theorem observations_set (l : List Object) :
    observations (doc.set observationsKey (.arr (l.map .obj))) = l := by
  unfold observations
  rw [get_set_self]
  dsimp only
  rw [List.filterMap_map]
  exact List.filterMap_some

/-- **A merge adds the observation of a new run** at the end, and drops the oldest ones. -/
theorem observations_merge {run : String} (hrun : toolRun incoming = some run)
    (hnew : ∀ o ∈ observations (stored.getD .null).members, toolRun o ≠ some run) :
    observations (mergeAssetMetadata svc incoming stored) =
      lastOf (maxObservations - 1) (observations (stored.getD .null).members) ++
        [observationOf incoming] := by
  have hobservation : (observationOf incoming).isEmpty = false := by
    have hget := toolRun_observationOf hrun
    cases hempty : observationOf incoming with
    | nil =>
      rw [hempty] at hget
      cases hget
    | cons _ _ => rfl
  have hobservations : mergeObservations (stored.getD .null).members incoming =
      lastOf (maxObservations - 1) (observations (stored.getD .null).members) ++
        [observationOf incoming] := by
    unfold mergeObservations
    dsimp only
    rw [hobservation, if_neg Bool.false_ne_true, if_neg]
    rw [List.any_eq_true]
    rintro ⟨o, ho, heq⟩
    rw [observedRun_eq_str.mpr (toolRun_observationOf hrun), eq_str_iff, observedRun_eq_str] at heq
    exact hnew o ho heq
  unfold mergeAssetMetadata
  dsimp only
  rw [hobservations, if_neg (by simp), observations_set]

end

end ScanPlatform

import ScanPlatform.Assets.Metadata
import ScanPlatform.Base.Rows
import ScanPlatform.Base.Sessions
import ScanPlatform.Remediation.Service

/-!
# Assets that several tools observe

A call of `upsert_asset` reads the document of an asset, merges its own into it, and writes the
result with `INSERT … ON DUPLICATE KEY UPDATE`.

* `Asset`, `UpsertCall`, `upsertAsset`: the rows, and the call;
* `upserts`, `DistinctRuns`, `KeepsObservations`: the calls on an asset that have committed, and
  what their documents leave in its row;
* `FindsRead`, `run_document`: the document when every write finds what it has read;
* `observations_foldl`, **`keeps_observations`**: no observation is lost then;
  `loses_observation` is a run in which one is.
-/

set_option autoImplicit false

namespace ScanPlatform

open CondMachine Json Sessions

/-! ## Rows and calls -/

structure Asset where
  projectId : Uuid
  targetId : Uuid
  assetType : String
  value : String
  metadata : Value
  firstSeen : ℤ
  lastSeen : ℤ

structure AssetDb where
  assets : List Asset

abbrev AssetTxn := Txn Moment AssetDb Fault

abbrev AssetWrite := Write Moment AssetDb Fault

/-- `uq_assets_target_type_value`: types compare as the collation does, and values by their hash. -/
abbrev AssetKey := Uuid × String × String

def Asset.key (svc : AssetServices) (a : Asset) : AssetKey :=
  (a.targetId, svc.collate a.assetType, a.value)

structure UpsertCall where
  projectId : Uuid
  targetId : Uuid
  assetType : String
  value : String
  metadata : Object

def UpsertCall.key (svc : AssetServices) (call : UpsertCall) : AssetKey :=
  (call.targetId, svc.collate call.assetType, call.value)

def maxAssetValueLength : ℕ := 2048

/-- `VARCHAR(32)`. -/
def maxAssetTypeLength : ℕ := 32

section

variable (svc : AssetServices)

/-- The statement that reads the document, and `scalar_one_or_none`. -/
def findMetadata (call : UpsertCall) (db : AssetDb) : Except Fault (Option Value) :=
  match db.assets.filter fun a => a.projectId = call.projectId ∧ a.targetId = call.targetId ∧
      svc.collate a.assetType = svc.collate call.assetType ∧
      svc.collate a.value = svc.collate call.value with
  | [] => .ok none
  | [a] => .ok (some a.metadata)
  | _ :: _ :: _ => .error (.raised "MultipleResultsFound")

/-- What `upsert_asset` writes, for a document that it has read. -/
def UpsertCall.write (call : UpsertCall) (now : ℤ) (stored : Option Value) : AssetWrite :=
  fun _ db =>
    let metadata := Value.obj (mergeAssetMetadata svc call.metadata stored)
    if maxAssetTypeLength < call.assetType.length then .error (.raised "DataError")
    else if (Rows.row (Asset.key svc) db.assets (call.key svc)).isSome then
      .ok ⟨db.assets.map fun a =>
        if a.key svc = call.key svc then { a with lastSeen := now, metadata } else a⟩
    else
      .ok ⟨db.assets ++ [⟨call.projectId, call.targetId, call.assetType, call.value, metadata, now,
        now⟩]⟩

/-- `upsert_asset`, up to the commit of its caller: the row stays locked until then. -/
def upsertAsset (call : UpsertCall) : AssetTxn AssetWrite := do
  raiseIf (maxAssetValueLength < call.value.length) (.raised "AssetValueTooLong")
  let (now, stored) ← query fun moment db => (findMetadata svc call db).map fun stored =>
    (moment.now, stored)
  return call.write svc now stored

abbrev AssetSystem := System UpsertCall Moment AssetDb Fault

/-- Nobody else writes assets. -/
abbrev AssetStep := Action UpsertCall Moment Empty

def assetStep : AssetStep → AssetSystem → Option AssetSystem :=
  act (upsertAsset svc) fun e _ => e.elim

/-! ## What the calls leave in the row -/

def AssetDb.asset (db : AssetDb) (k : AssetKey) : Option Asset :=
  Rows.row (Asset.key svc) db.assets k

/-- The document of an asset. -/
def AssetDb.document (db : AssetDb) (k : AssetKey) : Option Value :=
  (db.asset svc k).map (·.metadata)

/-- The call that the step commits, when it is on the asset. -/
def upserted (k : AssetKey) (S : AssetSystem) : AssetStep → Option UpsertCall
  | .advance n moment => match S.sessions n with
    | some ⟨call, .ok write⟩ =>
      if call.key svc = k ∧ (write moment S.db).isOk then some call else none
    | _ => none
  | .call _ _ | .drop _ | .other _ => none

/-- The calls on an asset that a run commits. -/
def upserts (k : AssetKey) (S : AssetSystem) (σ : List AssetStep) : List UpsertCall :=
  events (assetStep svc) (upserted svc k) S σ

/-- The calls are stamped with distinct tool runs, which the row does not know yet, and they are no
more than the observations that are kept. -/
structure DistinctRuns (k : AssetKey) (S : AssetSystem) (σ : List AssetStep) : Prop where
  stamped : ∀ call ∈ upserts svc k S σ, (toolRun call.metadata).isSome
  distinct : ((upserts svc k S σ).map fun call => toolRun call.metadata).Nodup
  fresh : ∀ call ∈ upserts svc k S σ, ∀ doc ∈ S.db.document svc k,
    ∀ o ∈ observations doc.members, toolRun o ≠ toolRun call.metadata
  few : (upserts svc k S σ).length ≤ maxObservations

/-- The row has one observation of the tool run of each call that has committed, and every key that
its document tells. -/
def KeepsObservations (k : AssetKey) (S : AssetSystem) (σ : List AssetStep) : Prop :=
  ∀ call ∈ upserts svc k S σ, ∃ doc : Object,
    (run (assetStep svc) S σ).db.document svc k = some (.obj doc) ∧
    (observations doc).countP (fun o => toolRun o = toolRun call.metadata) = 1 ∧
    ∀ key, Tells svc call.metadata key → doc.has key

/-- A commit on the asset finds the document that it has read. -/
def FindsRead (k : AssetKey) (S : AssetSystem) : AssetStep → Prop
  | .advance n _ => ∀ call write, S.sessions n = some ⟨call, .ok write⟩ → call.key svc = k →
    ∃ now stored, write = call.write svc now stored ∧ S.db.document svc k = stored
  | .call _ _ | .drop _ | .other _ => True

end

/-! ## The document of a run -/

section

variable {svc : AssetServices} {db db' : AssetDb} {S S' : AssetSystem} {a : AssetStep}
  {k : AssetKey} {call : UpsertCall} {now : ℤ} {stored : Option Value} {moment : Moment}

/-- The document of the asset is replaced, and no other one. -/
theorem UpsertCall.write_document (h : call.write svc now stored moment db = .ok db')
    (k : AssetKey) : db'.document svc k =
      if call.key svc = k then some (.obj (mergeAssetMetadata svc call.metadata stored))
      else db.document svc k := by
  unfold UpsertCall.write at h
  dsimp only at h
  split_ifs at h with _ hrow
  · cases h
    unfold AssetDb.document AssetDb.asset
    dsimp only
    rw [Rows.row_map (fun a => by split_ifs <;> rfl)]
    split_ifs with hk
    · subst hk
      obtain ⟨row, hrow⟩ := Option.isSome_iff_exists.mp hrow
      have hkey : row.key svc = call.key svc := Rows.row_key hrow
      rw [hrow, Option.map_some, Option.map_some, if_pos hkey]
    · cases hrow' : Rows.row (Asset.key svc) db.assets k with
      | none => rfl
      | some row =>
        have hkey : row.key svc = k := Rows.row_key hrow'
        rw [Option.map_some, Option.map_some, if_neg fun heq => hk (heq.symm.trans hkey)]
        rfl
  · cases h
    unfold AssetDb.document AssetDb.asset
    dsimp only
    rw [Rows.row_append]
    split_ifs with hkey hk hk
    · rw [← hk, Option.not_isSome_iff_eq_none.mp hrow]
      rfl
    · exact absurd hkey hk
    · exact absurd hk hkey
    · rw [Option.or_none]

/-- The sessions are bound to write a document merged into another one. -/
abbrev UpsertsBound (svc : AssetServices) (S : AssetSystem) : Prop :=
  Sessions.Bound (fun _ _ _ => True) (fun _ => True)
    (fun call write _ => ∃ now stored, write = call.write svc now stored) S

theorem upsertAsset_bound (call : UpsertCall) (db : AssetDb) :
    (upsertAsset svc call).Ensures (fun _ _ => True) (fun _ => True)
      (fun write _ => ∃ now stored, write = call.write svc now stored) db := by
  unfold upsertAsset
  simp only [ensures_bind, ensures_raiseIf, ensures_query, ensures_pure]
  exact fun _ _ _ _ _ read _ => ⟨read.1, read.2, rfl⟩

theorem UpsertsBound.step (hS : UpsertsBound svc S) (h : assetStep svc a S = some S') :
    UpsertsBound svc S' :=
  Sessions.Bound.act hS trivial (fun _ _ _ => trivial) (fun _ _ _ _ _ _ => trivial)
    (fun _ _ _ _ hwrite _ => hwrite) (fun _ call _ => upsertAsset_bound call S.db)
    (fun _ _ _ _ _ _ _ _ _ _ _ _ => trivial) (fun e _ _ _ _ _ _ => e.elim) h

/-- The document of an asset after a call. -/
def merged (svc : AssetServices) (stored : Option Value) (call : UpsertCall) : Option Value :=
  some (.obj (mergeAssetMetadata svc call.metadata stored))

/-- **A step merges the document of the call** that it commits, when this finds what it has read. -/
theorem next_document (hS : UpsertsBound svc S) (hread : FindsRead svc k S a) :
    (next (assetStep svc) S a).db.document svc k =
      (upserted svc k S a).toList.foldl (merged svc) (S.db.document svc k) := by
  cases a with
  | advance n moment =>
    cases hn : S.sessions n with
    | none => simp [next, assetStep, act, upserted, hn]
    | some session =>
      obtain ⟨call, txn⟩ := session
      cases txn with
      | read _ => simp [next, assetStep, act, upserted, hn]
      | error _ => simp [next, assetStep, act, upserted, hn]
      | ok write =>
        cases hw : write moment S.db with
        | error e =>
          simp [next, assetStep, act, upserted, hn, hw, Except.toOption, Except.isOk,
            Except.toBool]
        | ok db' =>
          have hdb : (next (assetStep svc) S (.advance n moment)).db = db' := next_of_commit hn hw
          obtain ⟨now, stored, rfl⟩ : ∃ now stored, write = call.write svc now stored :=
            hS n call _ hn
          rw [hdb]
          by_cases hk : call.key svc = k
          · -- what is written is made from the document of the row
            obtain ⟨now', stored', hwrite, hstored⟩ := hread call _ hn hk
            rw [hwrite] at hw
            have hup : upserted svc k S (.advance n moment) = some call := by
              simp [upserted, hn, hk, hwrite, hw, Except.isOk, Except.toBool]
            rw [hup, call.write_document hw, if_pos hk, hstored]
            rfl
          · have hup : upserted svc k S (.advance n moment) = none := by
              simp [upserted, hn, hk]
            rw [hup, call.write_document hw, if_neg hk]
            rfl
  | call n call =>
    by_cases hn : (S.sessions n).isNone <;> simp [next, assetStep, act, upserted, hn]
  | drop n => rfl
  | other e => exact e.elim

/-- **The document after a run** in which every commit finds what it has read: those of the calls,
merged one after the other. -/
theorem run_document (hS : UpsertsBound svc S) {σ : List AssetStep}
    (h : Along (assetStep svc) (FindsRead svc k) S σ) :
    (run (assetStep svc) S σ).db.document svc k =
      (upserts svc k S σ).foldl (merged svc) (S.db.document svc k) :=
  run_events (I := UpsertsBound svc) (p := fun S => S.db.document svc k)
    (fun _ _ _ hS => hS.step) (fun _ _ hS hread => next_document hS hread) hS h

end

/-! ## Documents merged one after the other -/

section

variable {svc : AssetServices} {stored : Option Value}

/-- The observations of the document of an asset. -/
def storedObservations (stored : Option Value) : List Object :=
  observations (stored.getD .null).members

/-- What is appended is kept, and the oldest go. -/
theorem lastOf_append {α : Type} {n : ℕ} {l l' : List α} (h : l'.length ≤ n) :
    ∃ rest, rest <:+ l ∧ lastOf n (l ++ l') = rest ++ l' := by
  refine ⟨l.drop (l.length + l'.length - n), List.drop_suffix _ _, ?_⟩
  unfold lastOf
  rw [List.length_append, List.drop_append_of_le_length (by omega)]

/-- **The observations of all the documents are kept**, and after them those of the stored one that
still find room. -/
theorem observations_foldl {calls : List UpsertCall}
    (hstamped : ∀ call ∈ calls, (toolRun call.metadata).isSome)
    (hdistinct : (calls.map fun call => toolRun call.metadata).Nodup)
    (hfresh : ∀ call ∈ calls, ∀ o ∈ storedObservations stored, toolRun o ≠ toolRun call.metadata)
    (hfew : calls.length ≤ maxObservations) :
    ∃ rest, (∀ o ∈ rest, o ∈ storedObservations stored) ∧
      storedObservations (calls.foldl (merged svc) stored) =
        rest ++ calls.map fun call => observationOf call.metadata := by
  induction calls using List.reverseRecOn with
  | nil => exact ⟨storedObservations stored, fun _ h => h, by simp⟩
  | append_singleton calls call ih =>
    rw [List.map_append, List.map_singleton, List.nodup_append] at hdistinct
    rw [List.length_append, List.length_singleton] at hfew
    obtain ⟨rest, hrest, hobservations⟩ := ih
      (fun c hc => hstamped c (List.mem_append_left _ hc)) hdistinct.1
      (fun c hc => hfresh c (List.mem_append_left _ hc)) (by omega)
    have hlast : call ∈ calls ++ [call] := List.mem_append_right _ (List.mem_singleton_self _)
    obtain ⟨run, hrun⟩ := Option.isSome_iff_exists.mp (hstamped call hlast)
    have hnew : ∀ o ∈ storedObservations (calls.foldl (merged svc) stored),
        toolRun o ≠ some run := by
      rw [hobservations, ← hrun]
      intro o ho
      rcases List.mem_append.mp ho with ho | ho
      · exact hfresh call hlast o (hrest o ho)
      · obtain ⟨c, hc, rfl⟩ := List.mem_map.mp ho
        obtain ⟨run', hrun'⟩ :=
          Option.isSome_iff_exists.mp (hstamped c (List.mem_append_left _ hc))
        rw [toolRun_observationOf hrun', ← hrun']
        exact hdistinct.2.2 _ (List.mem_map_of_mem hc) _ (List.mem_singleton_self _)
    have hmerge : storedObservations ((calls ++ [call]).foldl (merged svc) stored) =
        lastOf (maxObservations - 1) (storedObservations (calls.foldl (merged svc) stored)) ++
          [observationOf call.metadata] := by
      rw [List.foldl_append]
      exact observations_merge hrun hnew
    have hroom : (calls.map fun call => observationOf call.metadata).length ≤
        maxObservations - 1 := by
      rw [List.length_map]
      omega
    obtain ⟨rest', hsuffix, hlastOf⟩ := lastOf_append (l := rest) hroom
    refine ⟨rest', fun o ho => hrest o (hsuffix.subset ho), ?_⟩
    rw [hmerge, hobservations, hlastOf, List.map_append, List.map_singleton, List.append_assoc]

/-- **The keys of all the documents are kept.** -/
theorem tells_foldl {calls : List UpsertCall} {call : UpsertCall} {key : String}
    (hcall : call ∈ calls) (hkey : Tells svc call.metadata key) :
    Tells svc ((calls.foldl (merged svc) stored).getD .null).members key := by
  induction calls using List.reverseRecOn with
  | nil => cases hcall
  | append_singleton calls call' ih =>
    rw [List.foldl_append]
    refine tells_merge ?_
    rcases List.mem_append.mp hcall with hcall | hcall
    · exact .inl (ih hcall)
    · rw [List.mem_singleton] at hcall
      exact .inr (hcall ▸ hkey)

end

/-! ## Runs -/

/-- **No observation is lost** in a run in which every commit finds the document that it has
read. -/
theorem keeps_observations (svc : AssetServices) {k : AssetKey} {S : AssetSystem}
    (hS : ∀ n, S.sessions n = none) {σ : List AssetStep} (hruns : DistinctRuns svc k S σ)
    (h : Along (assetStep svc) (FindsRead svc k) S σ) : KeepsObservations svc k S σ := by
  have hbound : UpsertsBound svc S := by
    intro n call txn hn
    rw [hS n] at hn
    cases hn
  have hdocument := run_document hbound h
  have hfresh : ∀ call ∈ upserts svc k S σ, ∀ o ∈ storedObservations (S.db.document svc k),
      toolRun o ≠ toolRun call.metadata := by
    intro call hcall o ho
    cases hstored : S.db.document svc k with
    | none =>
      rw [hstored] at ho
      cases ho
    | some doc =>
      rw [hstored] at ho
      exact hruns.fresh call hcall doc hstored o ho
  obtain ⟨rest, hrest, hobservations⟩ :=
    @observations_foldl svc _ _ hruns.stamped hruns.distinct hfresh hruns.few
  rw [← hdocument] at hobservations
  intro call hcall
  obtain ⟨doc, hdoc⟩ : ∃ doc : Object,
      (run (assetStep svc) S σ).db.document svc k = some (.obj doc) := by
    rw [hdocument]
    rcases List.eq_nil_or_concat (upserts svc k S σ) with hnil | ⟨calls, last, hlast⟩
    · rw [hnil] at hcall
      cases hcall
    · rw [hlast, List.concat_eq_append, List.foldl_append]
      exact ⟨_, rfl⟩
  refine ⟨doc, hdoc, ?_, fun key hkey => ?_⟩
  · rw [hdoc] at hobservations
    have hnone : rest.countP (fun o => toolRun o = toolRun call.metadata) = 0 := by
      rw [List.countP_eq_zero]
      exact fun o ho => by simpa using hfresh call hcall o (hrest o ho)
    have hone := List.count_eq_one_of_mem hruns.distinct (List.mem_map_of_mem hcall)
    rw [show observations doc = _ from hobservations, List.countP_append, hnone, Nat.zero_add,
      ← hone, List.count, List.countP_map, List.countP_map]
    refine List.countP_congr fun c hc => ?_
    obtain ⟨run, hrun⟩ := Option.isSome_iff_exists.mp (hruns.stamped c hc)
    simp [toolRun_observationOf hrun, hrun]
  · have htells := @tells_foldl svc (S.db.document svc k) _ call key hcall hkey
    rw [← hdocument, hdoc] at htells
    exact htells.1

/-- A session that commits what it has read. -/
theorem findsRead_of_eq {svc : AssetServices} {k : AssetKey} {S : AssetSystem} {n : ℕ}
    {moment : Moment} {call : UpsertCall} {now : ℤ} {stored : Option Value}
    (hn : S.sessions n = some ⟨call, .ok (call.write svc now stored)⟩)
    (hstored : S.db.document svc k = stored) : FindsRead svc k S (.advance n moment) := by
  intro call' write hn' _
  rw [hn] at hn'
  cases hn'
  exact ⟨now, stored, rfl, hstored⟩

/-- A session that does not commit. -/
theorem findsRead_of_read {svc : AssetServices} {k : AssetKey} {S : AssetSystem} {n : ℕ}
    {moment : Moment} {call : UpsertCall} {next : Moment → AssetDb → AssetTxn AssetWrite}
    (hn : S.sessions n = some ⟨call, .read next⟩) : FindsRead svc k S (.advance n moment) := by
  intro call' write hn' _
  rw [hn] at hn'
  cases hn'

/-- Texts without floats, and values without letters that differ in case. -/
def labAssetServices : AssetServices := ⟨fun _ _ => "", id⟩

/-- A tool reports a service. -/
def labUpsert (tool run : String) : UpsertCall where
  projectId := 2
  targetId := 3
  assetType := "http_service"
  value := "https://shop.example/"
  metadata := [(tool, .bool true), ("in_scope", .bool true), ("discovered_by_tool", .str tool),
    ("discovered_by_tool_version", .str "1"), ("discovered_in_tool_run", .str run)]

def labAssetKey : AssetKey := (3, "http_service", "https://shop.example/")

def noAssets : AssetSystem := ⟨⟨[]⟩, fun _ => none⟩

/-- Two tools, one after the other. -/
def labTurns : List AssetStep :=
  [.call 0 (labUpsert "httpx" "r1"), .advance 0 ⟨10, 0⟩, .advance 0 ⟨11, 0⟩,
    .call 1 (labUpsert "whatweb" "r2"), .advance 1 ⟨20, 0⟩, .advance 1 ⟨21, 0⟩]

theorem keeps_observations_turns : KeepsObservations labAssetServices labAssetKey noAssets
    labTurns := by
  have hupserts : upserts labAssetServices labAssetKey noAssets labTurns =
      [labUpsert "httpx" "r1", labUpsert "whatweb" "r2"] := rfl
  refine keeps_observations labAssetServices (fun _ => rfl) ⟨?_, ?_, ?_, ?_⟩ ?_
  · rw [hupserts]
    decide
  · rw [hupserts]
    decide
  · intro _ _ doc hdoc
    cases hdoc
  · rw [hupserts]
    decide
  · refine .cons trivial (.cons (findsRead_of_read rfl) (.cons (findsRead_of_eq rfl rfl) ?_))
    refine .cons trivial (.cons (findsRead_of_read rfl) (.cons (findsRead_of_eq rfl rfl) ?_))
    exact along_nil _ _

/-- Both tools find no row. -/
def labOverlap : List AssetStep :=
  [.call 0 (labUpsert "httpx" "r1"), .call 1 (labUpsert "whatweb" "r2"), .advance 0 ⟨10, 0⟩,
    .advance 1 ⟨10, 0⟩, .advance 0 ⟨11, 0⟩, .advance 1 ⟨12, 0⟩]

/-- **An observation is lost**: the second of two first-time inserts updates the row of the first
with a document that does not have its observation. -/
theorem loses_observation : DistinctRuns labAssetServices labAssetKey noAssets labOverlap ∧
    ¬ KeepsObservations labAssetServices labAssetKey noAssets labOverlap := by
  have hupserts : upserts labAssetServices labAssetKey noAssets labOverlap =
      [labUpsert "httpx" "r1", labUpsert "whatweb" "r2"] := rfl
  refine ⟨⟨?_, ?_, ?_, ?_⟩, fun h => ?_⟩
  · rw [hupserts]
    decide
  · rw [hupserts]
    decide
  · intro _ _ doc hdoc
    cases hdoc
  · rw [hupserts]
    decide
  · obtain ⟨doc, hdoc, -, hkeys⟩ := h (labUpsert "httpx" "r1") (by rw [hupserts]; simp)
    have hkey := hkeys "httpx" ⟨by decide, by decide, by decide⟩
    have hrow : (run (assetStep labAssetServices) noAssets labOverlap).db.document labAssetServices
        labAssetKey = some (.obj (mergeAssetMetadata labAssetServices
          (labUpsert "whatweb" "r2").metadata none)) := rfl
    rw [hrow] at hdoc
    cases hdoc
    revert hkey
    decide

end ScanPlatform

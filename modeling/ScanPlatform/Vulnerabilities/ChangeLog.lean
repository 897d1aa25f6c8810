import ScanPlatform.Vulnerabilities.Revival

/-!
# The history of a finding as a change log

The history is appended to and never written again, in the order in which findings are stored.

* `FindingsDb.snapshots`, `FindingsDb.trackedAt`: the history of a finding, and its tracked fields;
* `changingCall`, `changingCalls`: the later calls of `ingest_finding` that change one of them;
* `ChangeLog`, `ChangeLog.first`, `ChangeLog.observed`: what the snapshots of a finding say;
* `IngestWrite.entries`, `history_createWrites`, `history_redetectWrites`: what ingestion records;
* `Faithful`, **`faithful_create`**, **`faithful_redetect`**, `faithful_other`, `faithful_step`:
  what one step preserves;
* **`history_faithful`**: the snapshots of every finding in every history.
-/

set_option autoImplicit false

namespace ScanPlatform

open CondMachine UnitOfWork

/-! ## Snapshots and changes -/

/-- The snapshots of a finding, in the order in which they have been taken. -/
def FindingsDb.snapshots (db : FindingsDb) (id : Uuid) : List VulnerabilityHistory :=
  db.history.filter (·.vulnerabilityId = id)

def FindingsDb.trackedAt (db : FindingsDb) (key : Uuid × String) : Option TrackedFields :=
  (db.finding key).map (·.tracked)

/-- A call of `ingest_finding` that changes a tracked field of the row that is there. -/
def changingCall (svc : IngestServices) (key : Uuid × String) (db : FindingsDb) :
    FindingsStep → Option FindingCall
  | .ingest moment call =>
    if db.trackedAt key ≠ none ∧
        (next (findingsStep svc) db (.ingest moment call)).trackedAt key ≠ db.trackedAt key then
      some call
    else none
  | _ => none

/-- The calls of `ingest_finding` in a history that change a tracked field of a row. -/
def changingCalls (svc : IngestServices) (key : Uuid × String) (σ : List FindingsStep) :
    List FindingCall :=
  events (findingsStep svc) (changingCall svc key) .empty σ

/-! ## Change logs -/

/-- The first snapshot is taken when the finding is created and one more by each call that changes
it; the last one is the finding as it is, and none repeats the one before. -/
structure ChangeLog (snapshots : List VulnerabilityHistory) (v : Vulnerability)
    (changes : List FindingCall) : Prop where
  created : ∃ first later, snapshots = first :: later ∧ first.changeReason = .created ∧
    later.map (fun entry => (entry.changeReason, entry.scanId, entry.toolRunId)) =
      changes.map fun call => (.observed, call.scanId, call.toolRunId)
  current : (snapshots.map (·.tracked)).getLast? = some v.tracked
  differ : (snapshots.map (·.tracked)).IsChain (· ≠ ·)

theorem ChangeLog.first {entry : VulnerabilityHistory} {v : Vulnerability}
    (hreason : entry.changeReason = .created) (htracked : entry.tracked = v.tracked) :
    ChangeLog [entry] v [] where
  created := ⟨entry, [], rfl, hreason, rfl⟩
  current := congrArg some htracked
  differ := List.isChain_singleton _

section

variable {snapshots : List VulnerabilityHistory} {v v' : Vulnerability}
  {changes : List FindingCall}

theorem ChangeLog.congr (h : ChangeLog snapshots v changes) (htracked : v'.tracked = v.tracked) :
    ChangeLog snapshots v' changes :=
  ⟨h.created, by rw [htracked]; exact h.current, h.differ⟩

/-- A change and its snapshot. -/
theorem ChangeLog.observed (h : ChangeLog snapshots v changes) {call : FindingCall}
    (htracked : v'.tracked ≠ v.tracked) :
    ChangeLog (snapshots ++ [call.historyEntry v' .observed]) v' (changes ++ [call]) := by
  obtain ⟨first, later, rfl, hreason, hlater⟩ := h.created
  refine ⟨⟨first, later ++ [call.historyEntry v' .observed], rfl, hreason, ?_⟩, ?_, ?_⟩
  · rw [List.map_append, hlater, List.map_append]
    rfl
  · rw [List.map_append, List.map_singleton, List.getLast?_concat]
    rfl
  · rw [List.map_append, List.map_singleton]
    refine List.isChain_append.mpr ⟨h.differ, List.isChain_singleton _, fun x hx y hy => ?_⟩
    rw [h.current, Option.mem_some_iff] at hx
    rw [List.head?_cons, Option.mem_some_iff] at hy
    rw [← hx, ← hy, FindingCall.tracked_historyEntry]
    exact htracked.symm

end

/-! ## What ingestion records -/

/-- What a write adds to the history. -/
def IngestWrite.entries : IngestWrite → List VulnerabilityHistory
  | .addHistory entry => [entry]
  | _ => []

theorem IngestWrite.history_apply (w : IngestWrite) (db : FindingsDb) :
    (w.apply db).history = db.history ++ w.entries := by
  cases w with
  | addHistory entry => rfl
  | insertRow row _ | assign id f _ | workflow c => exact (List.append_nil _).symm
  | insertLineage entry =>
    exact (congrArg Prod.snd (insertLineage_findings entry db)).trans (List.append_nil _).symm
  | linkEvidence vulnerabilityId evidenceId toolRunId =>
    exact (congrArg Prod.snd (linkEvidence_findings _ _ _ db)).trans (List.append_nil _).symm

theorem history_actAll (ws : List IngestWrite) (db : FindingsDb) :
    (actAll ws db).history = db.history ++ ws.flatMap IngestWrite.entries := by
  induction ws generalizing db with
  | nil => exact (List.append_nil _).symm
  | cons w ws ih =>
    rw [actAll_cons, ih, List.flatMap_cons, ← List.append_assoc]
    exact congrArg (· ++ _) (w.history_apply db)

section

variable {svc : IngestServices} {db db' : FindingsDb} {call : FindingCall}

theorem entries_ancestorWrites (v : Vulnerability) (search : String × String) :
    (ancestorWrites svc v search db).flatMap IngestWrite.entries = [] := by
  unfold ancestorWrites
  split
  · rfl
  · split_ifs <;> rfl

theorem entries_regressionWrites (now : ℤ) (call : RegressionCall) (db : RemediationDb) :
    (regressionWrites now call db).flatMap IngestWrite.entries = [] := by
  unfold regressionWrites
  split
  · rfl
  · split_ifs <;> rfl

variable (svc db call) in
theorem history_createWrites (id : Uuid) :
    (actAll (createWrites svc id call db) db).history =
      db.history ++ [call.historyEntry (call.row svc id) .created] := by
  rw [history_actAll]
  congr 1
  unfold createWrites
  dsimp only
  rw [List.flatMap_cons]
  cases ancestorSearch svc (call.row svc id) with
  | none => rfl
  | some search =>
    dsimp only
    rw [List.cons_append, List.flatMap_cons, List.flatMap_append, entries_ancestorWrites]
    rfl

variable (svc db call) in
theorem history_redetectWrites (now : ℤ) (v : Vulnerability) :
    (actAll (redetectWrites svc now call v db) db).history = db.history ++
      if v.tracked ≠ call.tracked svc then [call.historyEntry (call.redetect svc v) .observed]
      else [] := by
  have hchanges : (call.changes svc v).flatMap IngestWrite.entries =
      if v.tracked ≠ call.tracked svc then [call.historyEntry (call.redetect svc v) .observed]
      else [] := by
    unfold FindingCall.changes
    simp only [contentChanged_iff]
    split_ifs <;> rfl
  rw [history_actAll, ← hchanges]
  congr 1
  unfold redetectWrites
  dsimp only
  split_ifs
  · rw [List.flatMap_append, List.flatMap_append, List.append_assoc]
    cases db.projects call.projectId with
    | none => exact List.append_nil _
    | some project =>
      dsimp only [Option.elim]
      rw [entries_regressionWrites]
      exact List.append_nil _
  · rfl

/-! ## One step -/

/-- Every finding has its change log, and no other snapshots are there. -/
structure Faithful (db : FindingsDb) (changes : Uuid × String → List FindingCall) : Prop where
  keyed : db.Keyed
  owned : ∀ entry ∈ db.history, ∃ v ∈ db.vulnerabilities, v.id = entry.vulnerabilityId
  fresh : ∀ key, db.finding key = none → changes key = []
  logs : ∀ v ∈ db.vulnerabilities, ChangeLog (db.snapshots v.id) v (changes v.key)

theorem FindingsDb.snapshots_append {l : List VulnerabilityHistory}
    (h : db'.history = db.history ++ l) (id : Uuid) :
    db'.snapshots id = db.snapshots id ++ l.filter (·.vulnerabilityId = id) := by
  unfold FindingsDb.snapshots
  rw [h, List.filter_append]

theorem changingCall_of_other {a : FindingsStep} (h : ∀ moment call, a ≠ .ingest moment call)
    (key : Uuid × String) : changingCall svc key db a = none := by
  cases a with
  | ingest moment call => exact absurd rfl (h moment call)
  | _ => rfl

/-- A call that fails changes nothing. -/
theorem changingCall_of_none {a : FindingsStep} (h : findingsStep svc a db = none)
    (key : Uuid × String) : changingCall svc key db a = none := by
  cases a with
  | ingest moment call =>
    unfold changingCall
    dsimp only
    rw [next_none h, if_neg]
    exact fun hchanged => hchanged.2 rfl
  | _ => rfl

theorem changingCall_of_untracked {moment : Moment} {key : Uuid × String}
    (h : db.trackedAt key = none) : changingCall svc key db (.ingest moment call) = none :=
  if_neg fun hchanged => hchanged.1 h

theorem changingCall_of_tracked {moment : Moment} {key : Uuid × String} {t t' : TrackedFields}
    (hstep : findingsStep svc (.ingest moment call) db = some db')
    (hbefore : db.trackedAt key = some t) (hafter : db'.trackedAt key = some t') :
    changingCall svc key db (.ingest moment call) = if t' = t then none else some call := by
  unfold changingCall
  dsimp only
  rw [next_some hstep, hbefore, hafter]
  split_ifs with hchanged hsame
  · exact absurd (congrArg some hsame) hchanged.2
  · rfl
  · rfl
  · next hne => exact absurd ⟨Option.some_ne_none _, fun heq => hne (Option.some.inj heq)⟩ hchanged

variable {changes : Uuid × String → List FindingCall}

/-- **A finding that is stored for the first time.** -/
theorem faithful_create {moment : Moment} (h : Faithful db changes)
    (hstep : findingsStep svc (.ingest moment call) db = some db')
    (hnone : db.finding call.key = none) :
    Faithful db' fun key =>
      changes key ++ (changingCall svc key db (.ingest moment call)).toList := by
  have hkeyed : db'.Keyed := keyed_step h.keyed hstep
  obtain ⟨hfresh, hdb⟩ := ingest_eq_some hstep
  unfold ingestWrites at hdb
  rw [hnone] at hdb
  have hrows := rows_createWrites svc call hfresh
  have hhistory := history_createWrites svc db call moment.newId
  rw [← hdb] at hrows hhistory
  have hid : (createdRow svc moment.newId call db).id = moment.newId :=
    createdRow_kept (fun ancestor => ancestor.inherit_assigns.id) _
  have hkey : (createdRow svc moment.newId call db).key = call.key :=
    createdRow_kept (fun ancestor => ancestor.inherit_assigns.key) _
  have htracked : (createdRow svc moment.newId call db).tracked = call.tracked svc :=
    (createdRow_kept Vulnerability.tracked_inherit _).trans (call.tracked_row svc _)
  generalize createdRow svc moment.newId call db = row at *
  have hfinding : ∀ key, db'.finding key =
      (db.finding key).or (if row.key = key then some row else none) := by
    intro key
    unfold FindingsDb.finding
    rw [hrows, Rows.row_append]
  have htell : ∀ key, changingCall svc key db (.ingest moment call) = none := by
    intro key
    cases hkey : db.finding key with
    | none => exact changingCall_of_untracked (congrArg (Option.map _) hkey)
    | some v =>
      have hafter : db'.finding key = some v := by
        rw [hfinding, hkey]
        rfl
      exact (changingCall_of_tracked hstep (congrArg (Option.map _) hkey)
        (congrArg (Option.map _) hafter)).trans (if_pos rfl)
  simp only [htell, Option.toList_none, List.append_nil]
  refine ⟨hkeyed, ?_, fun key hkey => h.fresh key ?_, ?_⟩
  · intro entry hentry
    rw [hhistory, List.mem_append, List.mem_singleton] at hentry
    rcases hentry with hentry | rfl
    · obtain ⟨v, hv, hvid⟩ := h.owned entry hentry
      exact ⟨v, hrows ▸ List.mem_append_left _ hv, hvid⟩
    · exact ⟨row, hrows ▸ List.mem_append_right _ List.mem_cons_self, hid⟩
  · rw [hfinding] at hkey
    exact (Option.or_eq_none_iff.mp hkey).1
  · intro v hv
    rw [hrows, List.mem_append, List.mem_singleton] at hv
    rw [FindingsDb.snapshots_append hhistory]
    rcases hv with hv | rfl
    · have hother : (call.historyEntry (call.row svc moment.newId) .created).vulnerabilityId ≠
          v.id := (hfresh v hv).symm
      rw [List.filter_singleton, decide_eq_false hother]
      exact (List.append_nil (db.snapshots v.id)).symm ▸ h.logs v hv
    · have hempty : db.snapshots v.id = [] := by
        refine List.filter_eq_nil_iff.mpr fun entry hentry => ?_
        obtain ⟨u, hu, huid⟩ := h.owned entry hentry
        have hne := hfresh u hu
        rw [← huid, hid]
        simpa using hne
      have hown : (call.historyEntry (call.row svc moment.newId) .created).vulnerabilityId =
          v.id := hid.symm
      rw [hempty, List.filter_singleton, decide_eq_true hown, hkey, h.fresh _ hnone]
      exact .first rfl (by simp [htracked])

/-- The tracked fields before and after a finding is detected again. -/
theorem trackedAt_redetect {u v : Vulnerability} (hkeyed : db.Keyed) (hu : u ∈ db.vulnerabilities)
    (hrows : db'.vulnerabilities =
      db.vulnerabilities.map fun u => if u.id = v.id then call.redetect svc u else u) :
    db.trackedAt u.key = some u.tracked ∧
      db'.trackedAt u.key = some (if u.id = v.id then call.tracked svc else u.tracked) := by
  have hfound : db.finding u.key = some u := Rows.row_of_mem hkeyed.keys hu
  refine ⟨congrArg (Option.map _) hfound, ?_⟩
  unfold FindingsDb.trackedAt FindingsDb.finding
  rw [hrows, Rows.row_map]
  · unfold FindingsDb.finding at hfound
    rw [hfound, Option.map_some, Option.map_some]
    split_ifs
    · rw [FindingCall.tracked_redetect]
    · rfl
  · intro w
    split_ifs
    · exact (call.redetect_assigns svc).key w
    · rfl

/-- **A finding that is detected again.** -/
theorem faithful_redetect {moment : Moment} {v : Vulnerability} (h : Faithful db changes)
    (hstep : findingsStep svc (.ingest moment call) db = some db')
    (hv : db.finding call.key = some v) :
    Faithful db' fun key =>
      changes key ++ (changingCall svc key db (.ingest moment call)).toList := by
  have hkeyed : db'.Keyed := keyed_step h.keyed hstep
  have hmem : v ∈ db.vulnerabilities := Rows.mem_of_row hv
  obtain ⟨-, hdb⟩ := ingest_eq_some hstep
  unfold ingestWrites at hdb
  rw [hv] at hdb
  have hrows := rows_redetectWrites svc call db moment.now v
  have hhistory := history_redetectWrites svc db call moment.now v
  rw [← hdb] at hrows hhistory
  have hkeep : ∀ u : Vulnerability, (if u.id = v.id then call.redetect svc u else u).id = u.id ∧
      (if u.id = v.id then call.redetect svc u else u).key = u.key := by
    intro u
    split_ifs
    · exact ⟨rfl, rfl⟩
    · exact ⟨rfl, rfl⟩
  refine ⟨hkeyed, fun entry hentry => ?_, fun key hnone => ?_, fun v' hv' => ?_⟩
  · have howner : ∃ u ∈ db.vulnerabilities, u.id = entry.vulnerabilityId := by
      rw [hhistory, List.mem_append] at hentry
      rcases hentry with hentry | hentry
      · exact h.owned entry hentry
      · split_ifs at hentry
        · rw [List.mem_singleton.mp hentry]
          exact ⟨v, hmem, rfl⟩
        · cases hentry
    obtain ⟨u, hu, huid⟩ := howner
    exact ⟨_, hrows ▸ List.mem_map_of_mem hu, (hkeep u).1.trans huid⟩
  · have hbefore : db.finding key = none := by
      unfold FindingsDb.finding at hnone ⊢
      rw [hrows, Rows.row_map fun u => (hkeep u).2] at hnone
      exact Option.map_eq_none_iff.mp hnone
    rw [h.fresh key hbefore, changingCall_of_untracked (congrArg (Option.map _) hbefore)]
    rfl
  · rw [hrows] at hv'
    obtain ⟨u, hu, rfl⟩ := List.mem_map.mp hv'
    obtain ⟨hbefore, hafter⟩ := trackedAt_redetect h.keyed hu hrows
    rw [FindingsDb.snapshots_append hhistory, (hkeep u).1, (hkeep u).2,
      changingCall_of_tracked hstep hbefore hafter]
    by_cases hid : u.id = v.id
    · obtain rfl : u = v := List.inj_on_of_nodup_map h.keyed.ids hu hmem hid
      rw [if_pos rfl, if_pos rfl]
      by_cases hchanged : u.tracked = call.tracked svc
      · rw [if_pos hchanged.symm, if_neg (not_not_intro hchanged), List.filter_nil,
          List.append_nil, Option.toList_none, List.append_nil]
        exact (h.logs u hu).congr ((call.tracked_redetect svc u).trans hchanged.symm)
      · have hown : (call.historyEntry (call.redetect svc u) .observed).vulnerabilityId = u.id :=
          rfl
        rw [if_neg (Ne.symm hchanged), if_pos hchanged, List.filter_singleton,
          decide_eq_true hown]
        refine (h.logs u hu).observed fun heq => hchanged ?_
        rw [← heq, FindingCall.tracked_redetect]
    · have hother : (call.historyEntry (call.redetect svc v) .observed).vulnerabilityId ≠ u.id :=
        fun heq => hid heq.symm
      have hnone : (if v.tracked ≠ call.tracked svc then
          [call.historyEntry (call.redetect svc v) .observed] else []).filter
            (·.vulnerabilityId = u.id) = [] := by
        split_ifs
        · rw [List.filter_singleton, decide_eq_false hother]
          rfl
        · rfl
      rw [hnone, if_neg hid, if_neg hid, if_pos rfl, List.append_nil, Option.toList_none,
        List.append_nil]
      exact h.logs u hu

theorem faithful_other {f : Vulnerability → Vulnerability} (h : Faithful db changes)
    (hf : SparesRow f) (hhistory : db'.history = db.history)
    (hrows : db'.vulnerabilities = db.vulnerabilities.map f) : Faithful db' changes where
  keyed := h.keyed.of_map hf.id hf.key hrows
  owned entry hentry := by
    obtain ⟨v, hv, hid⟩ := h.owned entry (hhistory ▸ hentry)
    exact ⟨f v, hrows ▸ List.mem_map_of_mem hv, (hf.id v).trans hid⟩
  fresh key hnone := by
    refine h.fresh key ?_
    unfold FindingsDb.finding at hnone ⊢
    rw [hrows, Rows.row_map hf.key] at hnone
    exact Option.map_eq_none_iff.mp hnone
  logs v hv := by
    rw [hrows] at hv
    obtain ⟨u, hu, rfl⟩ := List.mem_map.mp hv
    unfold FindingsDb.snapshots
    rw [hf.id, hf.key, hhistory]
    exact (h.logs u hu).congr (hf.tracked u)

/-- **What one step preserves.** -/
theorem faithful_step {a : FindingsStep} (h : Faithful db changes)
    (hstep : findingsStep svc a db = some db') :
    Faithful db' fun key => changes key ++ (changingCall svc key db a).toList := by
  by_cases hingest : ∃ moment call, a = .ingest moment call
  · obtain ⟨moment, call, rfl⟩ := hingest
    cases hfound : db.finding call.key with
    | none => exact faithful_create h hstep hfound
    | some v => exact faithful_redetect h hstep hfound
  · obtain ⟨hhistory, f, hf, hrows⟩ := (rows_cases hstep).resolve_left hingest
    have hother : ∀ moment call, a ≠ .ingest moment call := fun moment call heq =>
      hingest ⟨moment, call, heq⟩
    simp only [changingCall_of_other hother, Option.toList_none, List.append_nil]
    exact faithful_other h hf hhistory hrows

theorem faithful_empty : Faithful .empty fun _ => [] where
  keyed := keyed_empty
  owned _ h := absurd h List.not_mem_nil
  fresh _ _ := rfl
  logs _ h := absurd h List.not_mem_nil

end

/-! ## Every history -/

theorem faithful_run (svc : IngestServices) (σ : List FindingsStep) :
    Faithful (run (findingsStep svc) .empty σ) fun key => changingCalls svc key σ := by
  induction σ using List.reverseRecOn with
  | nil => exact faithful_empty
  | append_singleton σ a ih =>
    have htell : ∀ key, changingCalls svc key (σ ++ [a]) = changingCalls svc key σ ++
        (changingCall svc key (run (findingsStep svc) .empty σ) a).toList := by
      intro key
      unfold changingCalls
      rw [events_append]
      exact congrArg (_ ++ ·) (List.append_nil _)
    rw [run_concat]
    simp only [htell]
    rcases next_cases (findingsStep svc) (run (findingsStep svc) .empty σ) a with h | ⟨h, hsame⟩
    · exact faithful_step ih h
    · rw [hsame]
      simp only [changingCall_of_none h, Option.toList_none, List.append_nil]
      exact ih

/-- **The history is a faithful change log.** -/
theorem history_faithful (svc : IngestServices) (σ : List FindingsStep) {v : Vulnerability}
    (hv : v ∈ (run (findingsStep svc) .empty σ).vulnerabilities) :
    ChangeLog ((run (findingsStep svc) .empty σ).snapshots v.id) v
      (changingCalls svc v.key σ) :=
  (faithful_run svc σ).logs v hv

/-- The finding is reported under another title. -/
def retitledHistory : List FindingsStep :=
  reportedHistory ++
    [.ingest ⟨3, 10⟩ { plainCall with finding := { plainFinding with title := "SQLi" } }]

theorem history_faithful_retitled :
    ChangeLog ((run (findingsStep plainServices) .empty retitledHistory).snapshots 9)
      { plainCall.row plainServices 9 with title := "SQLi" }
      (changingCalls plainServices plainCall.key retitledHistory) :=
  history_faithful plainServices retitledHistory
    (v := { plainCall.row plainServices 9 with title := "SQLi" }) List.mem_cons_self

end ScanPlatform

import Mathlib.Data.List.Dedup
import ScanPlatform.Base.Trace
import ScanPlatform.Remediation.Lasting
import ScanPlatform.Vulnerabilities.Revival

/-!
# Retests of what was found

The verdict on a retest counts the findings that the retest has seen last. Nothing compares the age
of the retest with that of the findings.

* `FindingsEvent`, `FindingsHistory`, `historyStep`: a history that remembers what has happened;
* `Seen`, **`seen_step`**: the scan of the last ingestion is the one that has seen a finding last;
* `PassesReflect`, `passes_step`: what a request that has passed says of the history;
* `PassReflects`, `RetestCurrent`, **`pass_reflects_retest_iff`**: when a pass reflects a retest of
  what was found.
-/

set_option autoImplicit false

namespace ScanPlatform

open CondMachine Sessions Trace UnitOfWork

/-! ## Histories that remember -/

inductive FindingsEvent where
  | started (scanId : Uuid)
  | ingested (row : Vulnerability)
  | requested (requestId : Uuid)

/-- What a step tells: a scan starts, a finding is stored, a verification is requested. -/
def FindingsStep.event (db' : FindingsDb) : FindingsStep → Option FindingsEvent
  | .scan id (.claim _ _) => some (.started id)
  | .ingest _ call => (db'.finding call.key).map .ingested
  | .operation (.workflow (.requestVerification _)) moment => some (.requested moment.newId)
  | _ => none

structure FindingsHistory where
  db : FindingsDb
  events : List FindingsEvent

def historyStep (svc : IngestServices) (a : FindingsStep) (h : FindingsHistory) :
    Option FindingsHistory :=
  (findingsStep svc a h.db).map fun db => ⟨db, h.events ++ (a.event db).toList⟩

def FindingsHistory.empty : FindingsHistory := ⟨.empty, []⟩

/-- A finding that counts is found in the issue. -/
def FindingsEvent.Detects (svc : IngestServices) (projectId : Uuid) (issueKey : String) :
    FindingsEvent → Prop
  | .ingested row => row.projectId = projectId ∧ row.issueKey = issueKey ∧
      isScorable svc.toRemediationServices row
  | _ => False

/-- The scan has started since the issue was last found before the request. -/
def StartedAfter (svc : IngestServices) (item : RemediationItem) (requestId scanId : Uuid)
    (events : List FindingsEvent) : Prop :=
  Answered (FindingsEvent.Detects svc item.projectId item.issueKey) (.requested requestId)
    (.started scanId) events

/-- The row that is stored under a key. -/
def FindingsEvent.stored (key : Uuid × String) : FindingsEvent → Option Vulnerability
  | .ingested row => if row.key = key then some row else none
  | _ => none

/-- The scan that has reported a finding last. -/
def lastReporter (key : Uuid × String) (events : List FindingsEvent) : Option Uuid :=
  (last (FindingsEvent.stored key) events).bind (·.lastSeenScanId)

/-! ## Which scan has seen a finding last -/

/-- `last_seen_scan_id` names the scan that has reported the finding last. -/
def Seen (h : FindingsHistory) : Prop :=
  ∀ v ∈ h.db.vulnerabilities, v.lastSeenScanId = lastReporter v.key h.events

section

variable {svc : IngestServices} {a : FindingsStep} {h h' : FindingsHistory}

theorem historyStep_eq_some (hstep : historyStep svc a h = some h') :
    findingsStep svc a h.db = some h'.db ∧
      h'.events = h.events ++ (a.event h'.db).toList := by
  obtain ⟨db, hdb, rfl⟩ := Option.map_eq_some_iff.mp hstep
  exact ⟨hdb, rfl⟩

/-- Only ingestion tells of a row. -/
theorem lastReporter_event (ha : ∀ moment call, a ≠ .ingest moment call) (key : Uuid × String)
    (db' : FindingsDb) (events : List FindingsEvent) :
    lastReporter key (events ++ (a.event db').toList) = lastReporter key events := by
  have hnone : ∀ e, a.event db' = some e → e.stored key = none := by
    intro e he
    unfold FindingsStep.event at he
    split at he
    · cases he
      rfl
    · exact absurd rfl (ha _ _)
    · cases he
      rfl
    · cases he
  cases he : a.event db' with
  | none => exact congrArg (lastReporter key) (List.append_nil events)
  | some e =>
    unfold lastReporter
    rw [Option.toList_some, last_concat, hnone e he, Option.none_or]

/-- **`last_seen_scan_id` stays the scan of the last report.** -/
theorem seen_step (hkeyed : h.db.Keyed) (hseen : Seen h)
    (hstep : historyStep svc a h = some h') : Seen h' := by
  obtain ⟨hdb, hevents⟩ := historyStep_eq_some hstep
  intro u hu
  by_cases ha : ∃ moment call, a = .ingest moment call
  · obtain ⟨moment, call, rfl⟩ := ha
    obtain ⟨hfresh, heq⟩ := ingest_eq_some hdb
    obtain ⟨row, hstored⟩ := stored_of_ingestWrites svc call hkeyed hfresh
    rw [← heq] at hstored
    have hevent : (FindingsStep.ingest moment call).event h'.db = some (.ingested row) :=
      congrArg (Option.map FindingsEvent.ingested) hstored.finding
    have hkey : row.key = call.key := Rows.row_key hstored.finding
    rw [hevents, hevent, Option.toList_some]
    unfold lastReporter
    rw [last_concat]
    rcases hstored.others u hu with rfl | ⟨hold, hne⟩
    · simp [FindingsEvent.stored]
    · rw [FindingsEvent.stored, if_neg (hkey ▸ hne.symm), Option.none_or]
      exact hseen u hold
  · have hother : ∀ moment call, a ≠ .ingest moment call := fun moment call heq =>
      ha ⟨moment, call, heq⟩
    rcases rows_cases hdb with ⟨moment, call, rfl⟩ | ⟨-, f, hf, hrows⟩
    · exact absurd rfl (hother moment call)
    · rw [hrows] at hu
      obtain ⟨v, hv, rfl⟩ := List.mem_map.mp hu
      rw [hevents, lastReporter_event hother, hf.key, hf.lastSeen]
      exact hseen v hv

/-! ## What a request that has passed says -/

theorem liveLocations_eq_zero_iff {svc : RemediationServices} {db : RemediationDb}
    {projectId scanId : Uuid} {issueKey : String} :
    (liveLocations svc db projectId issueKey scanId).1 = 0 ↔ ∀ v ∈ db.vulnerabilities,
      v.projectId = projectId → v.lastSeenScanId = some scanId → v.issueKey = issueKey →
        ¬ isScorable svc v := by
  unfold liveLocations partitionByIssue
  dsimp only
  constructor
  · intro hzero v hv hproject hscan hkey hscorable
    obtain ⟨hlocated, hunlocated⟩ := Nat.add_eq_zero_iff.mp hzero
    rw [List.length_eq_zero_iff] at hlocated
    have hmem : v ∈ (db.vulnerabilities.filter fun v =>
        v.projectId = projectId ∧ v.lastSeenScanId = some scanId).filter fun v =>
          v.issueKey = issueKey ∧ isScorable svc v := by
      simp [hv, hproject, hscan, hkey, hscorable]
    cases hat : v.matchedAt with
    | none => exact List.countP_eq_zero.mp hunlocated v hmem (by simp [hat])
    | some location =>
      have hlocation := List.mem_dedup.mpr (List.mem_filterMap.mpr ⟨v, hmem, hat⟩)
      rw [hlocated] at hlocation
      cases hlocation
  · intro hnone
    have hempty : ((db.vulnerabilities.filter fun v =>
        v.projectId = projectId ∧ v.lastSeenScanId = some scanId).filter fun v =>
          v.issueKey = issueKey ∧ isScorable svc v) = [] := by
      rw [List.filter_eq_nil_iff]
      intro v hv
      simp only [List.mem_filter, decide_eq_true_eq] at hv ⊢
      exact fun hv' => hnone v hv.1 hv.2.1 hv.2.2 hv'.1 hv'.2
    rw [hempty]
    rfl

/-- Every request that has passed is about a retest that has started since the issue was last found
before the request. -/
def PassesReflect (svc : IngestServices) (h : FindingsHistory) : Prop :=
  ∀ r, ∀ q ∈ h.db.request r, q.result = some .passed → ∃ scanId item,
    q.scanId = some scanId ∧ h.db.items q.remediationItemId = some item ∧
      StartedAfter svc item r scanId h.events

/-- A completion that decides a request by a retest with usable coverage: the retest has started
since the issue was last found before the request, or it has reported one of the findings last which
still count. -/
def RetestCurrent (svc : IngestServices) (h : FindingsHistory) : FindingsStep → Prop
  | .operation (.workflow (.completeVerification call)) _ => ∀ q scanId item,
      Decides call h.db.toRemediationDb q scanId item →
        retestHadUsableDetectionCoverage h.db.toRemediationDb scanId →
          StartedAfter svc item call.requestId scanId h.events ∨
            ∃ v ∈ h.db.vulnerabilities, v.projectId = item.projectId ∧
              v.issueKey = item.issueKey ∧ isScorable svc.toRemediationServices v ∧
              lastReporter v.key h.events = some scanId
  | _ => True

/-- A completion that answers `passed` rests on a retest that has started since the issue was last
found before the request. -/
def PassReflects (svc : IngestServices) (h : FindingsHistory) : FindingsStep → Prop
  | .operation (.workflow (.completeVerification call)) moment => ∀ db',
      findingsStep svc (.operation (.workflow (.completeVerification call)) moment) h.db =
          some db' →
        ∀ q ∈ db'.request call.requestId, q.result = some .passed → ∀ scanId ∈ q.scanId,
          ∀ item ∈ db'.items q.remediationItemId,
            StartedAfter svc item call.requestId scanId h.events
  | _ => True

theorem StartedAfter.of_issue {item item' : RemediationItem} {r scanId : Uuid}
    {events : List FindingsEvent} (h : StartedAfter svc item r scanId events)
    (hissue : item'.issue = item.issue) : StartedAfter svc item' r scanId events := by
  simp only [RemediationItem.issue, Prod.mk.injEq] at hissue
  unfold StartedAfter
  rw [hissue.2.1, hissue.2.2]
  exact h

/-- A request that keeps its verdict. -/
structure SameVerdict (q q' : VerificationRequest) : Prop where
  id : q'.id = q.id
  result : q'.result = q.result
  remediationItemId : q'.remediationItemId = q.remediationItemId
  scanId : q'.scanId = q.scanId

/-- The requests keep their verdicts, and no request is told of. -/
def VerdictsKept (a : FindingsStep) (db db' : FindingsDb) : Prop :=
  (∀ r, a.event db' ≠ some (.requested r)) ∧ ∃ f : VerificationRequest → VerificationRequest,
    (∀ q, SameVerdict q (f q)) ∧ db'.requests = db.requests.map f

theorem VerdictsKept.of_same {db db' : FindingsDb} (h : db'.requests = db.requests)
    (hevent : ∀ r, a.event db' ≠ some (.requested r)) : VerdictsKept a db db' :=
  ⟨hevent, id, fun _ => ⟨rfl, rfl, rfl, rfl⟩, h.trans (List.map_id _).symm⟩

/-- Only a request and a completion change the verdicts. -/
theorem requests_cases {db db' : FindingsDb} (hstep : findingsStep svc a db = some db') :
    (∃ call moment, a = .operation (.workflow (.requestVerification call)) moment) ∨
      (∃ call moment, a = .operation (.workflow (.completeVerification call)) moment) ∨
      VerdictsKept a db db' := by
  cases a with
  | createProject id project =>
    dsimp only [findingsStep] at hstep
    split_ifs at hstep
    cases hstep
    exact .inr (.inr (.of_same rfl fun _ => nofun))
  | createScan id workspaceId projectId targetId config now =>
    dsimp only [findingsStep] at hstep
    split_ifs at hstep
    cases hstep
    exact .inr (.inr (.of_same rfl fun _ => nofun))
  | scan id step =>
    obtain ⟨scans, -, rfl⟩ := Option.map_eq_some_iff.mp hstep
    refine .inr (.inr (.of_same rfl fun r => ?_))
    cases step <;> exact nofun
  | write members toolRuns | storeEvidence evidence =>
    cases hstep
    exact .inr (.inr (.of_same rfl fun _ => nofun))
  | ingest moment call =>
    obtain ⟨-, rfl⟩ := ingest_eq_some hstep
    have hkeeps := ingestWrites_keeps svc moment call db
    refine .inr (.inr (.of_same hkeeps.requests fun r hevent => ?_))
    obtain ⟨row, -, hrow⟩ := Option.map_eq_some_iff.mp hevent
    cases hrow
  | setStatus now call =>
    obtain ⟨v, -, -, newStatus, -, rfl⟩ := setStatus_eq_ok (Checks.toOption_eq_some.mp hstep)
    exact .inr (.inr (.of_same rfl fun _ => nofun))
  | createItem id issue =>
    exact .inr (.inr (.of_same (itemCreated hstep).requests fun _ => nofun))
  | claimVerification now id workerToken =>
    cases hstep
    refine .inr (.inr ⟨fun _ => nofun, _, fun q => ?_, rfl⟩)
    unfold ScanPlatform.claimVerification
    split_ifs <;> exact ⟨rfl, rfl, rfl, rfl⟩
  | operation op moment =>
    by_cases hrequest : ∃ call, op = .workflow (.requestVerification call)
    · obtain ⟨call, rfl⟩ := hrequest
      exact .inl ⟨call, moment, rfl⟩
    · by_cases hcomplete : ∃ call, op = .workflow (.completeVerification call)
      · obtain ⟨call, rfl⟩ := hcomplete
        exact .inr (.inl ⟨call, moment, rfl⟩)
      · have hspared := exec_spared (fun call hcall => hrequest ⟨call, hcall⟩)
          (fun call hcall => hcomplete ⟨call, hcall⟩) (operation_eq_some hstep).1
        refine .inr (.inr (.of_same (congrArg Prod.snd hspared) fun r hevent => ?_))
        cases op with
        | workflow call =>
          cases call with
          | requestVerification call => exact hrequest ⟨call, rfl⟩
          | transition | updateItem | completeVerification | acceptRisk | reopenForRegression =>
            cases hevent
        | revokeRiskAcceptance | expireDueAcceptances => cases hevent

theorem Completion.outcome_eq_passed_iff (c : Completion) :
    c.outcome = .passed ↔ c.coverageOk ∧ c.live.1 = 0 := by
  unfold Completion.outcome verificationOutcome
  cases c.coverageOk with
  | false => simp
  | true => by_cases hlive : c.live.1 = 0 <;> simp [hlive]

/-- The request that is decided. -/
theorem completeRequest_result (c : Completion) (now : ℤ) :
    (completeRequest c now c.request).result = some c.outcome := by
  unfold completeRequest
  rw [if_pos rfl]
  exact Versions.flush_self _ _

/-- **A step whose retest is current keeps the passes right.** -/
theorem passes_step (hseen : Seen h) (hpasses : PassesReflect svc h)
    (hcurrent : RetestCurrent svc h a) (hstep : historyStep svc a h = some h') :
    PassesReflect svc h' := by
  obtain ⟨hdb, hevents⟩ := historyStep_eq_some hstep
  intro r q' hq' hpassed
  have later : ∀ q ∈ h.db.request r, SameVerdict q q' →
      (∀ r', a.event h'.db = some (.requested r') → r' ≠ r) → ∃ scanId item,
        q'.scanId = some scanId ∧ h'.db.items q'.remediationItemId = some item ∧
          StartedAfter svc item r scanId h'.events := by
    intro q hq hsame hevent
    obtain ⟨scanId, item, hscan, hitem, hstarted⟩ := hpasses r q hq (hsame.result ▸ hpassed)
    obtain ⟨item', hitem', hissue⟩ := item_kept hdb hitem
    refine ⟨scanId, item', hsame.scanId.trans hscan, hsame.remediationItemId ▸ hitem', ?_⟩
    rw [hevents]
    refine Answered.append (hstarted.of_issue hissue) fun hmem => ?_
    exact hevent r (Option.mem_toList.mp hmem) rfl
  rcases requests_cases hdb with ⟨call, moment, rfl⟩ | ⟨call, moment, rfl⟩ |
    ⟨hevent, f, hf, hrequests⟩
  · have hmade := exec_requestVerification (operation_eq_some hdb).1
    obtain ⟨baseline, hrequests⟩ := hmade.requests
    rw [Option.mem_def, request_append hrequests, Option.or_eq_some_iff] at hq'
    rcases hq' with hq | ⟨-, hnew⟩
    · refine later q' hq ⟨rfl, rfl, rfl, rfl⟩ fun r' hr' => ?_
      cases hr'
      rintro rfl
      rw [hmade.fresh] at hq
      cases hq
    · split_ifs at hnew
      cases hnew
      cases hpassed
  · obtain ⟨q₀, -, ⟨-, hsame⟩ | ⟨scanId, item, hdecides, hwrite⟩⟩ :=
      exec_completeVerification (operation_eq_some hdb).1
    · rw [hsame] at hq'
      exact later q' hq' ⟨rfl, rfl, rfl, rfl⟩ fun r' hr' => by cases hr'
    · obtain ⟨hrequests, -⟩ := Completion.write_request hwrite
      obtain ⟨q, hq, rfl⟩ := of_mem_request_map (completeRequest_id _ _) hrequests hq'
      by_cases hid : q.id = q₀.id
      · have hr : r = call.requestId :=
          (request_id hq).symm.trans (hid.trans (request_id hdecides.request))
        obtain rfl : q = q₀ := Option.some.inj (hq.symm.trans (hr ▸ hdecides.request))
        have houtcome := Option.some.inj ((completeRequest_result _ _).symm.trans hpassed)
        obtain ⟨hcovered, hlive⟩ := (Completion.outcome_eq_passed_iff _).mp houtcome
        obtain ⟨item', hitem', hissue⟩ := item_kept hdb hdecides.item
        have hlinks := completeRequest_links
          (h.db.toRemediationDb.completion svc.toRemediationServices q scanId item) moment.now q
        refine ⟨scanId, item', hlinks.2.trans hdecides.scan, hlinks.1 ▸ hitem', ?_⟩
        rw [hevents, hr]
        refine Answered.append (StartedAfter.of_issue ?_ hissue) List.not_mem_nil
        rcases hcurrent q scanId item hdecides hcovered with hstarted | ⟨v, hv, hproject, hkey,
          hscorable, hreporter⟩
        · exact hstarted
        · have hlast := (hseen v hv).trans hreporter
          exact absurd hscorable (liveLocations_eq_zero_iff.mp hlive v hv hproject hlast hkey)
      · refine later q hq ?_ fun r' hr' => by cases hr'
        rw [completeRequest_of_ne hid]
        exact ⟨rfl, rfl, rfl, rfl⟩
  · obtain ⟨q, hq, rfl⟩ := of_mem_request_map (fun q => (hf q).id) hrequests hq'
    exact later q hq (hf q) fun r' hr' => absurd hr' (hevent r')

/-! ## When a pass reflects a retest -/

/-- A completion of an item that is still what it has read. -/
theorem Completion.write_ok {c : Completion} {actor : Option Uuid} {moment : Moment}
    {db : RemediationDb} (hitem : db.items c.request.remediationItemId = some c.item) :
    ∃ db', c.write actor moment db = .ok db' := by
  unfold Completion.write
  dsimp only
  split_ifs
  · exact ⟨_, rfl⟩
  · exact applyTransition_ok hitem rfl
  · exact ⟨_, rfl⟩

/-- A completion that passes shows whether its retest is current. -/
theorem retestCurrent_of_reflects (hseen : Seen h) (hreflects : PassReflects svc h a) :
    RetestCurrent svc h a := by
  unfold RetestCurrent
  split
  · next call moment =>
    intro q scanId item hdecides hcovered
    by_cases hlive : (liveLocations svc.toRemediationServices h.db.toRemediationDb item.projectId
        item.issueKey scanId).1 = 0
    · left
      obtain ⟨workflow, hwrite⟩ : ∃ workflow,
          (h.db.toRemediationDb.completion svc.toRemediationServices q scanId item).write
            call.actorUserId moment h.db.toRemediationDb = .ok workflow :=
        Completion.write_ok hdecides.item
      have hstep : findingsStep svc (.operation (.workflow (.completeVerification call)) moment)
          h.db = some { h.db with toRemediationDb := workflow } := by
        refine Option.map_eq_some_iff.mpr ⟨workflow, Checks.toOption_eq_some.mpr ?_, rfl⟩
        exact (exec_of_decides hdecides).trans hwrite
      have hrequest := mem_request_map (completeRequest_id _ moment.now)
        (Completion.write_request hwrite).1 hdecides.request
      have hpassed := (Completion.outcome_eq_passed_iff
        (h.db.toRemediationDb.completion svc.toRemediationServices q scanId item)).mpr
          ⟨hcovered, hlive⟩
      have hlinks := completeRequest_links
        (h.db.toRemediationDb.completion svc.toRemediationServices q scanId item) moment.now q
      obtain ⟨item', hitem', hissue⟩ := item_kept hstep hdecides.item
      refine (hreflects _ hstep _ hrequest ?_ scanId (hlinks.2.trans hdecides.scan) item'
        (hlinks.1 ▸ hitem')).of_issue hissue.symm
      exact (completeRequest_result _ _).trans (congrArg some hpassed)
    · right
      by_contra hnone
      refine hlive (liveLocations_eq_zero_iff.mpr fun v hv hproject hlast hkey hscorable => ?_)
      exact hnone ⟨v, hv, hproject, hkey, hscorable, (hseen v hv).symm.trans hlast⟩
  · trivial

/-- What has passed rests on its retest, in the step that says so too. -/
theorem reflects_of_passes (hpasses : ∀ h', historyStep svc a h = some h' → PassesReflect svc h') :
    PassReflects svc h a := by
  unfold PassReflects
  split
  · next call moment =>
    intro db' hstep q hq hpassed scanId hscan item hitem
    have hhistory : historyStep svc (.operation (.workflow (.completeVerification call)) moment) h =
        some ⟨db', h.events⟩ := by
      refine Option.map_eq_some_iff.mpr ⟨db', hstep, ?_⟩
      rw [show FindingsStep.event db' _ = none from rfl, Option.toList_none, List.append_nil]
    obtain ⟨scanId', item', hscan', hitem', hstarted⟩ := hpasses _ hhistory _ q hq hpassed
    obtain rfl : scanId' = scanId := Option.some.inj (hscan'.symm.trans hscan)
    obtain rfl : item' = item := Option.some.inj (hitem'.symm.trans hitem)
    exact hstarted
  · trivial

end

/-- **A pass reflects a retest of what was found**, in a history, exactly when every request is
decided by a retest that has started since the issue was last found before the request, or has no
usable coverage, or has reported one of the findings last which still count. -/
theorem pass_reflects_retest_iff (svc : IngestServices) (σ : List FindingsStep) :
    Along (historyStep svc) (PassReflects svc) .empty σ ↔
      Along (historyStep svc) (RetestCurrent svc) .empty σ := by
  have hstep : ∀ h a h', h.db.Keyed ∧ Seen h → historyStep svc a h = some h' →
      h'.db.Keyed ∧ Seen h' := fun h a h' hI hstep =>
    ⟨keyed_step hI.1 (historyStep_eq_some hstep).1, seen_step hI.1 hI.2 hstep⟩
  have hempty : FindingsHistory.empty.db.Keyed ∧ Seen .empty :=
    ⟨keyed_empty, fun v hv => by cases hv⟩
  constructor
  · intro hreflects σ₁ a σ₂ hσ
    exact retestCurrent_of_reflects (run_invariant hstep hempty σ₁).2 (hreflects σ₁ a σ₂ hσ)
  · intro hcurrent
    refine Along.of_invariant (I := fun h => (h.db.Keyed ∧ Seen h) ∧ PassesReflect svc h)
      (fun h a h' hI hcurrent hs => ⟨hstep h a h' hI.1 hs, passes_step hI.1.2 hI.2 hcurrent hs⟩)
      (fun h a hI hcurrent => ?_) ⟨hempty, fun r q hq => ?_⟩ hcurrent
    · exact reflects_of_passes fun h' hs => passes_step hI.1.2 hI.2 hcurrent hs
    · cases hq

/-- Scan 5 finds it again, and the verification is requested by scan 4. -/
def olderHistory : List FindingsStep :=
  reportedHistory ++ startScan 5 ++ [reportFinding 5 10, completeScan 5] ++ requestRetest 4

/-- **An older scan passes**, which has found the issue itself. -/
theorem older_scan_passes : ¬ Along (historyStep plainServices) (PassReflects plainServices) .empty
    (olderHistory ++ [completeRetest]) := by
  intro h
  obtain ⟨db', hstep, q, hq, hpassed, hscan, item, hitem, hproject, hkey⟩ :
      ∃ db', findingsStep plainServices completeRetest
          (run (historyStep plainServices) .empty olderHistory).db = some db' ∧
        ∃ q ∈ db'.request 12, q.result = some .passed ∧ q.scanId = some 4 ∧
          ∃ item ∈ db'.items q.remediationItemId, item.projectId = 1 ∧
            item.issueKey = "template:sqli" :=
    ⟨_, rfl, _, rfl, by decide, rfl, _, rfl, rfl, rfl⟩
  obtain ⟨row₁, row₂, hevents, hrow⟩ : ∃ row₁ row₂,
      (run (historyStep plainServices) .empty olderHistory).events =
        [.started 4, .ingested row₁, .started 5] ++ .ingested row₂ :: [.requested 12] ∧
      row₂.projectId = 1 ∧ row₂.issueKey = "template:sqli" ∧
        isScorable plainServices.toRemediationServices row₂ :=
    ⟨_, _, rfl, rfl, by decide, by decide⟩
  have hstarted := h olderHistory _ [] rfl db' hstep q hq hpassed 4 hscan item hitem
  have hdetects : FindingsEvent.Detects plainServices item.projectId item.issueKey
      (.ingested row₂) := by
    rw [hproject, hkey]
    exact hrow
  have hafter := hstarted _ _ _ hevents hdetects List.mem_cons_self
  simp at hafter

end ScanPlatform

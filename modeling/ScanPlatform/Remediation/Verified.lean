import ScanPlatform.Base.Rows
import ScanPlatform.Remediation.Lifecycle

/-!
# How an item becomes verified

An item is verified by the completion of a request whose retest has passed. That the retest has
finished is checked when it is linked to the request, and a scan that has failed can be claimed and
run again.

* `RetestFinished`, `RetestsFinished`: the retests of outstanding requests;
* `Enters`, `Earned`, `VerifiedEarned`: that an item becomes verified, and that it has earned it;
* `RetestsKept`, `OneCompletion`: the conditions on the steps of a run;
* `RequestWrite`, `prog_writes`: what the calls do to the requests, and which of them verify;
* **`verified_earned`**, `verified_on_running_scan`: when items earn it, and a run in which an item
  is verified by a scan that is running.
-/

set_option autoImplicit false

namespace ScanPlatform

open CondMachine Sessions Versions

/-! ## Requests under their ids -/

section

variable {db db' : RemediationDb} {r : Uuid} {q q' : VerificationRequest}

theorem request_id (h : q ∈ db.request r) : q.id = r := Rows.row_key h

theorem request_of_eq (h : db'.requests = db.requests) : db'.request r = db.request r := by
  rw [RemediationDb.request, RemediationDb.request, h]

theorem request_map {f : VerificationRequest → VerificationRequest} (hf : ∀ q, (f q).id = q.id)
    (h : db'.requests = db.requests.map f) : db'.request r = (db.request r).map f := by
  rw [RemediationDb.request, h]
  exact Rows.row_map hf db.requests r

theorem mem_request_map {f : VerificationRequest → VerificationRequest}
    (hf : ∀ q, (f q).id = q.id) (h : db'.requests = db.requests.map f) (hq : q ∈ db.request r) :
    f q ∈ db'.request r := by
  rw [request_map hf h]
  exact Option.mem_map_of_mem f hq

/-- A rewritten request comes from one. -/
theorem of_mem_request_map {f : VerificationRequest → VerificationRequest}
    (hf : ∀ q, (f q).id = q.id) (h : db'.requests = db.requests.map f)
    (hq' : q' ∈ db'.request r) : ∃ q ∈ db.request r, q' = f q := by
  rw [request_map hf h] at hq'
  obtain ⟨q, hq, rfl⟩ := Option.mem_map.mp hq'
  exact ⟨q, hq, rfl⟩

theorem request_append (h : db'.requests = db.requests ++ [q]) (r : Uuid) :
    db'.request r = (db.request r).or (if q.id = r then some q else none) := by
  rw [RemediationDb.request, h]
  exact Rows.row_append db.requests q r

theorem mem_request_append (h : db'.requests = db.requests ++ [q']) (hq : q ∈ db.request r) :
    q ∈ db'.request r := by
  rw [Option.mem_def, request_append h, Option.mem_def.mp hq]
  rfl

theorem completeRequest_id (c : Completion) (now : ℤ) (q : VerificationRequest) :
    (completeRequest c now q).id = q.id := by
  unfold completeRequest
  split_ifs <;> rfl

end

/-! ## Finished retests -/

/-- The request `r` of an item is linked to a finished scan of the item's own project. -/
def RetestFinished (r id scanId : Uuid) (db : RemediationDb) : Prop :=
  ∃ q ∈ db.request r, q.remediationItemId = id ∧ q.scanId = some scanId ∧
    ∃ item ∈ db.items id, FinishedFor item.workspaceId item.projectId scanId db

def Outstanding (r : Uuid) (db : RemediationDb) : Prop := ∃ q ∈ db.request r, q.outstanding

/-- An outstanding request has no answer, and its retest has finished. -/
def RetestsFinished (db : RemediationDb) : Prop :=
  ∀ r, ∀ q ∈ db.request r, q.outstanding → q.result = none ∧ q.completedAt = none ∧
    ∀ scanId ∈ q.scanId, RetestFinished r q.remediationItemId scanId db

/-! ## How an item becomes verified -/

def Enters (id : Uuid) (before after : RemediationDb) : Prop :=
  (∀ row ∈ before.items id, row.status ≠ .verified) ∧
    ∃ row ∈ after.items id, row.status = .verified

/-- A request of the item is completed at this time with the result `passed`, for a finished scan
of the item's own project. Under `once` it was outstanding. -/
def Earned (once : Prop) (now : ℤ) (id : Uuid) (before after : RemediationDb) : Prop :=
  ∃ r, ∃ q ∈ before.request r, ∃ q' ∈ after.request r, ∃ scanId ∈ q'.scanId,
    ∃ item ∈ after.items id, q.remediationItemId = id ∧ q'.remediationItemId = id ∧
      q'.status = .completed ∧ q'.result = some .passed ∧ q'.completedAt = some now ∧
      FinishedFor item.workspaceId item.projectId scanId after ∧ (once → q.outstanding)

/-- Whenever an item becomes verified in the run, a commit of a session earns it. -/
def VerifiedEarned (svc : RemediationServices) (once : Prop) (S : RemediationSystem)
    (σ : List RemediationStep) : Prop :=
  ∀ σ₁ a σ₂, σ = σ₁ ++ a :: σ₂ → ∀ id,
    Enters id (run (remediationStep svc) S σ₁).db (run (remediationStep svc) S (σ₁ ++ [a])).db →
      ∃ n moment, a = .advance n moment ∧ Earned once moment.now id
        (run (remediationStep svc) S σ₁).db (run (remediationStep svc) S (σ₁ ++ [a])).db

/-! ## The conditions -/

/-- The retest that a call in progress is about. -/
def RemediationCall.retest (db : RemediationDb) : RemediationCall → Option Uuid
  | .requestVerification call => call.scanId
  | .completeVerification call => (db.request call.requestId).bind (·.scanId)
  | .transition _ | .updateItem _ | .acceptRisk _ | .reopenForRegression _ => none

/-- The scan is the retest of an outstanding request, or of a call in progress. -/
def IsRetest (S : RemediationSystem) (scanId : Uuid) : Prop :=
  (∃ r, ∃ q ∈ S.db.request r, q.outstanding ∧ q.scanId = some scanId) ∨
    ∃ n, ∃ session ∈ S.sessions n, scanId ∈ session.call.retest S.db

/-- No retest that has finished is claimed again, or deleted. -/
def RetestsKept (S : RemediationSystem) : RemediationStep → Prop
  | .other (.write members scans vulnerabilities toolRuns) =>
    ∀ scanId workspaceId projectId, IsRetest S scanId →
      FinishedFor workspaceId projectId scanId S.db →
        FinishedFor workspaceId projectId scanId { S.db with
          members, scans, vulnerabilities, toolRuns }
  | .other (.createItem _ _) | .other (.claimVerification _ _ _) | .call _ _ | .advance _ _
  | .drop _ => True

/-- No two completions of one request are in progress. -/
def OneCompletion (S : RemediationSystem) : RemediationStep → Prop
  | .call _ (.completeVerification call) => ∀ m, ∀ session ∈ S.sessions m,
      ∀ call', session.call = .completeVerification call' → call'.requestId ≠ call.requestId
  | .call _ _ | .advance _ _ | .drop _ | .other _ => True

/-! ## What the calls do to the requests -/

/-- What a call in progress relies on. -/
def RemediationCall.Relies (once : Prop) :
    RemediationCall → RemediationDb → RemediationDb → Prop
  | .requestVerification call, db, db' => Grows db db' ∧ ∀ scanId ∈ call.scanId,
      FinishedFor call.workspaceId call.projectId scanId db →
        FinishedFor call.workspaceId call.projectId scanId db'
  | .completeVerification call, db, db' => Grows db db' ∧
      (∀ id scanId, RetestFinished call.requestId id scanId db →
        RetestFinished call.requestId id scanId db') ∧
      (once → Outstanding call.requestId db → Outstanding call.requestId db')
  | .transition _, db, db' | .updateItem _, db, db' | .acceptRisk _, db, db'
  | .reopenForRegression _, db, db' => Grows db db'

/-- A commit leaves the requests alone and verifies nothing, or inserts a request, or completes
one. -/
inductive RequestWrite (once : Prop) (moment : Moment) (db db' : RemediationDb) :
    RemediationCall → Prop
  | none (call : RemediationCall) (requests : db'.requests = db.requests)
    (entry : ∀ id, ¬ Enters id db db') : RequestWrite once moment db db' call
  | insert (call : VerificationCall) (baseline : List String)
    (fresh : db.request moment.newId = .none)
    (requests : db'.requests = db.requests ++ [call.request moment.newId baseline])
    (retest : ∀ scanId ∈ call.scanId, FinishedFor call.workspaceId call.projectId scanId db)
    (item : ∃ item ∈ db'.items call.itemId, item.workspaceId = call.workspaceId ∧
      item.projectId = call.projectId)
    (entry : ∀ id, ¬ Enters id db db') :
    RequestWrite once moment db db' (.requestVerification call)
  | complete (call : CompletionCall) (c : Completion) (request : c.request.id = call.requestId)
    (outstanding : c.request.outstanding) (result : c.request.result = .none)
    (completedAt : c.request.completedAt = .none)
    (requests : db'.requests = db.requests.map (completeRequest c moment.now))
    (entry : ∀ id, Enters id db db' → c.outcome = .passed ∧
      RetestFinished call.requestId id c.scanId db ∧ (once → Outstanding call.requestId db)) :
    RequestWrite once moment db db' (.completeVerification call)

/-- What a call writes, besides what `Commit` says. -/
structure RemediationCall.Writes (once : Prop) (call : RemediationCall) (moment : Moment)
    (db db' : RemediationDb) : Prop where
  scans : db'.scans = db.scans
  requests : RequestWrite once moment db db' call

/-- The call writes as promised whatever the others do. -/
abbrev WritesSafely (once : Prop) (call : RemediationCall)
    (txn : RemediationTxn RemediationWrite) (db : RemediationDb) : Prop :=
  Safe (call.Relies once) RetestsFinished (call.Writes once) txn db

theorem Enters.of_items_eq {id : Uuid} {db db' : RemediationDb} (h : Enters id db db')
    (hitems : db'.items = db.items) : False := by
  obtain ⟨hbefore, row, hrow, hverified⟩ := h
  rw [hitems] at hrow
  exact hbefore row hrow hverified

section

variable {once : Prop} {call : RemediationCall} {db₀ db db' : RemediationDb} {moment : Moment}
  {id : Uuid} {item assigned : RemediationItem} {version : ℕ}

theorem Writes.of_items_eq (hitems : db'.items = db.items) (hrequests : db'.requests = db.requests)
    (hscans : db'.scans = db.scans) : call.Writes once moment db db' :=
  ⟨hscans, .none call hrequests fun _ h => h.of_items_eq hitems⟩

theorem writes_nothing :
    Commits (call.Relies once) RetestsFinished (call.Writes once)
      (fun _ db => .ok db : RemediationWrite) db := by
  intro _ db' db'' _ _ h
  cases h
  exact Writes.of_items_eq rfl rfl rfl

/-- A compare-and-set verifies its own item at most, and only when the session has assigned that
status. -/
theorem bumpVersion_entry (hitems : db.items = db₀.items)
    (h : bumpVersion id item assigned version db = .ok db') :
    db'.requests = db.requests ∧ db'.scans = db.scans ∧
      (∃ row row', db₀.items id = some row ∧ db'.items id = some row' ∧ row.SameIssue row') ∧
      ∀ j, Enters j db₀ db' → j = id ∧ assigned.status = .verified ∧
        assigned.status ≠ item.status := by
  obtain ⟨row, hrow, -, rfl⟩ := bumpVersion_eq_ok.mp h
  rw [hitems] at hrow
  refine ⟨rfl, rfl, ⟨row, _, hrow, Table.set_self _ _ _, ⟨rfl, rfl, rfl⟩⟩, fun j hj => ?_⟩
  obtain ⟨hbefore, row', hrow', hverified⟩ := hj
  simp only [Option.mem_def, Table.set_apply] at hrow'
  split_ifs at hrow' with hji
  · subst hji
    cases hrow'
    simp only [RemediationItem.flush, Versions.flush] at hverified
    split_ifs at hverified with hread
    · exact absurd hverified (hbefore row hrow)
    · exact ⟨rfl, hverified, hread⟩
  · rw [hitems] at hrow'
    exact absurd hverified (hbefore row' hrow')

theorem applyTransition_entry (db₀ : RemediationDb) {actor : Option Uuid}
    {toStatus : RemediationStatus} {detail : Option String}
    (h : applyTransition id item actor version toStatus detail moment db = .ok db')
    (hitems : db.items = db₀.items) :
    db'.requests = db.requests ∧ db'.scans = db.scans ∧
      (∃ row row', db₀.items id = some row ∧ db'.items id = some row' ∧ row.SameIssue row') ∧
      ∀ j, Enters j db₀ db' → j = id ∧ toStatus = .verified := by
  obtain ⟨db₁, hbump, hrecord⟩ := Checks.bind_eq_ok.mp h
  obtain ⟨hrequests, hscans, hrow, hentry⟩ := bumpVersion_entry hitems hbump
  cases hrecord
  refine ⟨hrequests, hscans, hrow, fun j hj => ?_⟩
  obtain ⟨hji, hverified, -⟩ := hentry j hj
  exact ⟨hji, (item.enter_status moment.now toStatus).symm.trans hverified⟩

/-- A transition to another status verifies nothing. -/
theorem Writes.of_applyTransition {actor : Option Uuid} {toStatus : RemediationStatus}
    {detail : Option String} (hto : toStatus ≠ .verified) (hitems : db.items = db₀.items)
    (hrequests : db.requests = db₀.requests) (hscans : db.scans = db₀.scans)
    (h : applyTransition id item actor version toStatus detail moment db = .ok db') :
    call.Writes once moment db₀ db' := by
  obtain ⟨hrequests', hscans', -, hentry⟩ := applyTransition_entry db₀ h hitems
  exact ⟨hscans'.trans hscans, .none call (hrequests'.trans hrequests) fun j hj =>
    hto (hentry j hj).2⟩

end

section

variable (once : Prop) {db : RemediationDb}

theorem transition_writes (call : TransitionCall) :
    WritesSafely once (.transition call) (transition call) db := by
  unfold WritesSafely Safe transition getItem
  simp only [ensures_bind, ensures_query, ensures_raiseIf, ensures_pure]
  intro _ db₁ _ _ item _ hguarded _ moment db₂ db' _ _ hwrite
  have hto : call.toStatus ≠ .verified := fun heq => by
    rw [heq] at hguarded
    exact hguarded (by decide)
  exact Writes.of_applyTransition hto rfl rfl rfl hwrite

theorem updateItem_writes (svc : RemediationServices) (call : UpdateCall) :
    WritesSafely once (.updateItem call) (updateItem svc call) db := by
  unfold WritesSafely Safe updateItem getItem
  simp only [ensures_bind, ensures_query]
  intro _ db₁ _ _ item _
  refine ensures_requireMember _ _ (Grows.refl db₁) fun db₂ _ => ?_
  split_ifs
  · exact writes_nothing
  · intro moment db₃ db' _ _ hwrite
    obtain ⟨db₄, hbump, hfold⟩ := Checks.bind_eq_ok.mp hwrite
    have hkeeps := call.patch.apply_keeps svc item
    obtain ⟨hrequests, hscans, -, hentry⟩ := bumpVersion_entry rfl hbump
    obtain ⟨events, heq, -⟩ := foldl_recordEvent call.itemId (some call.actorUserId) hkeeps.events
      db₄
    rw [Except.ok.injEq, heq] at hfold
    subst hfold
    exact ⟨hscans, .none _ hrequests fun j hj => (hentry j hj).2.2 hkeeps.status⟩

theorem reopenForRegression_writes (call : RegressionCall) :
    WritesSafely once (.reopenForRegression call) (reopenForRegression call) db := by
  unfold WritesSafely Safe reopenForRegression
  simp only [ensures_bind, ensures_query]
  intro _ db₁ _ _ found _
  split
  · exact writes_nothing
  · split_ifs
    · intro moment db₂ db' _ _ hwrite
      refine Writes.of_applyTransition ?_ rfl rfl rfl hwrite
      decide
    · exact writes_nothing

theorem acceptRisk_writes (svc : RemediationServices) (call : AcceptanceCall) :
    WritesSafely once (.acceptRisk call) (acceptRisk svc call) db := by
  unfold WritesSafely Safe acceptRisk
  simp only [ensures_bind, ensures_query, ensures_raiseIf]
  intro _ db₁ _ _ now _ _ _ _ db₂ _ _ existing _ _
  split
  · intro _ db₃ db' _ _ hwrite
    rw [insertAcceptance_eq_ok hwrite]
    exact Writes.of_items_eq rfl rfl rfl
  · unfold getItem
    simp only [ensures_bind, ensures_query]
    intro _ db₃ _ _ item _ moment db₄ db' _ _ hwrite
    obtain ⟨db₅, hinsert, hwrite⟩ := Checks.bind_eq_ok.mp hwrite
    obtain rfl := insertAcceptance_eq_ok hinsert
    split_ifs at hwrite
    refine Writes.of_applyTransition ?_ ?_ ?_ ?_ hwrite
    · decide
    · rfl
    · rfl
    · rfl

theorem requestVerification_writes (svc : RemediationServices) (call : VerificationCall) :
    WritesSafely once (.requestVerification call) (requestVerification svc call) db := by
  unfold WritesSafely Safe requestVerification getItem
  simp only [ensures_bind, ensures_query, ensures_raiseIf, ensures_pure, findItem_eq_ok]
  intro _ db₁ _ _ item hitem _
  refine ensures_requireProjectScan ⟨.refl db₁, fun _ _ h => h⟩ fun db₂ h₂ hscan => ?_
  intro _ db₃ h₃ _ _ _ _ _ db₄ h₄ _ baseline _ moment db₅ db' h₅ _ hwrite
  obtain ⟨db₆, hinsert, happly⟩ := Checks.bind_eq_ok.mp hwrite
  obtain ⟨hfresh, rfl⟩ := insertRequest_eq_ok.mp hinsert
  -- The item is still of this project, and the scan is still finished.
  obtain ⟨row, hrow, hissue, -⟩ := (((h₂.1.trans h₃.1).trans h₄.1).trans h₅.1) _ item hitem.1
  obtain ⟨hrequests, hscans, ⟨row₁, row', hrow₁, hrow', hissue'⟩, hentry⟩ :=
    applyTransition_entry db₅ happly rfl
  obtain rfl : row = row₁ := Option.some.inj (hrow.symm.trans hrow₁)
  refine ⟨hscans, .insert call baseline hfresh hrequests ?_ ⟨row', hrow', ?_, ?_⟩ ?_⟩
  · intro scanId hid
    exact h₅.2 scanId hid (h₄.2 scanId hid (h₃.2 scanId hid (hscan scanId hid)))
  · rw [hissue'.workspaceId, hissue.workspaceId, hitem.2.2]
  · rw [hissue'.projectId, hissue.projectId, hitem.2.1]
  · intro j hj
    exact absurd (hentry j hj).2 (by decide)

/-- A completion verifies the item of its request at most, and only when the retest has passed. -/
theorem Completion.write_writes {call : CompletionCall} {c : Completion} {actor : Option Uuid}
    {moment : Moment} {db' : RemediationDb} (hid : c.request.id = call.requestId)
    (hout : c.request.outstanding) (hresult : c.request.result = none)
    (hcompletedAt : c.request.completedAt = none)
    (hretest : RetestFinished call.requestId c.request.remediationItemId c.scanId db)
    (honce : once → Outstanding call.requestId db) (hwrite : c.write actor moment db = .ok db') :
    (RemediationCall.completeVerification call).Writes once moment db db' := by
  unfold Completion.write at hwrite
  simp only at hwrite
  split_ifs at hwrite with hcoverage hlegal
  · cases hwrite
    exact ⟨rfl, .complete call c hid hout hresult hcompletedAt rfl fun _ hj =>
      (hj.of_items_eq rfl).elim⟩
  · obtain ⟨hrequests, hscans, -, hentry⟩ := applyTransition_entry db hwrite rfl
    refine ⟨hscans, .complete call c hid hout hresult hcompletedAt hrequests fun j hj => ?_⟩
    obtain ⟨rfl, htarget⟩ := hentry j hj
    refine ⟨?_, hretest, honce⟩
    unfold Completion.target at htarget
    split_ifs at htarget with hpassed
    exact hpassed
  · cases hwrite
    exact ⟨rfl, .complete call c hid hout hresult hcompletedAt rfl fun _ hj =>
      (hj.of_items_eq rfl).elim⟩

theorem completeVerification_writes (svc : RemediationServices) (call : CompletionCall) :
    WritesSafely once (.completeVerification call) (completeVerification svc call) db := by
  unfold WritesSafely Safe completeVerification
  simp only [ensures_bind, ensures_query]
  intro _ db₁ _ hJ request hrequest
  have hrequest₁ : request ∈ db₁.request call.requestId := by
    split at hrequest
    · cases hrequest
    · next q hq =>
      cases hrequest
      exact (Option.filter_eq_some_iff.mp hq).1
  split_ifs with hcompleted
  · exact writes_nothing
  · have hout : request.outstanding := by simpa [VerificationRequest.outstanding] using hcompleted
    obtain ⟨hresult, hcompletedAt, hretest⟩ := hJ _ request hrequest₁ hout
    simp only [ensures_bind, ensures_query, ensures_raiseIf, ensures_check, ensures_pure]
    intro _ scanId hscan _ db₂ h₂ _ item hitem _ db₃ h₃ _ live _ _ db₄ h₄ _ coverageOk _ moment db₅
      db' h₅ _ hwrite
    have hscanId : scanId ∈ request.scanId := by
      split at hscan
      · cases hscan
      · next s hs => rw [Option.mem_def, hs, Except.ok.inj hscan]
    have hretest₅ : RetestFinished call.requestId request.remediationItemId scanId db₅ :=
      h₅.2.1 _ _ (h₄.2.1 _ _ (h₃.2.1 _ _ (h₂.2.1 _ _ (hretest scanId hscanId))))
    have hout₅ : once → Outstanding call.requestId db₅ := fun honce =>
      h₅.2.2 honce (h₄.2.2 honce (h₃.2.2 honce (h₂.2.2 honce ⟨request, hrequest₁, hout⟩)))
    exact Completion.write_writes once (request_id hrequest₁) hout hresult hcompletedAt hretest₅
      hout₅ hwrite

theorem prog_writes (svc : RemediationServices) (call : RemediationCall) :
    WritesSafely once call (call.prog svc) db := by
  cases call with
  | transition call => exact transition_writes once call
  | updateItem call => exact updateItem_writes once svc call
  | requestVerification call => exact requestVerification_writes once svc call
  | completeVerification call => exact completeVerification_writes once svc call
  | acceptRisk call => exact acceptRisk_writes once svc call
  | reopenForRegression call => exact reopenForRegression_writes once call

end

/-! ## What stays true of the requests -/

/-- Every request stays, and is linked to its scan as long as there is one. -/
def LinksKept (db db' : RemediationDb) : Prop :=
  ∀ r, ∀ q ∈ db.request r, ∃ q' ∈ db'.request r, q'.remediationItemId = q.remediationItemId ∧
    ∀ scanId ∈ q.scanId, (db'.scans scanId).isSome → q'.scanId = some scanId

/-- An outstanding request is what it was. -/
structure Continues (q q' : VerificationRequest) : Prop where
  outstanding : q.outstanding
  result : q'.result = q.result
  completedAt : q'.completedAt = q.completedAt
  remediationItemId : q'.remediationItemId = q.remediationItemId
  scanId : ∀ scanId ∈ q'.scanId, scanId ∈ q.scanId

section

variable {db db' : RemediationDb}

theorem RetestFinished.step {r id scanId : Uuid} (h : RetestFinished r id scanId db)
    (hgrows : Grows db db') (hlinks : LinksKept db db')
    (hscan : ∀ workspaceId projectId, FinishedFor workspaceId projectId scanId db →
      FinishedFor workspaceId projectId scanId db') : RetestFinished r id scanId db' := by
  obtain ⟨q, hq, hid, hqs, item, hitem, hfinished⟩ := h
  obtain ⟨q', hq', hid', hlink⟩ := hlinks r q hq
  obtain ⟨item', hitem', hissue, -⟩ := hgrows id item hitem
  have hfinished' := hscan _ _ hfinished
  refine ⟨q', hq', hid'.trans hid, hlink scanId hqs ?_, item', hitem', ?_⟩
  · obtain ⟨scan, hrow, -⟩ := hfinished'
    rw [Option.mem_def.mp hrow]
    rfl
  · rw [hissue.workspaceId, hissue.projectId]
    exact hfinished'

/-- The retests of outstanding requests stay finished when the old ones do and the new ones are. -/
theorem RetestsFinished.step (h : RetestsFinished db)
    (hkeep : ∀ r, ∀ q ∈ db.request r, q.outstanding → ∀ scanId ∈ q.scanId,
      RetestFinished r q.remediationItemId scanId db →
        RetestFinished r q.remediationItemId scanId db')
    (hback : ∀ r, ∀ q' ∈ db'.request r, q'.outstanding → (∃ q ∈ db.request r, Continues q q') ∨
      q'.result = none ∧ q'.completedAt = none ∧
        ∀ scanId ∈ q'.scanId, RetestFinished r q'.remediationItemId scanId db') :
    RetestsFinished db' := by
  intro r q' hq' hout'
  rcases hback r q' hq' hout' with ⟨q, hq, hcont⟩ | hnew
  · obtain ⟨hresult, hcompletedAt, hretest⟩ := h r q hq hcont.outstanding
    refine ⟨hcont.result.trans hresult, hcont.completedAt.trans hcompletedAt, fun s hs => ?_⟩
    rw [hcont.remediationItemId]
    have hsq := hcont.scanId s hs
    exact hkeep r q hq hcont.outstanding s hsq (hretest s hsq)
  · exact hnew

/-- Rewriting the requests keeps their links. -/
theorem LinksKept.of_map {f : VerificationRequest → VerificationRequest}
    (hid : ∀ q, (f q).id = q.id) (hitem : ∀ q, (f q).remediationItemId = q.remediationItemId)
    (hscan : ∀ q, ∀ scanId ∈ q.scanId, (db'.scans scanId).isSome → (f q).scanId = some scanId)
    (h : db'.requests = db.requests.map f) : LinksKept db db' := by
  intro r q hq
  exact ⟨f q, mem_request_map hid h hq, hitem q, hscan q⟩

theorem completeRequest_links (c : Completion) (now : ℤ) (q : VerificationRequest) :
    (completeRequest c now q).remediationItemId = q.remediationItemId ∧
      (completeRequest c now q).scanId = q.scanId := by
  unfold completeRequest
  split_ifs <;> exact ⟨rfl, rfl⟩

theorem completeRequest_of_ne {c : Completion} {now : ℤ} {q : VerificationRequest}
    (h : q.id ≠ c.request.id) : completeRequest c now q = q := if_neg h

/-- The request that a completion has read is completed. -/
theorem completeRequest_self {c : Completion} (now : ℤ) {q : VerificationRequest}
    (hid : q.id = c.request.id) (hout : c.request.outstanding) (hresult : c.request.result = none)
    (hcompletedAt : c.request.completedAt = none) :
    (completeRequest c now q).status = .completed ∧
      (completeRequest c now q).result = some c.outcome ∧
      (completeRequest c now q).completedAt = some now := by
  have hstatus : c.request.status ≠ .completed := of_decide_eq_true hout
  simp [completeRequest, hid, Versions.flush, hresult, hcompletedAt, Ne.symm hstatus]

variable {once : Prop} {moment : Moment} {call : RemediationCall}

theorem RequestWrite.linksKept (h : RequestWrite once moment db db' call) : LinksKept db db' := by
  cases h with
  | none _ hrequests _ =>
    intro r q hq
    exact ⟨q, (request_of_eq hrequests).symm ▸ hq, rfl, fun _ hs _ => hs⟩
  | insert call baseline _ hrequests _ _ _ =>
    intro r q hq
    exact ⟨q, mem_request_append hrequests hq, rfl, fun _ hs _ => hs⟩
  | complete call c _ _ _ _ hrequests _ =>
    exact .of_map (completeRequest_id c moment.now) (fun q => (completeRequest_links c _ q).1)
      (fun q _ hs _ => (completeRequest_links c _ q).2.trans hs) hrequests

/-- An outstanding request stays outstanding unless the call completes it. -/
theorem RequestWrite.outstanding (h : RequestWrite once moment db db' call) {r : Uuid}
    (hr : ∀ c, call = .completeVerification c → c.requestId ≠ r) (hout : Outstanding r db) :
    Outstanding r db' := by
  obtain ⟨q, hq, hout⟩ := hout
  cases h with
  | none _ hrequests _ => exact ⟨q, (request_of_eq hrequests).symm ▸ hq, hout⟩
  | insert call baseline _ hrequests _ _ _ => exact ⟨q, mem_request_append hrequests hq, hout⟩
  | complete call c hid _ _ _ hrequests _ =>
    have hne : q.id ≠ c.request.id := by
      rw [request_id hq, hid]
      exact Ne.symm (hr call rfl)
    refine ⟨q, ?_, hout⟩
    rw [← completeRequest_of_ne hne]
    exact mem_request_map (completeRequest_id c moment.now) hrequests hq

/-- **A commit keeps the retests of outstanding requests finished.** -/
theorem RemediationCall.Writes.retestsFinished (h : call.Writes once moment db db')
    (hdb : RetestsFinished db) (hgrows : Grows db db') : RetestsFinished db' := by
  have hlinks := h.requests.linksKept
  refine hdb.step (fun r q _ _ s _ hretest =>
    hretest.step hgrows hlinks fun _ _ h' => h'.of_scans_eq h.scans) fun r q' hq' hout' => ?_
  cases h.requests with
  | none _ hrequests _ =>
    rw [request_of_eq hrequests] at hq'
    exact .inl ⟨q', hq', hout', rfl, rfl, rfl, fun _ hs => hs⟩
  | insert call baseline hfresh hrequests hretest hitem _ =>
    rw [Option.mem_def, request_append hrequests, Option.or_eq_some_iff] at hq'
    rcases hq' with hq | ⟨-, hnew⟩
    · exact .inl ⟨q', hq, hout', rfl, rfl, rfl, fun _ hs => hs⟩
    · obtain ⟨hid, heq⟩ := Option.ite_none_right_eq_some.mp hnew
      cases heq
      refine .inr ⟨rfl, rfl, fun s hs => ?_⟩
      obtain ⟨item, hitem, hworkspace, hproject⟩ := hitem
      refine ⟨call.request moment.newId baseline, ?_, rfl, hs, item, hitem, ?_⟩
      · rw [Option.mem_def, request_append hrequests, ← hid]
        simp [VerificationCall.request, hfresh]
      · rw [hworkspace, hproject]
        exact (hretest s hs).of_scans_eq h.scans
  | complete call c hid hout hresult hcompletedAt hrequests _ =>
    obtain ⟨q, hq, rfl⟩ := of_mem_request_map (completeRequest_id c moment.now) hrequests hq'
    by_cases hne : q.id = c.request.id
    · have hcompleted := (completeRequest_self moment.now hne hout hresult hcompletedAt).1
      simp [VerificationRequest.outstanding, hcompleted] at hout'
    · rw [completeRequest_of_ne hne] at hout' ⊢
      exact .inl ⟨q, hq, hout', rfl, rfl, rfl, fun _ hs => hs⟩

/-- **A commit that verifies an item** has completed a request whose retest has passed. -/
theorem RemediationCall.Writes.earned (h : call.Writes once moment db db') (hgrows : Grows db db')
    {id : Uuid} (hentry : Enters id db db') : Earned once moment.now id db db' := by
  have hlinks := h.requests.linksKept
  cases h.requests with
  | none _ _ hno => exact absurd hentry (hno id)
  | insert _ _ _ _ _ _ hno => exact absurd hentry (hno id)
  | complete call c hid hout hresult hcompletedAt hrequests hearned =>
    obtain ⟨hpassed, hretest, honce⟩ := hearned id hentry
    have hretest' := hretest.step hgrows hlinks fun _ _ h' => h'.of_scans_eq h.scans
    obtain ⟨q, hq, hitem, -⟩ := hretest
    obtain ⟨q', hq', hitem', hscan', item, hrow, hfinished⟩ := hretest'
    have hself : q' = completeRequest c moment.now q := by
      obtain ⟨q₁, hq₁, rfl⟩ := of_mem_request_map (completeRequest_id c moment.now) hrequests hq'
      rw [Option.some.inj (hq₁.symm.trans hq)]
    obtain ⟨hstatus, hpass, hcompleted⟩ := completeRequest_self moment.now
      ((request_id hq).trans hid.symm) hout hresult hcompletedAt
    refine ⟨call.requestId, q, hq, q', hq', c.scanId, hscan', item, hrow, hitem, hitem', ?_, ?_, ?_,
      hfinished, fun h => ?_⟩
    · rw [hself, hstatus]
    · rw [hself, hpass, hpassed]
    · rw [hself, hcompleted]
    · obtain ⟨q₁, hq₁, hout₁⟩ := honce h
      rwa [← Option.some.inj (hq₁.symm.trans hq)]

end

/-! ## What the others do to the requests -/

/-- What a claim, and the deletion of a scan, leave of a request. -/
structure Relinks (scans : Table Uuid Scan) (q q' : VerificationRequest) : Prop where
  id : q'.id = q.id
  remediationItemId : q'.remediationItemId = q.remediationItemId
  result : q'.result = q.result
  completedAt : q'.completedAt = q.completedAt
  outstanding : q'.outstanding = q.outstanding
  cleared : ∀ scanId ∈ q'.scanId, scanId ∈ q.scanId
  scanId : ∀ scanId ∈ q.scanId, (scans scanId).isSome → q'.scanId = some scanId

theorem Relinks.refl (scans : Table Uuid Scan) (q : VerificationRequest) : Relinks scans q q :=
  ⟨rfl, rfl, rfl, rfl, rfl, fun _ hs => hs, fun _ hs _ => hs⟩

theorem claimVerification_relinks (scans : Table Uuid Scan) (now : ℤ) (id workerToken : Uuid)
    (q : VerificationRequest) : Relinks scans q (claimVerification now id workerToken q) := by
  unfold claimVerification
  split_ifs with hpending
  · refine ⟨rfl, rfl, rfl, rfl, ?_, fun _ hs => hs, fun _ hs _ => hs⟩
    simp [VerificationRequest.outstanding, hpending.2]
  · exact .refl scans q

section

variable {S : RemediationSystem} {e : Elsewhere} {db db' : RemediationDb}

theorem Elsewhere.apply_requests (h : e.apply db = some db') :
    ∃ f, db'.requests = db.requests.map f ∧ ∀ q, Relinks db'.scans q (f q) := by
  cases e with
  | createItem id issue =>
    obtain ⟨-, rfl⟩ := createItem_eq h
    exact ⟨fun q => q, List.map_id'' (fun _ => rfl) _ |>.symm, fun q => .refl _ q⟩
  | claimVerification now id workerToken =>
    obtain rfl := Option.some.inj h
    exact ⟨_, rfl, claimVerification_relinks _ now id workerToken⟩
  | write members scans vulnerabilities toolRuns =>
    obtain rfl := Option.some.inj h
    refine ⟨_, rfl, fun q => ⟨rfl, rfl, rfl, rfl, rfl, fun s hs => ?_, fun s hs hsome => ?_⟩⟩
    · exact (Option.filter_eq_some_iff.mp hs).1
    · exact Option.filter_eq_some_iff.mpr ⟨hs, hsome⟩

/-- A new item is not verified. -/
theorem Elsewhere.not_enters (h : e.apply db = some db') (id : Uuid) : ¬ Enters id db db' := by
  cases e with
  | createItem newId issue =>
    rintro ⟨hbefore, row, hrow, hverified⟩
    obtain ⟨-, hitems, -⟩ := createItem_eq_some h
    rw [hitems, Option.mem_def, Table.set_apply] at hrow
    split_ifs at hrow with hid
    · cases hrow
      cases hverified
    · exact hbefore row hrow hverified
  | claimVerification now id workerToken =>
    obtain rfl := Option.some.inj h
    exact fun hentry => hentry.of_items_eq rfl
  | write members scans vulnerabilities toolRuns =>
    obtain rfl := Option.some.inj h
    exact fun hentry => hentry.of_items_eq rfl

/-- The retests that the system is about stay finished. -/
theorem RetestsKept.finished (h : RetestsKept S (.other e)) (he : e.apply S.db = some db')
    {workspaceId projectId scanId : Uuid} (hretest : IsRetest S scanId)
    (hfinished : FinishedFor workspaceId projectId scanId S.db) :
    FinishedFor workspaceId projectId scanId db' := by
  cases e with
  | createItem id issue =>
    obtain ⟨-, rfl⟩ := createItem_eq he
    exact hfinished
  | claimVerification now id workerToken =>
    obtain rfl := Option.some.inj he
    exact hfinished
  | write members scans vulnerabilities toolRuns =>
    obtain rfl := Option.some.inj he
    exact h scanId workspaceId projectId hretest hfinished

theorem Elsewhere.apply_linksKept (h : e.apply db = some db') : LinksKept db db' := by
  obtain ⟨f, hrequests, hf⟩ := Elsewhere.apply_requests h
  exact .of_map (fun q => (hf q).id) (fun q => (hf q).remediationItemId) (fun q => (hf q).scanId)
    hrequests

theorem Elsewhere.apply_outstanding (h : e.apply db = some db') {r : Uuid}
    (hout : Outstanding r db) : Outstanding r db' := by
  obtain ⟨f, hrequests, hf⟩ := Elsewhere.apply_requests h
  obtain ⟨q, hq, hout⟩ := hout
  exact ⟨f q, mem_request_map (fun q => (hf q).id) hrequests hq, (hf q).outstanding ▸ hout⟩

theorem RetestsKept.retestsFinished (h : RetestsKept S (.other e))
    (he : e.apply S.db = some db') (hS : RetestsFinished S.db) : RetestsFinished db' := by
  refine hS.step (fun r q hq hout s hs hretest => ?_) fun r q' hq' hout' => .inl ?_
  · have hlinked : IsRetest S s := .inl ⟨r, q, hq, hout, hs⟩
    exact hretest.step (Elsewhere.apply_commit he).grows (Elsewhere.apply_linksKept he)
      fun _ _ => h.finished he hlinked
  · obtain ⟨f, hrequests, hf⟩ := Elsewhere.apply_requests he
    obtain ⟨q, hq, rfl⟩ := of_mem_request_map (fun q => (hf q).id) hrequests hq'
    exact ⟨q, hq, (hf q).outstanding ▸ hout', (hf q).result, (hf q).completedAt,
      (hf q).remediationItemId, (hf q).cleared⟩

end

/-! ## Steps and runs -/

section

variable {once : Prop}

theorem RemediationCall.relies_refl (call : RemediationCall) (db : RemediationDb) :
    call.Relies once db db := by
  cases call with
  | requestVerification call => exact ⟨.refl db, fun _ _ h => h⟩
  | completeVerification call => exact ⟨.refl db, fun _ _ h => h, fun _ h => h⟩
  | transition call | updateItem call | acceptRisk call | reopenForRegression call =>
    exact Grows.refl db

theorem RemediationCall.Relies.trans {call : RemediationCall} {db₁ db₂ db₃ : RemediationDb}
    (h₁₂ : call.Relies once db₁ db₂) (h₂₃ : call.Relies once db₂ db₃) :
    call.Relies once db₁ db₃ := by
  cases call with
  | requestVerification call =>
    exact ⟨h₁₂.1.trans h₂₃.1, fun s hs h => h₂₃.2 s hs (h₁₂.2 s hs h)⟩
  | completeVerification call =>
    exact ⟨h₁₂.1.trans h₂₃.1, fun id s h => h₂₃.2.1 id s (h₁₂.2.1 id s h),
      fun honce h => h₂₃.2.2 honce (h₁₂.2.2 honce h)⟩
  | transition call | updateItem call | acceptRisk call | reopenForRegression call =>
    exact Grows.trans h₁₂ h₂₃

/-- What a call relies on, put together. -/
theorem RemediationCall.Relies.of {call : RemediationCall} {db db' : RemediationDb}
    (hgrows : Grows db db') (hlinks : LinksKept db db')
    (hscan : ∀ scanId ∈ call.retest db, ∀ workspaceId projectId,
      FinishedFor workspaceId projectId scanId db → FinishedFor workspaceId projectId scanId db')
    (hout : ∀ c, call = .completeVerification c → once → Outstanding c.requestId db →
      Outstanding c.requestId db') : call.Relies once db db' := by
  cases call with
  | requestVerification call => exact ⟨hgrows, fun s hs h => hscan s hs _ _ h⟩
  | completeVerification call =>
    refine ⟨hgrows, fun id s h => h.step hgrows hlinks (hscan s ?_), hout call rfl⟩
    obtain ⟨q, hq, -, hqs, -⟩ := h
    simp [RemediationCall.retest, Option.mem_def.mp hq, hqs]
  | transition call | updateItem call | acceptRisk call | reopenForRegression call =>
    exact hgrows

/-- The invariant of a run: every call keeps both of its promises, and under `once` the completions
in progress are of different requests. -/
structure RemediationSystem.Fenced (once : Prop) (S : RemediationSystem) : Prop where
  sound : S.Sound
  writes : Sessions.Sound (RemediationCall.Relies once) RetestsFinished
    (RemediationCall.Writes once) S
  alone : once → ∀ n m c c' txn txn', S.sessions n = some ⟨.completeVerification c, txn⟩ →
    S.sessions m = some ⟨.completeVerification c', txn'⟩ → c.requestId = c'.requestId → n = m

/-- What is asked of the steps. -/
structure Careful (once : Prop) (S : RemediationSystem) (a : RemediationStep) : Prop where
  callers : CallersRead S a
  retests : RetestsKept S a
  completions : once → OneCompletion S a

variable {svc : RemediationServices} {S S' : RemediationSystem} {a : RemediationStep}

theorem fenced_alone (hS : S.Fenced once) (ha : Careful once S a)
    (h : remediationStep svc a S = some S') (honce : once) {n m : ℕ} {c c' : CompletionCall}
    {txn txn' : RemediationTxn RemediationWrite}
    (hn : S'.sessions n = some ⟨.completeVerification c, txn⟩)
    (hm : S'.sessions m = some ⟨.completeVerification c', txn'⟩)
    (hsame : c.requestId = c'.requestId) : n = m := by
  rcases act_call h hn with rfl | ⟨txn₁, hn₁⟩
  · rcases act_call h hm with heq | ⟨txn₂, hm₂⟩
    · cases heq
      rfl
    · exact absurd hsame.symm (ha.completions honce m _ hm₂ c' rfl)
  · rcases act_call h hm with rfl | ⟨txn₂, hm₂⟩
    · exact absurd hsame (ha.completions honce n _ hn₁ c rfl)
    · exact hS.alone honce n m c c' txn₁ txn₂ hn₁ hm₂ hsame

theorem remediationStep_fenced (hS : S.Fenced once) (ha : Careful once S a)
    (h : remediationStep svc a S = some S') : S'.Fenced once := by
  refine ⟨remediationStep_sound hS.sound ha.callers h, ?_, fun honce n m c c' txn txn' hn hm =>
    fenced_alone hS ha h honce hn hm⟩
  refine Sessions.Sound.act hS.writes (fun c d _ => c.relies_refl d)
    (fun c _ _ _ => RemediationCall.Relies.trans) ?_ ?_ ?_ h
  · intro n c _
    exact prog_writes once svc c
  · intro n moment c write db hadvance hn hw hwrites
    have hcommit : Commit S.db db :=
      Sessions.Sound.commit hS.sound (fun _ db _ => Grows.refl db) hn hw
    refine ⟨hwrites.retestsFinished hS.writes.inv hcommit.grows, fun m session hmn hm => ?_⟩
    refine .of hcommit.grows hwrites.requests.linksKept
      (fun _ _ _ _ h => h.of_scans_eq hwrites.scans) fun c' hc' honce hout => ?_
    refine hwrites.requests.outstanding (fun c₀ hc₀ hsame => hmn ?_) hout
    subst hc₀
    obtain ⟨call, txn⟩ := session
    cases hc'
    exact hS.alone honce m n _ _ _ _ hm hn hsame.symm
  · rintro e db rfl he
    refine ⟨ha.retests.retestsFinished he hS.writes.inv, fun m session hm => ?_⟩
    refine .of (Elsewhere.apply_commit he).grows (Elsewhere.apply_linksKept he)
      (fun s hs _ _ hfinished => ?_) fun _ _ _ hout => Elsewhere.apply_outstanding he hout
    exact ha.retests.finished he (.inr ⟨m, session, hm, hs⟩) hfinished

/-- **A step that verifies an item** is a commit that has earned it. -/
theorem remediationStep_earned (hS : S.Fenced once) (h : remediationStep svc a S = some S')
    {id : Uuid} (hentry : Enters id S.db S'.db) :
    ∃ n moment, a = .advance n moment ∧ Earned once moment.now id S.db S'.db := by
  rcases act_cases h with ⟨n, c, -, rfl⟩ | ⟨n, i, c, next, -, -, rfl⟩ |
    ⟨n, moment, c, write, db, rfl, hn, hw, rfl⟩ | ⟨n, rfl⟩ | ⟨e, db, -, he, rfl⟩
  · exact (hentry.of_items_eq rfl).elim
  · exact (hentry.of_items_eq rfl).elim
  · have hcommit : Commit S.db db :=
      Sessions.Sound.commit hS.sound (fun _ db _ => Grows.refl db) hn hw
    have hwrites := hS.writes.commit (fun c d _ => c.relies_refl d) hn hw
    exact ⟨n, moment, rfl, hwrites.earned hcommit.grows hentry⟩
  · exact (hentry.of_items_eq rfl).elim
  · exact (Elsewhere.not_enters he id hentry).elim

theorem RemediationSystem.Start.fenced (hS : S.Start) : S.Fenced once where
  sound := hS.sound
  writes :=
    { inv := fun r q hq => by simp [RemediationDb.request, hS.requests] at hq
      safe := fun n c txn hn => by
        rw [hS.sessions n] at hn
        cases hn }
  alone _ n m c c' txn txn' hn := by
    rw [hS.sessions n] at hn
    cases hn

end

/-- The tables of the scanner are written. -/
def writesTables : RemediationStep → Bool
  | .other (.write _ _ _ _) => true
  | _ => false

theorem retestsKept_of_not_writesTables {S : RemediationSystem} {a : RemediationStep}
    (h : writesTables a = false) : RetestsKept S a := by
  unfold RetestsKept
  split
  · cases h
  all_goals trivial

/-- A laboratory whose scan has failed. -/
def failedDb : RemediationDb := { labDb with
  scans := Table.ofList [(5, { Scan.created 1 2 3 [] 0 with status := .failed })]
  toolRuns := [] }

/-- The failed scan, claimed again. -/
def runningScans : Table Uuid Scan := (failedDb.scans.update 5 (claimScan 4 8)).getD failedDb.scans

/-- The failed scan is linked to a request, claimed again and run by a first tool, and the request
is completed. -/
def labRerun : List RemediationStep :=
  [.other (.createItem 4 ⟨1, 2, "template:t", some "High", 1, none⟩),
    .call 0 (labTransition 1 .accepted)] ++ labAdvance 0 2 1 ++
    [.call 1 (labTransition 2 .inProgress)] ++ labAdvance 1 2 2 ++
    [.call 2 (.requestVerification ⟨⟨1, 2, 4, 6, 3⟩, some 5⟩)] ++ labAdvance 2 5 3 ++
    [.other (.write [] runningScans [] labDb.toolRuns),
      .call 3 (.completeVerification ⟨1, 9, none, none⟩)] ++ labAdvance 3 4 5

theorem runningScans_running {scanId : Uuid} {scan : Scan} (h : runningScans scanId = some scan) :
    scan.status = .running := by
  have hset : runningScans = failedDb.scans.set 5
      { Scan.created 1 2 3 [] 0 with
        status := .running, startedAt := some (sqlNow 4), executionToken := some 8 } := rfl
  rw [hset, Table.set_apply] at h
  split_ifs at h with hid
  · cases h
    rfl
  · have hnone : failedDb.scans scanId = none :=
      List.lookup_eq_none_iff.mpr (by simpa using hid)
    rw [hnone] at h
    cases h

end ScanPlatform

import ScanPlatform.Remediation.Completion

/-!
# What the remediation functions leave alone

The tables of the scanner, the requests, and which issue an item is for. A call from its first
statement to its commit, while nobody else does anything.

* `RemediationDb.lasting`, `RemediationDb.spared`: what no call changes, and what only verifications
  do; `EndsLeaving`: a call that leaves it alone;
* `Bystander`: what leaves a part of the database alone in every call;
* `prog_spares`, **`exec_spared`**, **`exec_lasting`**: which calls do;
* `RequestMade`, **`exec_requestVerification`**: what a request writes;
* `Decides`, **`exec_completeVerification`**, `exec_of_decides`: a completion and the facts that it
  has read.
-/

set_option autoImplicit false

namespace ScanPlatform

open Sessions

/-- The project and the issue of an item. -/
def RemediationItem.issue (item : RemediationItem) : Uuid × Uuid × String :=
  (item.workspaceId, item.projectId, item.issueKey)

/-- What no call changes. -/
def RemediationDb.lasting (db : RemediationDb) :
    (List Vulnerability × Table Uuid Scan × List ToolRun) × Table (Uuid × String) Uuid ×
      (Uuid → Option (Uuid × Uuid × String)) :=
  ((db.vulnerabilities, db.scans, db.toolRuns), db.issues, fun id => (db.items id).map (·.issue))

/-- What a call changes that is neither a request nor a completion of a verification. -/
def RemediationDb.spared (db : RemediationDb) :
    ((List Vulnerability × Table Uuid Scan × List ToolRun) × Table (Uuid × String) Uuid ×
      (Uuid → Option (Uuid × Uuid × String))) × List VerificationRequest :=
  (db.lasting, db.requests)

/-- A write that leaves a part of the database alone. -/
def Leaves {α : Type} (part : RemediationDb → α) (write : RemediationWrite) : Prop :=
  ∀ moment db db', write moment db = .ok db' → part db' = part db

/-- A program that ends in a write that leaves a part of the database alone. -/
abbrev EndsLeaving {α : Type} (part : RemediationDb → α)
    (txn : RemediationTxn RemediationWrite) : Prop :=
  ∀ db, txn.Ensures (fun _ _ => True) (fun _ => True) (fun write _ => Leaves part write) db

/-- The event tells that an acceptance has ended. -/
def EventType.endsAcceptance : EventType → Bool
  | .riskAcceptanceRevoked | .riskAcceptanceExpired => true
  | _ => false

/-- A part of the database that a compare-and-set, an event of another kind and a new acceptance
leave alone. -/
structure Bystander {α : Type} (part : RemediationDb → α) : Prop where
  bump : ∀ {id item assigned version db db'},
    bumpVersion id item assigned version db = .ok db' → part db' = part db
  event : ∀ (db : RemediationDb) (id : Uuid) {t : EventType} (actor fromStatus toStatus detail),
    t.endsAcceptance = false →
      part (db.recordEvent id t actor fromStatus toStatus detail) = part db
  accept : ∀ {acceptance db db'}, insertAcceptance acceptance db = .ok db' → part db' = part db

section

variable {db db' : RemediationDb} {moment : Moment} {id : Uuid} {item assigned : RemediationItem}
  {version : ℕ} {α : Type} {part : RemediationDb → α}

theorem Bystander.applyTransition (hpart : Bystander part) {actor : Option Uuid}
    {toStatus : RemediationStatus} {detail : Option String}
    (h : applyTransition id item actor version toStatus detail moment db = .ok db') :
    part db' = part db := by
  obtain ⟨db₁, hbump, rfl⟩ := applyTransition_eq_ok h
  exact (hpart.event _ _ _ _ _ _ rfl).trans (hpart.bump hbump)

theorem Bystander.foldl_recordEvent (hpart : Bystander part) {β : Type} (item : β → Uuid)
    (t : β → EventType) (actor : Option Uuid) (detail : β → String) {l : List β}
    (h : ∀ x ∈ l, (t x).endsAcceptance = false) (db : RemediationDb) :
    part (l.foldl (fun db x => db.recordEvent (item x) (t x) actor none none (some (detail x)))
      db) = part db := by
  induction l generalizing db with
  | nil => rfl
  | cons x l ih =>
    rw [List.forall_mem_cons] at h
    exact (ih h.2 _).trans (hpart.event _ _ _ _ _ _ h.1)

theorem leaves_nothing (part : RemediationDb → α) : Leaves part fun _ db => .ok db :=
  fun _ _ _ h => by
    cases h
    rfl

/-- A flush does not say for which issue the item is. -/
theorem bumpVersion_spared (h : bumpVersion id item assigned version db = .ok db') :
    db'.spared = db.spared := by
  obtain ⟨row, hrow, -, rfl⟩ := bumpVersion_eq_ok.mp h
  unfold RemediationDb.spared RemediationDb.lasting
  congr 3
  funext j
  simp only [Table.set_apply]
  split_ifs with hj
  · subst hj
    rw [hrow]
    rfl
  · rfl

theorem bystander_spared : Bystander RemediationDb.spared where
  bump := bumpVersion_spared
  event _ _ _ _ _ _ _ _ := rfl
  accept h := by
    rw [insertAcceptance_eq_ok h]
    rfl

/-! ## The programs -/

theorem transition_spares (hpart : Bystander part) (call : TransitionCall) :
    EndsLeaving part (transition call) := by
  intro db
  unfold transition getItem
  simp only [ensures_bind, ensures_query, ensures_raiseIf, ensures_pure]
  intro _ db₁ _ _ item _ _ _ moment db₂ db₃ h
  exact hpart.applyTransition h

theorem updateItem_spares (hpart : Bystander part) (svc : RemediationServices)
    (call : UpdateCall) : EndsLeaving part (updateItem svc call) := by
  intro db
  unfold updateItem getItem
  simp only [ensures_bind, ensures_query]
  intro _ db₁ _ _ item _
  refine ensures_requireMember _ _ trivial fun db₂ _ => ?_
  split_ifs
  · exact leaves_nothing _
  · intro moment db₃ db₄ h
    obtain ⟨db₅, hbump, hfold⟩ := Checks.bind_eq_ok.mp h
    cases hfold
    have hkinds : ∀ t ∈ [EventType.assigned, .dueDateChanged, .priorityChanged, .notesChanged],
        t.endsAcceptance = false := by decide
    exact (hpart.foldl_recordEvent _ _ _ _ (fun change hchange =>
      hkinds _ (call.patch.apply_events svc item change hchange)) _).trans (hpart.bump hbump)

theorem acceptRisk_spares (hpart : Bystander part) (svc : RemediationServices)
    (call : AcceptanceCall) : EndsLeaving part (acceptRisk svc call) := by
  intro db
  unfold acceptRisk
  simp only [ensures_bind, ensures_query, ensures_raiseIf]
  intro _ db₁ _ _ now _ _ _ _ db₂ _ _ existing _ _
  split
  · exact fun moment db₃ db₄ h => hpart.accept h
  · unfold getItem
    simp only [ensures_bind, ensures_query]
    intro _ db₃ _ _ item _ moment db₄ db₅ h
    obtain ⟨db₆, hinsert, hwrite⟩ := Checks.bind_eq_ok.mp h
    split_ifs at hwrite
    exact ((hpart.applyTransition hwrite).trans (hpart.event _ _ _ _ _ _ rfl)).trans
      (hpart.accept hinsert)

theorem reopenForRegression_spares (hpart : Bystander part) (call : RegressionCall) :
    EndsLeaving part (reopenForRegression call) := by
  intro db
  unfold reopenForRegression
  simp only [ensures_bind, ensures_query]
  intro _ db₁ _ _ found _
  split
  · exact leaves_nothing _
  · split_ifs
    · exact fun moment db₂ db₃ h => hpart.applyTransition h
    · exact leaves_nothing _

theorem revokeRiskAcceptance_spares (call : RevocationCall) :
    EndsLeaving RemediationDb.spared (revokeRiskAcceptance call) := by
  intro db
  unfold revokeRiskAcceptance
  simp only [ensures_bind, ensures_query, ensures_raiseIf]
  intro _ db₁ _ _ a _ _
  refine ensures_namedItem a trivial fun item db₂ _ moment db₃ db₄ h => ?_
  unfold RevocationCall.write at h
  cases h
  cases item <;> rfl

theorem expireDueAcceptances_spares (workspaceId : Uuid) :
    EndsLeaving RemediationDb.spared (expireDueAcceptances workspaceId) := by
  intro db
  unfold expireDueAcceptances
  simp only [ensures_bind, ensures_query]
  intro _ db₁ _ _ due _
  split_ifs
  · exact leaves_nothing _
  · simp only [ensures_bind]
    refine ensures_namedItems (fun _ => trivial) (fun _ _ _ _ _ => trivial) due db₁ ?_
    intro items db₂ _ moment db₃ db₄ h
    rw [expireAll_eq_ok.mp h]
    rfl

/-- The operations that neither request a verification nor complete one. -/
theorem prog_spares (svc : RemediationServices) {op : RemediationOperation}
    (hrequest : ∀ call, op ≠ .workflow (.requestVerification call))
    (hcomplete : ∀ call, op ≠ .workflow (.completeVerification call)) :
    EndsLeaving RemediationDb.spared (op.prog svc) := by
  cases op with
  | workflow call =>
    cases call with
    | transition call => exact transition_spares bystander_spared call
    | updateItem call => exact updateItem_spares bystander_spared svc call
    | requestVerification call => exact absurd rfl (hrequest call)
    | completeVerification call => exact absurd rfl (hcomplete call)
    | acceptRisk call => exact acceptRisk_spares bystander_spared svc call
    | reopenForRegression call => exact reopenForRegression_spares bystander_spared call
  | revokeRiskAcceptance call => exact revokeRiskAcceptance_spares call
  | expireDueAcceptances workspaceId => exact expireDueAcceptances_spares workspaceId

/-- What a request writes. -/
structure RequestMade (call : VerificationCall) (moment : Moment) (db db' : RemediationDb) :
    Prop where
  lasting : db'.lasting = db.lasting
  fresh : db.request moment.newId = none
  requests : ∃ baseline, db'.requests = db.requests ++ [call.request moment.newId baseline]

theorem requestVerification_made (svc : RemediationServices) (call : VerificationCall)
    (db : RemediationDb) :
    (requestVerification svc call).Ensures (fun _ _ => True) (fun _ => True)
      (fun write _ => ∀ moment db db', write moment db = .ok db' → RequestMade call moment db db')
      db := by
  unfold requestVerification getItem
  simp only [ensures_bind, ensures_query, ensures_raiseIf, ensures_pure]
  intro _ db₁ _ _ item _ _
  refine ensures_requireProjectScan trivial fun db₂ _ _ => ?_
  intro _ db₃ _ _ outstanding _ _ _ db₄ _ _ baseline _ moment db₅ db₆ h
  obtain ⟨db₇, hinsert, happly⟩ := Checks.bind_eq_ok.mp h
  obtain ⟨hfresh, rfl⟩ := insertRequest_eq_ok.mp hinsert
  have hspared := bystander_spared.applyTransition happly
  exact ⟨congrArg Prod.fst hspared, hfresh, baseline, congrArg Prod.snd hspared⟩

theorem Completion.write_lasting (c : Completion) (actor : Option Uuid) :
    Leaves RemediationDb.lasting (c.write actor) := by
  intro moment db db' h
  unfold Completion.write at h
  dsimp only at h
  split_ifs at h
  · cases h
    rfl
  · exact congrArg Prod.fst (bystander_spared.applyTransition h)
  · cases h
    rfl

/-- A completion leaves alone what its write does, whatever it has read. -/
theorem completeVerification_leaves {α : Type} {part : RemediationDb → α}
    (hwrite : ∀ (c : Completion) actor, Leaves part (c.write actor)) (svc : RemediationServices)
    (call : CompletionCall) : EndsLeaving part (completeVerification svc call) := by
  intro db
  unfold completeVerification
  simp only [ensures_bind, ensures_query]
  intro _ db₁ _ _ request _
  split_ifs
  · exact leaves_nothing _
  · simp only [ensures_bind, ensures_query, ensures_raiseIf, ensures_check, ensures_pure]
    intro _ scanId _ _ db₂ _ _ item _ _ db₃ _ _ live _ _ db₄ _ _ coverageOk _
    exact hwrite _ _

theorem completeVerification_lasting (svc : RemediationServices) (call : CompletionCall) :
    EndsLeaving RemediationDb.lasting (completeVerification svc call) :=
  completeVerification_leaves Completion.write_lasting svc call

/-! ## A call alone -/

variable {svc : RemediationServices} {op : RemediationOperation}

theorem exec_spared (hrequest : ∀ call, op ≠ .workflow (.requestVerification call))
    (hcomplete : ∀ call, op ≠ .workflow (.completeVerification call))
    (h : exec (op.prog svc) moment db = .ok db') : db'.spared = db.spared := by
  obtain ⟨write, halone, hwrite⟩ := Checks.bind_eq_ok.mp h
  exact (prog_spares svc hrequest hcomplete db).alone trivial trivial halone moment db db' hwrite

theorem exec_requestVerification {call : VerificationCall}
    (h : exec (requestVerification svc call) moment db = .ok db') :
    RequestMade call moment db db' := by
  obtain ⟨write, halone, hwrite⟩ := Checks.bind_eq_ok.mp h
  exact (requestVerification_made svc call db).alone trivial trivial halone moment db db' hwrite

/-- **No call changes it.** -/
theorem exec_lasting (h : exec (op.prog svc) moment db = .ok db') : db'.lasting = db.lasting := by
  by_cases hrequest : ∃ call, op = .workflow (.requestVerification call)
  · obtain ⟨call, rfl⟩ := hrequest
    exact (exec_requestVerification h).lasting
  · by_cases hcomplete : ∃ call, op = .workflow (.completeVerification call)
    · obtain ⟨call, rfl⟩ := hcomplete
      obtain ⟨write, halone, hwrite⟩ := Checks.bind_eq_ok.mp h
      exact (completeVerification_lasting svc call db).alone trivial trivial halone moment db db'
        hwrite
    · exact congrArg Prod.fst (exec_spared (fun call hcall => hrequest ⟨call, hcall⟩)
        (fun call hcall => hcomplete ⟨call, hcall⟩) h)

/-- The facts of a completion of the request `q`, as they are in the database. -/
def RemediationDb.completion (svc : RemediationServices) (db : RemediationDb)
    (q : VerificationRequest) (scanId : Uuid) (item : RemediationItem) : Completion where
  request := q
  scanId
  item
  live := liveLocations svc db item.projectId item.issueKey scanId
  coverageOk := retestHadUsableDetectionCoverage db scanId

/-- A completion that decides a request, by its retest and for its item. -/
structure Decides (call : CompletionCall) (db : RemediationDb) (q : VerificationRequest)
    (scanId : Uuid) (item : RemediationItem) : Prop where
  request : db.request call.requestId = some q
  workspace : q.workspaceId = call.workspaceId
  outstanding : q.status ≠ .completed
  worker : call.workerToken.isSome → q.claimedByToken = call.workerToken
  scan : q.scanId = some scanId
  item : db.items q.remediationItemId = some item

/-- **A completion** finds its request completed, or writes what the database says. -/
theorem exec_completeVerification {call : CompletionCall}
    (h : exec (completeVerification svc call) moment db = .ok db') :
    ∃ q, db.request call.requestId = some q ∧ (q.status = .completed ∧ db' = db ∨
      ∃ scanId item, Decides call db q scanId item ∧
        (db.completion svc q scanId item).write call.actorUserId moment db = .ok db') := by
  obtain ⟨write, halone, hwrite⟩ := Checks.bind_eq_ok.mp h
  unfold completeVerification at halone
  rw [alone_bind] at halone
  obtain ⟨q, hq, halone⟩ := Checks.bind_eq_ok.mp halone
  rw [alone_query] at hq
  have hrequest : db.request call.requestId = some q ∧ q.workspaceId = call.workspaceId := by
    split at hq
    · cases hq
    · next row hrow =>
      cases hq
      simpa [Option.filter_eq_some_iff] using hrow
  refine ⟨q, hrequest.1, ?_⟩
  split_ifs at halone with hcompleted
  · cases halone
    cases hwrite
    exact .inl ⟨hcompleted, rfl⟩
  · simp only [alone_bind, alone_query, alone_check, alone_raiseIf, alone_pure] at halone
    obtain ⟨⟨⟩, howned, halone⟩ := Checks.bind_eq_ok.mp halone
    obtain ⟨scanId, hscan, halone⟩ := Checks.bind_eq_ok.mp halone
    obtain ⟨item, hitem, halone⟩ := Checks.bind_eq_ok.mp halone
    cases halone
    refine .inr ⟨scanId, item, ⟨hrequest.1, hrequest.2, hcompleted, ?_, ?_, ?_⟩, hwrite⟩
    · intro htoken
      by_contra hother
      simp [htoken, hother] at howned
    · split at hscan
      · cases hscan
      · next scanId' hscan' =>
        cases hscan
        exact hscan'
    · split at hitem
      · cases hitem
      · next row hrow => rw [hrow, Except.ok.inj hitem]

theorem exec_of_decides {call : CompletionCall} {q : VerificationRequest} {scanId : Uuid}
    (h : Decides call db q scanId item) : exec (completeVerification svc call) moment db =
      (db.completion svc q scanId item).write call.actorUserId moment db := by
  have hfilter : (db.request call.requestId).filter (·.workspaceId = call.workspaceId) = some q :=
    Option.filter_eq_some_iff.mpr ⟨h.request, by simp [h.workspace]⟩
  have howned : ¬ (call.workerToken.isSome ∧ q.claimedByToken ≠ call.workerToken) := fun hother =>
    hother.2 (h.worker hother.1)
  unfold exec completeVerification
  simp only [alone_bind, alone_query, hfilter, Except.bind]
  rw [if_neg h.outstanding]
  simp only [alone_bind, alone_query, alone_raiseIf, if_neg howned, alone_check, h.scan, h.item,
    alone_pure, Except.bind]
  rfl

end

end ScanPlatform

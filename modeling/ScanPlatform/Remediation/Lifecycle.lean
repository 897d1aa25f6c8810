import ScanPlatform.Remediation.Workflow

/-!
# The lifecycle of a remediation item

Any number of calls are in progress at once, and each caller expects a version that it has read.

* `Promises`: that a call, whatever the others do, commits as `Commit` says;
* `prog_promises`: every call does;
* `remediationStep_sound`, `remediationStep_logged`: what one step preserves, and what it writes;
* `Stamped`: the stamps of an item agree with its status;
* **`remediation_lifecycle`**: the rows that an item goes through in a run.
-/

set_option autoImplicit false

namespace ScanPlatform

open CondMachine Sessions Versions

/-! ## What the calls promise -/

/-- Whatever the others do, the transaction commits a change of the item that it has read. -/
abbrev Promises (txn : RemediationTxn RemediationWrite) (db : RemediationDb) : Prop :=
  Safe Grows RemediationDb.Consistent (fun _ => Commit) txn db

theorem HasRead.self {id : Uuid} {item : RemediationItem} {db : RemediationDb}
    (h : db.items id = some item) : HasRead id item item.version db :=
  ⟨item, h, .refl item, le_rfl⟩

/-- The call writes nothing. -/
theorem commits_nothing (db : RemediationDb) :
    Commits Grows RemediationDb.Consistent (fun _ => Commit)
      (fun _ db => .ok db : RemediationWrite) db := by
  intro _ db' db'' _ _ h
  cases h
  exact .refl db'

section

variable {db : RemediationDb} {row : RemediationItem}

theorem transition_promises {call : TransitionCall} (hrow : db.items call.itemId = some row)
    (hversion : call.expectedVersion ≤ row.version) : Promises (transition call) db := by
  unfold Promises Safe transition getItem
  simp only [ensures_bind, ensures_query, ensures_raiseIf, ensures_pure, findItem_eq_ok]
  intro _ db₁ h₁ _ item hitem _ hlegal moment db₂ db' h₂ _ hwrite
  have hread := (HasRead.of_caller hrow hversion h₁ hitem.1).later h₂
  exact (Commit.of_applyTransition hread (by simpa using hlegal) rfl (fun _ => rfl)
    (fun _ => .inl le_rfl) hwrite).1

/-- The check of an assignee takes one statement at most. -/
theorem ensures_requireMember {R : RemediationDb → RemediationDb → Prop}
    {J : RemediationDb → Prop} {Q : Unit → RemediationDb → Prop} (p : ItemPatch)
    (workspaceId : Uuid) (hrefl : R db db) (h : ∀ db', R db db' → Q () db') :
    (p.requireMember workspaceId).Ensures R J Q db := by
  unfold ItemPatch.requireMember requireWorkspaceMember
  split
  · exact h db hrefl
  · split_ifs
    · exact h db hrefl
    · exact ensures_query.mpr fun _ db' hR _ _ _ => h db' hR

/-- A patch commits when the session has read the item. -/
theorem Commit.of_patch (svc : RemediationServices) {db' db'' : RemediationDb} {id : Uuid}
    {item : RemediationItem} {version : ℕ} {p : ItemPatch} (actor : Option Uuid)
    (hread : HasRead id item version db)
    (hbump : bumpVersion id item (p.apply svc item).2 version db = .ok db')
    (hfold : (p.apply svc item).1.foldl (fun db change =>
      db.recordEvent id change.1 actor none none (some change.2)) db' = db'') : Commit db db'' := by
  have hkeeps := p.apply_keeps svc item
  obtain ⟨events, heq, htransitions⟩ := foldl_recordEvent id actor hkeeps.events db'
  obtain ⟨row, hrow, hversion, rfl⟩ := bumpVersion_eq_ok.mp hbump
  obtain ⟨row', hrow', hbehind, hle⟩ := hread
  obtain rfl : row' = row := Option.some.inj (hrow'.symm.trans hrow)
  obtain rfl : item = row' := hbehind.eq_of_cas (hversion.le.trans hle)
  rw [heq] at hfold
  subst hfold
  refine Commit.of_item hrow (.patch svc p) ?_ (fun j => ?_) fun j => .inl le_rfl
  · rw [RemediationItem.flush_self hkeeps.sameIssue, hversion]
  · rw [transitionEntry, if_pos hkeeps.status.symm, ite_self, List.append_nil]
    exact htransitions j

theorem updateItem_promises (svc : RemediationServices) {call : UpdateCall}
    (hrow : db.items call.itemId = some row) (hversion : call.expectedVersion ≤ row.version) :
    Promises (updateItem svc call) db := by
  unfold Promises Safe updateItem getItem
  simp only [ensures_bind, ensures_query, findItem_eq_ok]
  intro _ db₁ h₁ _ item hitem
  have hread := HasRead.of_caller hrow hversion h₁ hitem.1
  refine ensures_requireMember _ _ (.refl db₁) fun db₂ h₂ => ?_
  split_ifs
  · exact commits_nothing db₂
  · intro _ db₃ db' h₃ _ hwrite
    obtain ⟨db₄, hbump, hfold⟩ := Checks.bind_eq_ok.mp hwrite
    exact Commit.of_patch svc _ ((hread.later h₂).later h₃) hbump (Except.ok.inj hfold)

/-- The scan that a request names has finished. -/
theorem ensures_requireProjectScan {R : RemediationDb → RemediationDb → Prop}
    {J : RemediationDb → Prop} {Q : Unit → RemediationDb → Prop} {workspaceId projectId : Uuid}
    {scanId : Option Uuid} (hrefl : R db db) (h : ∀ db', R db db' →
      (∀ scan ∈ scanId, FinishedFor workspaceId projectId scan db') → Q () db') :
    (requireProjectScan workspaceId projectId scanId).Ensures R J Q db := by
  unfold requireProjectScan
  split
  · exact h db hrefl (by simp)
  · next scanId =>
    refine ensures_query.mpr fun _ db' hR _ _ hcheck => h db' hR fun scan hscan => ?_
    cases hscan
    split at hcheck
    · cases hcheck
    · next scan hscan =>
      obtain ⟨hrow, hscope⟩ := Option.filter_eq_some_iff.mp hscan
      obtain ⟨hworkspace, hproject⟩ := of_decide_eq_true hscope
      split_ifs at hcheck with hterminal
      exact ⟨scan, hrow, hworkspace, hproject, hterminal⟩

theorem insertRequest_eq_ok {request : VerificationRequest} {db' : RemediationDb} :
    insertRequest request db = .ok db' ↔
      db.request request.id = none ∧ db' = { db with requests := db.requests ++ [request] } := by
  unfold insertRequest
  cases db.request request.id with
  | none => simp [eq_comm]
  | some q => simp

/-- A new request is an outstanding one of its item. -/
theorem outstanding_insert (call : VerificationCall) (id : Uuid) (baseline : List String)
    (j : Uuid) :
    ({ db with requests := db.requests ++ [call.request id baseline] } : RemediationDb).outstanding
        j = db.outstanding j ++ if j = call.itemId then [call.request id baseline] else [] := by
  simp only [RemediationDb.outstanding, List.filter_append]
  by_cases hj : j = call.itemId
  · subst hj
    simp [VerificationCall.request, VerificationRequest.outstanding]
  · simp [VerificationCall.request, hj, Ne.symm hj]

theorem requestVerification_promises (svc : RemediationServices) {call : VerificationCall}
    (hrow : db.items call.itemId = some row) (hversion : call.expectedVersion ≤ row.version) :
    Promises (requestVerification svc call) db := by
  unfold Promises Safe requestVerification getItem
  simp only [ensures_bind, ensures_query, ensures_raiseIf, ensures_pure, findItem_eq_ok]
  intro _ db₁ h₁ _ item hitem hlegal
  have hread₁ := HasRead.of_caller hrow hversion h₁ hitem.1
  refine ensures_requireProjectScan (.refl db₁) fun db₂ h₂ _ => ?_
  intro _ db₃ h₃ _ outstanding hout hnone _ db₄ h₄ _ baseline _ moment db₅ db' h₅ _ hwrite
  have hread₃ := (hread₁.later h₂).later h₃
  -- The check of other requests still holds at the commit, for the item as it was read.
  have hclear₃ : NoneOutstanding call.itemId item db₃ := fun _ => by
    rw [← Except.ok.inj hout] at hnone
    simpa using hnone
  have hclear₅ := (hclear₃.later hread₃ h₄).later (hread₃.later h₄) h₅
  obtain ⟨db₆, hinsert, happly⟩ := Checks.bind_eq_ok.mp hwrite
  obtain ⟨-, rfl⟩ := insertRequest_eq_ok.mp hinsert
  refine (Commit.of_applyTransition ((hread₃.later h₄).later h₅) (by simpa using hlegal) ?_
    (fun j => ?_) (fun j => ?_) happly).1
  · rfl
  · rw [RemediationDb.recordEvent_transitions_of_ne _ _ _ _ _ _ _ _ (by decide)]
    rfl
  · rw [RemediationDb.recordEvent_outstanding, outstanding_insert]
    by_cases hj : j = call.itemId
    · subst hj
      refine .inr ⟨rfl, fun hitem₅ => ⟨hclear₅ hitem₅, ?_⟩⟩
      simp [hclear₅ hitem₅]
    · simp [hj]

theorem completeRequest_outstanding (c : Completion) (now : ℤ) (q : VerificationRequest)
    (h : (completeRequest c now q).outstanding) : q.outstanding := by
  unfold completeRequest at h
  split_ifs at h with hid
  · simp only [VerificationRequest.outstanding, Versions.flush] at h ⊢
    split_ifs at h with hread
    · exact h
    · simp at h
  · exact h

theorem Completion.record_outstanding_le (c : Completion) (actor : Option Uuid) (now : ℤ)
    (j : Uuid) : ((c.record actor now db).outstanding j).length ≤ (db.outstanding j).length := by
  refine outstanding_map_le (fun q => ?_) (completeRequest_outstanding c now) db.requests j
  unfold completeRequest
  split_ifs <;> rfl

theorem Completion.record_transitions (c : Completion) (actor : Option Uuid) (now : ℤ) (j : Uuid) :
    (c.record actor now db).transitions j = db.transitions j :=
  RemediationDb.recordEvent_transitions_of_ne _ _ _ _ _ _ _ _ (by decide)

/-- A completion commits when the session has read the item. -/
theorem Completion.write_commits (c : Completion) (actor : Option Uuid) (moment : Moment)
    {db' : RemediationDb}
    (hread : HasRead c.request.remediationItemId c.item c.item.version db)
    (hwrite : c.write actor moment db = .ok db') : Commit db db' := by
  have hrecord : Commit db (c.record actor moment.now db) :=
    .of_items_eq rfl (c.record_transitions actor moment.now)
      (c.record_outstanding_le actor moment.now)
  unfold Completion.write at hwrite
  simp only at hwrite
  split_ifs at hwrite with hcoverage hlegal
  · cases hwrite
    exact hrecord
  · refine (Commit.of_applyTransition hread hlegal ?_ (fun j => ?_) (fun j => ?_) hwrite).1
    · rfl
    · exact c.record_transitions actor moment.now j
    · exact .inl (c.record_outstanding_le actor moment.now j)
  · cases hwrite
    exact hrecord

theorem completeVerification_promises (svc : RemediationServices) (call : CompletionCall) :
    Promises (completeVerification svc call) db := by
  unfold Promises Safe completeVerification
  simp only [ensures_bind, ensures_query]
  intro _ db₁ h₁ _ request hrequest
  split_ifs
  · exact commits_nothing db₁
  · simp only [ensures_bind, ensures_query, ensures_raiseIf, ensures_check, ensures_pure]
    intro _ scanId _ _ db₂ h₂ _ item hitem _ db₃ h₃ _ live _ _ db₄ h₄ _ coverageOk _ moment db₅
      db' h₅ _ hwrite
    have hitem₂ : db₂.items request.remediationItemId = some item := by
      split at hitem
      · cases hitem
      · next row hrow => rw [hrow, Except.ok.inj hitem]
    exact Completion.write_commits _ _ moment
      ((((HasRead.self hitem₂).later h₃).later h₄).later h₅) hwrite

theorem insertAcceptance_eq_ok {acceptance : RiskAcceptance} {db' : RemediationDb}
    (h : insertAcceptance acceptance db = .ok db') :
    db' = { db with acceptances := db.acceptances ++ [acceptance] } := by
  unfold insertAcceptance at h
  split_ifs at h
  exact (Except.ok.inj h).symm

theorem acceptRisk_promises (svc : RemediationServices) {call : AcceptanceCall}
    (hrow : ∀ id version, call.remediationItemId = some id → call.expectedVersion = some version →
      ∃ row, db.items id = some row ∧ version ≤ row.version) :
    Promises (acceptRisk svc call) db := by
  unfold Promises Safe acceptRisk
  simp only [ensures_bind, ensures_query, ensures_raiseIf]
  intro _ db₁ h₁ _ now _ _ _ _ db₂ h₂ _ existing _ _
  split
  · intro _ db₃ db' _ _ hwrite
    rw [insertAcceptance_eq_ok hwrite]
    exact .of_items_eq rfl (fun _ => rfl) fun _ => le_rfl
  · next id hid =>
    unfold getItem
    simp only [ensures_bind, ensures_query, findItem_eq_ok]
    intro _ db₃ h₃ _ item hitem moment db₄ db' h₄ _ hwrite
    have hread : HasRead id item (call.expectedVersion.getD item.version) db₃ := by
      cases hversion : call.expectedVersion with
      | none => exact .self hitem.1
      | some version =>
        obtain ⟨row, hrow, hle⟩ := hrow id version hid hversion
        exact .of_caller hrow hle ((h₁.trans h₂).trans h₃) hitem.1
    obtain ⟨db₅, hinsert, hwrite⟩ := Checks.bind_eq_ok.mp hwrite
    obtain rfl := insertAcceptance_eq_ok hinsert
    split_ifs at hwrite with hlegal
    refine (Commit.of_applyTransition (hread.later h₄) (by simpa using hlegal) ?_ (fun j => ?_)
      (fun j => ?_) hwrite).1
    · rfl
    · exact RemediationDb.recordEvent_transitions_of_ne _ _ _ _ _ _ _ _ (by decide)
    · exact .inl le_rfl

theorem reopenForRegression_promises (call : RegressionCall) :
    Promises (reopenForRegression call) db := by
  unfold Promises Safe reopenForRegression
  simp only [ensures_bind, ensures_query]
  intro _ db₁ h₁ _ found hfound
  split
  · exact commits_nothing db₁
  · next id item =>
    split_ifs with hlegal
    · intro moment db₂ db' h₂ _ hwrite
      have hitem : db₁.items id = some item := by
        obtain ⟨id', -, hbind⟩ := Option.bind_eq_some_iff.mp (Except.ok.inj hfound)
        obtain ⟨row, hrow, hscope⟩ := Option.bind_eq_some_iff.mp hbind
        obtain ⟨-, heq⟩ := Option.ite_none_right_eq_some.mp hscope
        cases heq
        exact hrow
      refine (Commit.of_applyTransition ((HasRead.self hitem).later h₂) hlegal ?_ (fun j => ?_)
        (fun j => ?_) hwrite).1
      · rfl
      · rfl
      · exact .inl le_rfl
    · exact commits_nothing db₁

/-- **Every call keeps its promise** when its caller expects a version that the item has had. -/
theorem prog_promises (svc : RemediationServices) {call : RemediationCall}
    (h : ∀ e ∈ call.expected, ∃ row ∈ db.items e.1, e.2 ≤ row.version) :
    Promises (call.prog svc) db := by
  cases call with
  | transition call =>
    obtain ⟨row, hrow, hle⟩ := h _ rfl
    exact transition_promises hrow hle
  | updateItem call =>
    obtain ⟨row, hrow, hle⟩ := h _ rfl
    exact updateItem_promises svc hrow hle
  | requestVerification call =>
    obtain ⟨row, hrow, hle⟩ := h _ rfl
    exact requestVerification_promises svc hrow hle
  | completeVerification call => exact completeVerification_promises svc call
  | acceptRisk call =>
    refine acceptRisk_promises svc fun id version hid hversion => h (id, version) ?_
    simp [RemediationCall.expected, hid, hversion]
  | reopenForRegression call => exact reopenForRegression_promises call

end

/-! ## Steps -/

theorem createItem_eq_some {id : Uuid} {issue : NewIssue} {db db' : RemediationDb}
    (h : createItem id issue db = some db') :
    db.items id = none ∧ db'.items = db.items.set id issue.item ∧
      (∀ j, db'.transitions j = db.transitions j) ∧
      ∀ j, db'.outstanding j = db.outstanding j := by
  obtain ⟨hid, rfl⟩ := createItem_eq h
  refine ⟨hid, rfl, fun j => ?_, fun j => rfl⟩
  exact RemediationDb.recordEvent_transitions_of_ne _ _ _ _ _ _ _ _ (by decide)

theorem createItem_commit {id : Uuid} {issue : NewIssue} {db db' : RemediationDb}
    (h : createItem id issue db = some db') : Commit db db' := by
  obtain ⟨hid, hitems, htransitions, hout⟩ := createItem_eq_some h
  refine ⟨fun j row hrow => .inl ⟨?_, htransitions j⟩, fun j hnone => ⟨htransitions j, ?_⟩,
    fun j => .inl (hout j ▸ le_rfl)⟩
  · have hj : j ≠ id := by
      rintro rfl
      simp [hrow] at hid
    exact (congrFun hitems j).trans (Table.set_of_ne _ _ hj)
  · intro item hitem
    rw [hitems, Table.set_apply] at hitem
    split_ifs at hitem with hj
    · cases hitem
      exact ⟨rfl, rfl, rfl, rfl⟩
    · rw [hnone] at hitem
      cases hitem

/-- A new item is fresh, and what else is written leaves the items alone. -/
theorem Elsewhere.apply_commit {e : Elsewhere} {db db' : RemediationDb}
    (h : e.apply db = some db') : Commit db db' := by
  cases e with
  | createItem id issue => exact createItem_commit h
  | claimVerification now id workerToken =>
    obtain rfl := Option.some.inj h
    refine .of_items_eq rfl (fun _ => rfl) fun j => ?_
    refine outstanding_map_le (fun q => ?_) (fun q hq => ?_) db.requests j
    · unfold ScanPlatform.claimVerification
      split_ifs <;> rfl
    · unfold ScanPlatform.claimVerification at hq
      split_ifs at hq with hpending
      · simp [VerificationRequest.outstanding, hpending.2]
      · exact hq
  | write members scans vulnerabilities toolRuns =>
    obtain rfl := Option.some.inj h
    refine .of_items_eq rfl (fun _ => rfl) fun j => ?_
    refine outstanding_map_le (fun q => ?_) (fun q hq => ?_) db.requests j
    · rfl
    · exact hq

/-- Every call in progress keeps its promise, and no item has two outstanding requests. -/
abbrev RemediationSystem.Sound (S : RemediationSystem) : Prop :=
  Sessions.Sound (fun _ => Grows) RemediationDb.Consistent (fun _ _ => Commit) S

section

variable {svc : RemediationServices} {S S' : RemediationSystem} {a : RemediationStep}

/-- **A step commits**, or leaves the database alone. -/
theorem remediationStep_commit (hS : S.Sound) (h : remediationStep svc a S = some S') :
    Commit S.db S'.db := by
  rcases act_cases h with ⟨n, c, -, rfl⟩ | ⟨n, i, c, next, -, -, rfl⟩ |
    ⟨n, i, c, write, db, -, hn, hw, rfl⟩ | ⟨n, rfl⟩ | ⟨e, db, -, he, rfl⟩
  · exact .refl S.db
  · exact .refl S.db
  · exact Sessions.Sound.commit hS (fun _ db _ => Grows.refl db) hn hw
  · exact .refl S.db
  · exact Elsewhere.apply_commit he

theorem next_commit (hS : S.Sound) (a : RemediationStep) :
    Commit S.db (next (remediationStep svc) S a).db := by
  rcases next_cases (remediationStep svc) S a with h | ⟨-, h⟩
  · exact remediationStep_commit hS h
  · rw [h]
    exact .refl S.db

theorem remediationStep_sound (hS : S.Sound) (ha : CallersRead S a)
    (h : remediationStep svc a S = some S') : S'.Sound := by
  refine Sessions.Sound.act hS (fun _ db _ => .refl db) (fun _ _ _ _ => .trans) ?_ ?_ ?_ h
  · rintro n c rfl
    exact prog_promises svc ha
  · intro _ _ _ _ db _ _ _ hcommit
    exact ⟨hcommit.consistent hS.inv, fun _ _ _ _ => hcommit.grows⟩
  · intro e db _ he
    have hcommit := Elsewhere.apply_commit he
    exact ⟨hcommit.consistent hS.inv, fun _ _ _ => hcommit.grows⟩

/-- A system in which every call keeps its promise and the item exists. -/
structure RemediationSystem.Has (id : Uuid) (S : RemediationSystem) : Prop where
  sound : S.Sound
  row : ∃ row, S.db.items id = some row

variable {id : Uuid}

theorem remediationStep_has (hS : S.Has id) (ha : CallersRead S a)
    (h : remediationStep svc a S = some S') : S'.Has id := by
  obtain ⟨row, hrow⟩ := hS.row
  obtain ⟨row', hrow', -⟩ := (remediationStep_commit hS.sound h).grows id row hrow
  exact ⟨remediationStep_sound hS.sound ha h, row', hrow'⟩

/-- The row of an item and its timeline in one step. -/
theorem remediationStep_logged (hS : S.Has id) (h : remediationStep svc a S = some S') :
    Logged (fun S : RemediationSystem => S.db.items id) (fun S => S.db.transitions id) ItemChange
      transitionEntry S S' := by
  obtain ⟨row, hrow⟩ := hS.row
  exact (remediationStep_commit hS.sound h).logged id row hrow

end

/-! ## Stamps -/

/-- The stamps of an item agree with its status. -/
structure RemediationItem.Stamped (item : RemediationItem) : Prop where
  resolvedAt : item.resolvedAt.isSome ↔
    item.status ∈ [RemediationStatus.verified, .closed, .riskAccepted]
  verifiedAt : item.verifiedAt.isSome ↔ item.status ∈ [RemediationStatus.verified, .closed]

/-- **A legal transition stamps the item rightly.** -/
theorem RemediationItem.Stamped.enter {item : RemediationItem} (h : item.Stamped) (now : ℤ)
    {toStatus : RemediationStatus} (hlegal : isLegal item.status toStatus) :
    (item.enter now toStatus).Stamped := by
  cases toStatus with
  | proposed | accepted | inProgress | reopened =>
    constructor <;> simp [RemediationItem.enter, resolvedStatuses, openStatuses]
  | verified => constructor <;> simp [RemediationItem.enter, resolvedStatuses]
  | awaitingVerification =>
    have hst : item.status = .inProgress := awaiting_of_inProgress hlegal
    have hverified := h.verifiedAt
    constructor
    · simp [RemediationItem.enter, resolvedStatuses, openStatuses]
    · simp only [hst] at hverified
      simpa [RemediationItem.enter, resolvedStatuses, openStatuses] using hverified
  | closed =>
    have hst : item.status = .verified := closed_of_verified hlegal
    have hverified := h.verifiedAt
    constructor
    · simp [RemediationItem.enter, resolvedStatuses]
    · simp only [hst] at hverified
      simpa [RemediationItem.enter, resolvedStatuses] using hverified
  | riskAccepted =>
    have hst := riskAccepted_of_unverified hlegal
    have hverified := h.verifiedAt
    constructor
    · simp [RemediationItem.enter, resolvedStatuses]
    · simp only [hst] at hverified
      simpa [RemediationItem.enter, resolvedStatuses] using hverified
  | rejected =>
    have hst := rejected_of_unresolved hlegal
    have hst' : item.status ∉ [RemediationStatus.verified, .closed] := fun hmem =>
      hst (List.mem_append_left [RemediationStatus.riskAccepted] hmem)
    have hresolved := h.resolvedAt
    have hverified := h.verifiedAt
    constructor
    · simp only [hst] at hresolved
      simpa [RemediationItem.enter, resolvedStatuses, openStatuses] using hresolved
    · simp only [hst'] at hverified
      simpa [RemediationItem.enter, resolvedStatuses, openStatuses] using hverified

theorem ItemChange.stamped {item item' : RemediationItem} (hchange : ItemChange item item')
    (h : item.Stamped) : item'.Stamped := by
  cases hchange with
  | enter now toStatus hlegal =>
    have henter := h.enter now hlegal
    exact ⟨henter.resolvedAt, henter.verifiedAt⟩
  | patch svc p =>
    have hkeeps := p.apply_keeps svc item
    constructor
    · show (p.apply svc item).2.resolvedAt.isSome ↔ (p.apply svc item).2.status ∈ _
      rw [hkeeps.resolvedAt, hkeeps.status]
      exact h.resolvedAt
    · show (p.apply svc item).2.verifiedAt.isSome ↔ (p.apply svc item).2.status ∈ _
      rw [hkeeps.verifiedAt, hkeeps.status]
      exact h.verifiedAt

/-! ## Runs -/

/-- Nobody has called yet, and there are no items. -/
structure RemediationSystem.Start (S : RemediationSystem) : Prop where
  sessions : ∀ n, S.sessions n = none
  items : ∀ id, S.db.items id = none
  events : S.db.events = []
  requests : S.db.requests = []

theorem RemediationItem.Fresh.stamped {item : RemediationItem} (h : item.Fresh) :
    item.Stamped := by
  constructor
  · simp [h.status, h.resolvedAt]
  · simp [h.status, h.verifiedAt]

theorem RemediationSystem.Start.sound {S : RemediationSystem} (h : S.Start) : S.Sound where
  inv := ⟨fun id => by simp [RemediationDb.outstanding, h.requests], fun id _ => by
    simp [RemediationDb.transitions, h.events]⟩
  safe n c txn hn := by
    rw [h.sessions n] at hn
    cases hn

theorem run_sound (svc : RemediationServices) {S : RemediationSystem} (hS : S.Start)
    {σ : List RemediationStep} (hσ : Along (remediationStep svc) CallersRead S σ) :
    (run (remediationStep svc) S σ).Sound :=
  run_invariant_along (fun _ _ _ => remediationStep_sound) hS.sound hσ

/-- What a run makes of an item that is there. -/
structure Lifecycle (rows : List RemediationItem) (id : Uuid) (final : RemediationDb) : Prop where
  last : final.items id = rows.getLast?
  versions : rows.map (·.version) = List.range' 1 rows.length
  changes : rows.IsChain ItemChange
  timeline : final.transitions id = consecutive transitionEntry rows
  stamped : ∀ row ∈ rows, row.Stamped

theorem lifecycle_of_fresh (svc : RemediationServices) {S : RemediationSystem} (hS : S.Sound)
    {id : Uuid} {item : RemediationItem} (hitem : S.db.items id = some item) (hfresh : item.Fresh)
    (htimeline : S.db.transitions id = []) {σ : List RemediationStep}
    (hσ : Along (remediationStep svc) CallersRead S σ) :
    Lifecycle (item :: commits (remediationStep svc) (fun S => S.db.items id) S σ) id
      (run (remediationStep svc) S σ).db := by
  have hhas : S.Has id := ⟨hS, item, hitem⟩
  have hstep : ∀ S a S', RemediationSystem.Has id S → CallersRead S a →
      remediationStep svc a S = some S' → RemediationSystem.Has id S' :=
    fun _ _ _ => remediationStep_has
  have hlogged : ∀ S a S', RemediationSystem.Has id S → CallersRead S a →
      remediationStep svc a S = some S' → Logged (fun S : RemediationSystem => S.db.items id)
        (fun S => S.db.transitions id) ItemChange transitionEntry S S' :=
    fun _ _ _ hS _ => remediationStep_logged hS
  have hchain := commits_chain hstep hlogged hhas hitem hσ
  refine ⟨(commits_getLast? hstep hlogged hhas hitem hσ).symm, ?_, hchain, ?_, ?_⟩
  · have hversions := map_eq_range' (hchain.imp fun _ _ h => h.version_eq)
    rwa [hfresh.version] at hversions
  · have hlog := log_commits hstep hlogged hhas hitem hσ
    rwa [htimeline, List.nil_append] at hlog
  · exact hchain.induction RemediationItem.Stamped _ (fun _ _ h => h.stamped) fun _ =>
      hfresh.stamped

/-- **The lifecycle of an item.** The rows that an item is given are numbered from one; each is a
change of the one before, so that no update is lost; its status follows the graph, and its timeline
has one transition for each change of it; and its stamps agree with its status throughout. -/
theorem remediation_lifecycle (svc : RemediationServices) {S : RemediationSystem} (hS : S.Start)
    (id : Uuid) {σ : List RemediationStep}
    (hσ : Along (remediationStep svc) CallersRead S σ) :
    let final := (run (remediationStep svc) S σ).db
    let rows := commits (remediationStep svc) (fun S => S.db.items id) S σ
    final.items id = rows.getLast? ∧
      rows.map (·.version) = List.range' 1 rows.length ∧
      rows.IsChain ItemChange ∧
      rows.IsChain (fun a b => b.status = a.status ∨ isLegal a.status b.status) ∧
      final.transitions id = consecutive transitionEntry rows ∧
      ∀ row ∈ rows,
        (row.resolvedAt.isSome ↔
          row.status ∈ [RemediationStatus.verified, .closed, .riskAccepted]) ∧
        (row.verifiedAt.isSome ↔ row.status ∈ [RemediationStatus.verified, .closed]) := by
  intro final rows
  have h : Lifecycle rows id final := by
    rcases commits_of_none (remediationStep svc) (fun S => S.db.items id) (hS.items id) σ with
      ⟨hrows, hnone⟩ | ⟨σ₁, a, σ₂, item, rfl, hnone, hitem, hrows⟩
    · have htimeline := (run_sound svc hS hσ).inv.timeline id hnone
      have hrows : rows = [] := hrows
      rw [hrows]
      exact ⟨hnone, rfl, .nil, htimeline, by simp⟩
    · have hbefore := run_sound svc hS hσ.prefix
      rw [List.append_cons] at hσ
      have hcommit := @next_commit svc _ hbefore a
      rw [← run_concat] at hcommit
      obtain ⟨htimeline, hfresh⟩ := hcommit.created id hnone
      have hlife := lifecycle_of_fresh svc (run_sound svc hS hσ.prefix) hitem
        (hfresh item hitem) (htimeline.trans (hbefore.inv.timeline id hnone)) (Along.drop hσ)
      rw [← run_append, ← List.append_cons] at hlife
      have hrows : rows = item :: _ := hrows
      rw [hrows]
      exact hlife
  exact ⟨h.last, h.versions, h.changes, h.changes.imp fun _ _ h => h.status, h.timeline,
    fun row hrow => ⟨(h.stamped row hrow).resolvedAt, (h.stamped row hrow).verifiedAt⟩⟩

/-- A laboratory: a project with a finished scan on which a detection tool has found nothing. -/
def labDb : RemediationDb where
  items _ := none
  issues _ := none
  events := []
  requests := []
  acceptances := []
  members := []
  scans := Table.ofList [(5, { Scan.created 1 2 3 [] 0 with status := .completed })]
  vulnerabilities := []
  toolRuns := [{
    scanId := 5, toolName := "nuclei", toolVersion := "3", status := .completed
    commandHash := "", effectiveCommand := none, timedOut := false, startedAt := 0
    completedAt := some 1, exitCode := some 0, rawOutputRef := none, errorMessage := none }]

def labServices : RemediationServices := ⟨fun _ => false, fun _ => ""⟩

/-- The statements of a call up to its commit. -/
def labAdvance (n count : ℕ) (now : ℤ) : List RemediationStep :=
  List.replicate count (.advance n ⟨now, 9⟩)

def labTransition (version : ℕ) (toStatus : RemediationStatus) : RemediationCall :=
  .transition ⟨⟨1, 2, 4, 6, version⟩, toStatus, none⟩

/-- An item is created; a transition and an update race for its first version. -/
def labRace : List RemediationStep :=
  [.other (.createItem 4 ⟨1, 2, "template:t", some "High", 1, none⟩),
    .call 0 (labTransition 1 .accepted),
    .call 1 (.updateItem ⟨⟨1, 2, 4, 6, 1⟩, ⟨none, false, none, false, some .low, none⟩⟩)] ++
    labAdvance 0 1 1 ++ labAdvance 1 1 1 ++ labAdvance 0 1 2 ++ labAdvance 1 1 2

/-- The work on the item, its retest, and a regression. -/
def labRetest : List RemediationStep :=
  [.call 2 (labTransition 2 .inProgress)] ++ labAdvance 2 2 3 ++
    [.call 3 (.requestVerification ⟨⟨1, 2, 4, 6, 3⟩, some 5⟩)] ++ labAdvance 3 5 4 ++
    [.call 4 (.completeVerification ⟨1, 9, none, none⟩)] ++ labAdvance 4 5 5 ++
    [.call 5 (.reopenForRegression ⟨1, 2, "template:t"⟩)] ++ labAdvance 5 2 6

/-- The loser of the race changes nothing, and the item is reopened after its retest. -/
theorem remediation_lifecycle_retest :
    let rows := commits (remediationStep labServices) (fun S => S.db.items 4)
      ⟨labDb, fun _ => none⟩ (labRace ++ labRetest)
    rows.map (·.status) =
        [.proposed, .accepted, .inProgress, .awaitingVerification, .verified, .reopened] ∧
      rows.map (·.priority) = List.replicate 6 .high ∧
      rows.map (·.version) = List.range' 1 rows.length ∧
      ∀ row ∈ rows, row.verifiedAt.isSome ↔ row.status ∈ [RemediationStatus.verified, .closed] := by
  intro rows
  have hstart : RemediationSystem.Start ⟨labDb, fun _ => none⟩ :=
    ⟨fun _ => rfl, fun _ => rfl, rfl, rfl⟩
  have hcallers : Along (remediationStep labServices) CallersRead ⟨labDb, fun _ => none⟩
      (labRace ++ labRetest) := by decide
  have h := remediation_lifecycle labServices hstart 4 hcallers
  exact ⟨by decide, by decide, h.2.1, fun row hrow => (h.2.2.2.2.2 row hrow).2⟩

end ScanPlatform

import ScanPlatform.Remediation.Operations

/-!
# Completions of verification requests

A completion reads the status of its request before it derives the outcome, and its commit does not
look at the request again.

* `AboutToWrite`: a session that has read a request and an item, and is going to write the outcome;
* `Completes`, `CompletionsMatch`, `CompletedOnce`: that a request is completed once, and that its
  answer stays;
* `InTime`: a completion is committed while its request is outstanding;
* **`completed_once_iff`**: a request is completed once when its completions are in time, and only
  then;
* `ItemsAwaited`, `NotMovedOn`, **`items_awaited_iff`**: when a completion moves only an item that
  awaits it.
-/

set_option autoImplicit false

namespace ScanPlatform

open CondMachine Sessions Versions

/-- The session is going to write this outcome, for a request and an item that it has read. -/
structure AboutToWrite (S : OperationSystem) (n : ℕ) (call : CompletionCall) (c : Completion) :
    Prop where
  session : S.sessions n =
    some ⟨.workflow (.completeVerification call), .ok (c.write call.actorUserId)⟩
  id : c.request.id = call.requestId
  read : c.ReadBefore S.db

/-! ## Completed once -/

/-- The request was outstanding, and is completed. -/
def Completes (r : Uuid) (before after : RemediationDb) : Prop :=
  Outstanding r before ∧ ∃ q ∈ after.request r, q.status = .completed

/-- A request that is completed keeps its answer. -/
def AnswersKept (before after : RemediationDb) : Prop :=
  ∀ r, ∀ q ∈ before.request r, q.status = .completed → ∃ q' ∈ after.request r,
    q'.status = .completed ∧ q'.result = q.result ∧ q'.detail = q.detail ∧
      q'.completedAt = q.completedAt

/-- A step keeps the answers, and records one event when it completes a request and none when it
completes none. -/
structure CompletionsMatch (before after : RemediationDb) : Prop where
  kept : AnswersKept before after
  event : ∀ r, Completes r before after → ∃ q ∈ after.request r, ∃ e,
    e.remediationItemId = q.remediationItemId ∧ after.completions = before.completions ++ [e]
  none : (∀ r, ¬ Completes r before after) → after.completions = before.completions

/-- Every step of the run matches, and no request is completed by two of them. -/
structure CompletedOnce (svc : RemediationServices) (S : OperationSystem)
    (σ : List OperationStep) : Prop where
  steps : ∀ σ₁ a σ₂, σ = σ₁ ++ a :: σ₂ → CompletionsMatch
    (run (operationStep svc) S σ₁).db (run (operationStep svc) S (σ₁ ++ [a])).db
  once : ∀ r σ₁ a σ₂ τ₁ b τ₂, σ = σ₁ ++ a :: σ₂ → σ = τ₁ ++ b :: τ₂ →
    Completes r (run (operationStep svc) S σ₁).db (run (operationStep svc) S (σ₁ ++ [a])).db →
    Completes r (run (operationStep svc) S τ₁).db (run (operationStep svc) S (τ₁ ++ [b])).db →
      σ₁ = τ₁

/-- A completion that its compare-and-set does not refuse is committed while its request is
outstanding. -/
def InTime (S : OperationSystem) : OperationStep → Prop
  | .advance n moment => ∀ call c db, AboutToWrite S n call c →
    c.write call.actorUserId moment S.db = .ok db → Outstanding call.requestId S.db
  | .call _ _ | .drop _ | .other _ => True

section

variable {db db' : RemediationDb} {moment : Moment}

theorem not_completes_of_outstanding {r : Uuid} {q : VerificationRequest} (hq : q ∈ db'.request r)
    (hout : q.outstanding) : ¬ Completes r db db' := by
  rintro ⟨-, q', hq', hst⟩
  obtain rfl : q = q' := Option.some.inj (hq.symm.trans hq')
  simp [VerificationRequest.outstanding, hst] at hout

/-- Nothing is completed when every request keeps its status and its answer. -/
theorem CompletionsMatch.of_kept (h : ∀ r, ∀ q ∈ db.request r, ∃ q' ∈ db'.request r,
      q'.outstanding = q.outstanding ∧ q'.result = q.result ∧ q'.detail = q.detail ∧
        q'.completedAt = q.completedAt)
    (hcompletions : db'.completions = db.completions) : CompletionsMatch db db' := by
  refine ⟨fun r q hq hst => ?_, fun r hr => ?_, fun _ => hcompletions⟩
  · obtain ⟨q', hq', hout, hanswer⟩ := h r q hq
    refine ⟨q', hq', ?_, hanswer⟩
    simpa [VerificationRequest.outstanding, hst] using hout
  · obtain ⟨q, hq, hout⟩ := hr.1
    obtain ⟨q', hq', hout', -⟩ := h r q hq
    exact absurd hr (not_completes_of_outstanding hq' (hout'.trans hout))

theorem CompletionsMatch.of_same (h : db'.requests = db.requests)
    (hcompletions : db'.completions = db.completions) : CompletionsMatch db db' :=
  .of_kept (fun _ q hq => ⟨q, (request_of_eq h).symm ▸ hq, rfl, rfl, rfl, rfl⟩) hcompletions

theorem CompletionsMatch.of_elsewhere (h : ElsewhereWrites db db') : CompletionsMatch db db' := by
  obtain ⟨f, hrequests, hf⟩ := h.requests
  refine .of_kept (fun r q hq => ?_) h.completions
  obtain ⟨-, -, hout, hanswer⟩ := hf q
  exact ⟨f q, mem_request_map (fun q => (hf q).1) hrequests hq, hout, hanswer⟩

/-- A completion leaves the other requests alone. -/
theorem completeRequest_other {c : Completion} (h : db'.requests =
      db.requests.map (completeRequest c moment.now)) {r : Uuid} (hr : r ≠ c.request.id)
    {q : VerificationRequest} (hq : q ∈ db.request r) : q ∈ db'.request r := by
  have hne : q.id ≠ c.request.id := by rwa [request_id hq]
  rw [← completeRequest_of_ne hne]
  exact mem_request_map (completeRequest_id c moment.now) h hq

/-- **A completion in time** completes its request and no other. -/
theorem CompletionsMatch.of_complete {c : Completion} {actor : Option Uuid}
    (h : db'.requests = db.requests.map (completeRequest c moment.now))
    (hcompletions : db'.completions = db.completions ++ [c.event actor])
    (hread : c.ReadBefore db) (hout : c.request.outstanding)
    (htime : Outstanding c.request.id db) : CompletionsMatch db db' := by
  obtain ⟨q₀, hq₀, hout₀⟩ := htime
  have hq₀' := mem_request_map (completeRequest_id c moment.now) h hq₀
  have hst₀ : (completeRequest c moment.now q₀).status = .completed := by
    have hstatus : c.request.status ≠ .completed := of_decide_eq_true hout
    simp [completeRequest, request_id hq₀, Versions.flush, Ne.symm hstatus]
  have hcompletes : Completes c.request.id db db' := ⟨⟨q₀, hq₀, hout₀⟩, _, hq₀', hst₀⟩
  refine ⟨fun r q hq hst => ?_, fun r hr => ?_, fun hnone => absurd hcompletes (hnone _)⟩
  · have hne : r ≠ c.request.id := by
      rintro rfl
      obtain rfl : q = q₀ := Option.some.inj (hq.symm.trans hq₀)
      simp [VerificationRequest.outstanding, hst] at hout₀
    exact ⟨q, completeRequest_other h hne hq, hst, rfl, rfl, rfl⟩
  · by_cases hne : r = c.request.id
    · subst hne
      refine ⟨_, hq₀', c.event actor, ?_, hcompletions⟩
      obtain ⟨q, hq, hitem⟩ := hread.request
      obtain rfl : q = q₀ := Option.some.inj (hq.symm.trans hq₀)
      exact hitem.symm.trans (completeRequest_links c _ q).1.symm
    · obtain ⟨q, hq, hqout⟩ := hr.1
      exact absurd hr (not_completes_of_outstanding (completeRequest_other h hne hq) hqout)

/-- A completion that is late records an event and completes nothing. -/
theorem not_completionsMatch_of_late {c : Completion} {actor : Option Uuid}
    (h : db'.requests = db.requests.map (completeRequest c moment.now))
    (hcompletions : db'.completions = db.completions ++ [c.event actor])
    (hlate : ¬ Outstanding c.request.id db) : ¬ CompletionsMatch db db' := by
  intro hmatch
  have hsame := hmatch.none fun r hr => by
    by_cases hne : r = c.request.id
    · exact hlate (hne ▸ hr.1)
    · obtain ⟨q, hq, hqout⟩ := hr.1
      exact not_completes_of_outstanding (completeRequest_other h hne hq) hqout hr
  rw [hcompletions] at hsame
  simpa using congrArg List.length hsame

/-- What a completion writes to its request and to the timeline. -/
theorem Completion.write_request {c : Completion} {actor : Option Uuid}
    (hwrite : c.write actor moment db = .ok db') :
    db'.requests = db.requests.map (completeRequest c moment.now) ∧
      db'.completions = db.completions ++ [c.event actor] := by
  unfold Completion.write at hwrite
  simp only at hwrite
  split_ifs at hwrite with hcoverage hlegal
  · cases hwrite
    exact ⟨rfl, c.record_completions _ _⟩
  · obtain ⟨db₁, hbump, rfl⟩ := applyTransition_eq_ok hwrite
    obtain ⟨hrequests, -, hevents⟩ := bumpVersion_others hbump
    refine ⟨hrequests, ?_⟩
    rw [RemediationDb.recordEvent_completions _ _ (by decide),
      ← c.record_completions actor moment.now]
    unfold RemediationDb.completions
    rw [hevents]
  · cases hwrite
    exact ⟨rfl, c.record_completions _ _⟩

end

/-! ## When requests are completed once -/

section

variable {svc : RemediationServices} {S S' : OperationSystem} {a : OperationStep}

/-- The call is a completion, or its commit completes nothing. -/
theorem OperationWrites.completionsMatch {op : RemediationOperation} {moment : Moment}
    {db db' : RemediationDb} (h : OperationWrites op moment db db')
    (hop : ∀ call, op ≠ .workflow (.completeVerification call)) : CompletionsMatch db db' := by
  cases h.requests with
  | same _ hrequests hcompletions => exact .of_same hrequests hcompletions
  | insert _ q hrequests hcompletions =>
    exact .of_kept (fun r q hq => ⟨q, mem_request_append hrequests hq, rfl, rfl, rfl, rfl⟩)
      hcompletions
  | complete call _ _ _ => exact absurd rfl (hop call)

/-- **A step in time matches.** -/
theorem operationStep_completionsMatch (hS : S.Tracked) (htime : InTime S a)
    (h : operationStep svc a S = some S') : CompletionsMatch S.db S'.db := by
  rcases operationStep_cases hS h with hsame | ⟨n, moment, op, write, rfl, hn, hw, hbound⟩ |
    ⟨e, -, helsewhere⟩
  · exact .of_same (by rw [hsame]) (by rw [hsame])
  · by_cases hop : ∃ call, op = .workflow (.completeVerification call)
    · obtain ⟨call, rfl⟩ := hop
      rcases hbound.completion call rfl with rfl | ⟨c, rfl, hid, hout, hread⟩
      · rw [← Except.ok.inj hw]
        exact .of_same rfl rfl
      · obtain ⟨hrequests, hcompletions⟩ := Completion.write_request hw
        have houtstanding := htime call c _ ⟨hn, hid, hread⟩ hw
        exact .of_complete hrequests hcompletions hread hout (hid ▸ houtstanding)
    · exact (hbound.writes moment _ _ hw).completionsMatch fun call hcall => hop ⟨call, hcall⟩
  · exact .of_elsewhere helsewhere

/-- A step that is late does not match. -/
theorem inTime_of_completionsMatch
    (h : CompletionsMatch S.db (next (operationStep svc) S a).db) : InTime S a := by
  cases a with
  | advance n moment =>
    intro call c db hc hw
    by_contra hlate
    obtain ⟨hrequests, hcompletions⟩ := Completion.write_request hw
    have hdb : (next (operationStep svc) S (.advance n moment)).db = db :=
      next_of_commit hc.session hw
    rw [hdb] at h
    exact not_completionsMatch_of_late hrequests hcompletions (hc.id ▸ hlate) h
  | call _ _ | drop _ | other _ => trivial

end

/-- A step of the workflow. -/
def RemediationStep.operation : RemediationStep → OperationStep
  | .call n call => .call n (.workflow call)
  | .advance n moment => .advance n moment
  | .drop n => .drop n
  | .other e => .other e

/-- An item is created and worked on, and its verification is requested with the scan. -/
def labRequested : List RemediationStep :=
  [.other (.createItem 4 ⟨1, 2, "template:t", some "High", 1, none⟩),
    .call 0 (labTransition 1 .accepted)] ++ labAdvance 0 2 1 ++
    [.call 1 (labTransition 2 .inProgress)] ++ labAdvance 1 2 2 ++
    [.call 2 (.requestVerification ⟨⟨1, 2, 4, 6, 3⟩, some 5⟩)] ++ labAdvance 2 5 3

def labComplete (n : ℕ) : RemediationStep := .call n (.completeVerification ⟨1, 9, none, none⟩)

/-- The commit of a completion whose request is outstanding, which can be decided. -/
def inTimeBool (S : OperationSystem) : OperationStep → Bool
  | .advance n _ =>
    match S.sessions n with
    | some ⟨.workflow (.completeVerification call), .ok _⟩ =>
      decide (∃ q ∈ S.db.request call.requestId, q.outstanding = true)
    | _ => true
  | .call _ _ | .drop _ | .other _ => true

theorem inTime_of_inTimeBool {S : OperationSystem} {a : OperationStep} (h : inTimeBool S a) :
    InTime S a := by
  cases a with
  | advance n moment =>
    intro call c db hc _
    simp only [inTimeBool, hc.session] at h
    unfold Outstanding
    exact of_decide_eq_true h
  | call _ _ | drop _ | other _ => trivial

/-- The tools of the retest have not run. -/
def uncoveredDb : RemediationDb := { labDb with toolRuns := [] }

/-- Two completions of one request, up to the commit of the second. -/
def labTwice : List OperationStep :=
  (labRequested ++ [labComplete 3, labComplete 4] ++ labAdvance 3 4 4 ++ labAdvance 4 4 5 ++
    labAdvance 3 1 6 : List RemediationStep).map RemediationStep.operation

/-- Whenever a completion changes the status of an item, the item awaits it. -/
def ItemsAwaited (svc : RemediationServices) (S : OperationSystem) (σ : List OperationStep) :
    Prop :=
  ∀ σ₁ n moment σ₂ call txn, σ = σ₁ ++ .advance n moment :: σ₂ →
    (run (operationStep svc) S σ₁).sessions n =
      some ⟨.workflow (.completeVerification call), txn⟩ →
    ∀ id row row', (run (operationStep svc) S σ₁).db.items id = some row →
      (run (operationStep svc) S (σ₁ ++ [.advance n moment])).db.items id = some row' →
      row'.status ≠ row.status → row.status = .awaitingVerification

/-- A completion whose retest has found the issue alive is not committed on an item that has moved
on to one of the other statuses from which work is taken up, and is still as it was read. -/
def NotMovedOn (S : OperationSystem) : OperationStep → Prop
  | .advance n _ => ∀ call c, AboutToWrite S n call c → c.coverageOk → c.live.1 ≠ 0 →
    ∀ row ∈ S.db.items c.request.remediationItemId, row.version = c.item.version →
      row.status ∉ [RemediationStatus.accepted, .reopened, .riskAccepted]
  | .call _ _ | .drop _ | .other _ => True

section

variable {db db' : RemediationDb} {moment : Moment}

theorem Completion.outcome_eq_failed_iff (c : Completion) :
    c.outcome = .failed ↔ c.coverageOk ∧ c.live.1 ≠ 0 := by
  unfold Completion.outcome verificationOutcome
  cases c.coverageOk with
  | false => simp
  | true => by_cases hlive : c.live.1 = 0 <;> simp [hlive]

/-- **What a completion does to a status.** It changes the item that it has read, along the
graph. -/
theorem Completion.write_status {c : Completion} {actor : Option Uuid} (hread : c.ReadBefore db)
    (hwrite : c.write actor moment db = .ok db') {id : Uuid} {row row' : RemediationItem}
    (hrow : db.items id = some row) (hrow' : db'.items id = some row')
    (hne : row'.status ≠ row.status) :
    id = c.request.remediationItemId ∧ row = c.item ∧ c.outcome ≠ .incompleteCoverage ∧
      isLegal row.status c.target := by
  have hsame : ∀ db₁ : RemediationDb, db₁.items = db.items → db₁.items id = some row' → False := by
    intro db₁ hitems hdb₁
    rw [hitems, hrow] at hdb₁
    cases hdb₁
    exact hne rfl
  unfold Completion.write at hwrite
  simp only at hwrite
  split_ifs at hwrite with hcoverage hlegal
  · cases hwrite
    exact (hsame _ rfl hrow').elim
  · obtain ⟨db₁, hbump, rfl⟩ := applyTransition_eq_ok hwrite
    obtain ⟨row₁, row₁', hrow₁, hversion, hitems, -, -⟩ := bumpVersion_row hbump
    rw [RemediationDb.recordEvent_items, hitems, Table.set_apply] at hrow'
    split_ifs at hrow' with hid
    · subst hid
      obtain ⟨row₂, hrow₂, hbehind⟩ := hread.item
      obtain rfl : row₂ = row := Option.some.inj (hrow₂.symm.trans hrow)
      obtain rfl : row₂ = row₁ := Option.some.inj (hrow₂.symm.trans hrow₁)
      have hitem : c.item = row₂ := hbehind.eq_of_cas hversion.le
      refine ⟨rfl, hitem.symm, hcoverage, ?_⟩
      rwa [← hitem]
    · exact (hsame _ rfl hrow').elim
  · cases hwrite
    exact (hsame _ rfl hrow').elim

/-- A completion whose retest has found the issue alive takes up the work again. -/
theorem Completion.write_inProgress {c : Completion} {actor : Option Uuid} {row : RemediationItem}
    (hread : c.ReadBefore db) (hfailed : c.outcome = .failed)
    (hrow : db.items c.request.remediationItemId = some row)
    (hversion : row.version = c.item.version) (hlegal : isLegal row.status .inProgress) :
    ∃ db' row', c.write actor moment db = .ok db' ∧
      db'.items c.request.remediationItemId = some row' ∧ row'.status ≠ row.status := by
  obtain ⟨row₂, hrow₂, hbehind⟩ := hread.item
  obtain rfl : row₂ = row := Option.some.inj (hrow₂.symm.trans hrow)
  have hitem : c.item = row₂ := hbehind.eq_of_cas hversion.le
  have htarget : c.target = .inProgress := by simp [Completion.target, hfailed]
  have hst : row₂.status ≠ .inProgress := fun heq => by
    rw [heq] at hlegal
    exact not_isLegal_self _ hlegal
  have hassigned : (c.item.enter moment.now .inProgress).status ≠ c.item.status := by
    rw [RemediationItem.enter_status, hitem]
    exact hst.symm
  obtain ⟨db', happly⟩ : ∃ db', applyTransition c.request.remediationItemId c.item actor
      c.item.version .inProgress
      (some (s!"verification {c.outcome.text} ({c.live.1} live location(s))")) moment
      (c.record actor moment.now db) = .ok db' :=
    applyTransition_ok hrow hversion
  obtain ⟨db₁, hbump, hdb'⟩ := applyTransition_eq_ok happly
  obtain ⟨row', hrow', hst'⟩ := bumpVersion_status hbump hassigned
  refine ⟨db', row', ?_, ?_, ?_⟩
  · unfold Completion.write
    simp only [htarget, hitem]
    rw [if_neg (by rw [hfailed]; decide), if_pos hlegal]
    exact hitem ▸ happly
  · rw [hdb']
    exact hrow'
  · rw [hst', RemediationItem.enter_status]
    exact hst.symm

end

section

variable {svc : RemediationServices} {S : OperationSystem} {n : ℕ} {moment : Moment}
  {call : CompletionCall} {txn : RemediationTxn RemediationWrite} {id : Uuid}
  {row row' : RemediationItem}

/-- **A step of a completion** that is not on an item that has moved on. -/
theorem awaiting_of_step (hS : S.Tracked) (hnot : NotMovedOn S (.advance n moment))
    (hn : S.sessions n = some ⟨.workflow (.completeVerification call), txn⟩)
    (hrow : S.db.items id = some row)
    (hrow' : (next (operationStep svc) S (.advance n moment)).db.items id = some row')
    (hne : row'.status ≠ row.status) : row.status = .awaitingVerification := by
  have hsame : ∀ db : RemediationDb, db = S.db → db.items id = some row' → False := by
    rintro db rfl hdb
    rw [hrow] at hdb
    cases hdb
    exact hne rfl
  rcases next_cases (operationStep svc) S (.advance n moment) with hnext | ⟨-, hnext⟩
  · rcases operationStep_cases hS hnext with
      hdb | ⟨n', moment', op, write, heq, hn', hw, hbound⟩ | ⟨e, heq, -⟩
    · exact (hsame _ hdb hrow').elim
    · cases heq
      rw [hn] at hn'
      cases hn'
      rcases hbound.completion call rfl with rfl | ⟨c, rfl, hid, hout, hread⟩
      · exact (hsame _ (Except.ok.inj hw).symm hrow').elim
      · obtain ⟨rfl, hitem, hcoverage, hlegal⟩ := c.write_status hread hw hrow hrow' hne
        cases houtcome : c.outcome with
        | passed => exact awaiting_of_verified (by simpa [Completion.target, houtcome] using hlegal)
        | incompleteCoverage => exact absurd houtcome hcoverage
        | failed =>
          obtain ⟨hcovered, hlive⟩ := c.outcome_eq_failed_iff.mp houtcome
          have hst := hnot call c ⟨hn, hid, hread⟩ hcovered hlive row hrow (by rw [hitem])
          have htarget : isLegal row.status .inProgress := by
            simpa [Completion.target, houtcome] using hlegal
          exact (isLegal_inProgress_iff.mp htarget).resolve_right hst
    · cases heq
  · exact (hsame _ (by rw [hnext]) hrow').elim

end

/-- **A completion moves only an item that awaits it** exactly when none is committed on an item
that has moved on. -/
theorem items_awaited_iff (svc : RemediationServices) {S : OperationSystem}
    (hS : ∀ n, S.sessions n = none) (σ : List OperationStep) :
    ItemsAwaited svc S σ ↔ Along (operationStep svc) NotMovedOn S σ := by
  constructor
  · intro h σ₁ a σ₂ hσ
    cases a with
    | advance n moment =>
      intro call c hc hcovered hlive row hrow hversion hst
      have hfailed : c.outcome = .failed := c.outcome_eq_failed_iff.mpr ⟨hcovered, hlive⟩
      have hlegal : isLegal row.status .inProgress := isLegal_inProgress_iff.mpr (.inr hst)
      obtain ⟨db', row', hw, hrow', hne⟩ : ∃ db' row', c.write call.actorUserId moment
          (run (operationStep svc) S σ₁).db = .ok db' ∧
          db'.items c.request.remediationItemId = some row' ∧ row'.status ≠ row.status :=
        c.write_inProgress hc.read hfailed hrow hversion hlegal
      have hafter : (run (operationStep svc) S (σ₁ ++ [.advance n moment])).db = db' := by
        rw [run_concat]
        exact next_of_commit hc.session hw
      have hawaiting := h σ₁ n moment σ₂ call _ hσ hc.session _ row row' hrow (hafter ▸ hrow') hne
      rw [hawaiting] at hst
      exact absurd hst (by decide)
    | call _ _ | drop _ | other _ => trivial
  · intro h σ₁ n moment σ₂ call txn hσ hn id row row' hrow hrow' hne
    rw [run_concat] at hrow'
    exact awaiting_of_step (run_tracked svc hS σ₁) (h σ₁ _ σ₂ hσ) hn hrow hrow' hne

/-- The commit of a completion whose item awaits it, which can be decided. -/
def awaitedBool (S : OperationSystem) : OperationStep → Bool
  | .advance n _ =>
    match S.sessions n with
    | some ⟨.workflow (.completeVerification call), .ok _⟩ =>
      decide (∀ q ∈ S.db.request call.requestId, ∀ row ∈ S.db.items q.remediationItemId,
        row.status = .awaitingVerification)
    | _ => true
  | .call _ _ | .drop _ | .other _ => true

theorem notMovedOn_of_awaitedBool {S : OperationSystem} {a : OperationStep}
    (h : awaitedBool S a) : NotMovedOn S a := by
  cases a with
  | advance n moment =>
    intro call c hc _ _ row hrow _
    simp only [awaitedBool, hc.session] at h
    obtain ⟨q, hq, hitem⟩ := hc.read.request
    have hst := of_decide_eq_true h q (hc.id ▸ hq) row (by rwa [hitem])
    rw [hst]
    decide
  | call _ _ | drop _ | other _ => trivial

/-- The finding of the laboratory, which its scan has seen. -/
def labFinding : Vulnerability where
  id := 7
  projectId := 2
  fingerprint := "t|m|https://h/1"
  title := "T"
  category := none
  severity := "high"
  status := .open
  cvssScore := none
  lastSeenScanId := some 5

/-- The retest has found the issue alive. -/
def liveDb : RemediationDb := { labDb with vulnerabilities := [labFinding] }

/-- A completion sends an item that awaits it back to work. -/
theorem items_awaited_iff_lab :
    ItemsAwaited labServices ⟨liveDb, fun _ => none⟩
      ((labRequested ++ [labComplete 3] ++ labAdvance 3 5 4).map RemediationStep.operation) := by
  refine (items_awaited_iff labServices (fun _ => rfl) _).mpr fun σ₁ a σ₂ hσ => ?_
  have hbool : Along (operationStep labServices) (fun S a => awaitedBool S a)
      ⟨liveDb, fun _ => none⟩
      ((labRequested ++ [labComplete 3] ++ labAdvance 3 5 4).map RemediationStep.operation) := by
    decide
  exact notMovedOn_of_awaitedBool (hbool σ₁ a σ₂ hσ)

/-- The item is taken back by hand and its risk is accepted, up to the commit of the completion. -/
def labMovedOn : List OperationStep :=
  (labRequested ++ [.call 3 (labTransition 4 .inProgress)] ++ labAdvance 3 2 4 ++
    [.call 4 (.acceptRisk ⟨1, 2, 7, 6, "legacy", 100, none, none, some 4, some 5⟩)] ++
    labAdvance 4 4 5 ++ [labComplete 5] ++ labAdvance 5 4 6 : List RemediationStep).map
      RemediationStep.operation

/-- **A retest undoes a risk acceptance.** -/
theorem retest_moves_accepted_risk : ¬ ItemsAwaited labServices ⟨liveDb, fun _ => none⟩
    (labMovedOn ++ [.advance 5 ⟨7, 9⟩]) := by
  intro h
  have hbefore : ∃ row ∈ (run (operationStep labServices) ⟨liveDb, fun _ => none⟩
      labMovedOn).db.items 4, row.status = .riskAccepted := by decide
  have hafter : ∃ row ∈ (run (operationStep labServices) ⟨liveDb, fun _ => none⟩
      (labMovedOn ++ [.advance 5 ⟨7, 9⟩])).db.items 4, row.status = .inProgress := by decide
  obtain ⟨row, hrow, hst⟩ := hbefore
  obtain ⟨row', hrow', hst'⟩ := hafter
  have hsession : ∃ session ∈ (run (operationStep labServices) ⟨liveDb, fun _ => none⟩
      labMovedOn).sessions 5, session.call =
        .workflow (.completeVerification ⟨1, 9, none, none⟩) := ⟨_, rfl, rfl⟩
  obtain ⟨⟨op, txn⟩, hn, rfl⟩ := hsession
  have hawaiting := h labMovedOn 5 ⟨7, 9⟩ [] ⟨1, 9, none, none⟩ txn rfl hn 4 row row' hrow hrow'
    (by rw [hst, hst']; decide)
  rw [hst] at hawaiting
  exact absurd hawaiting (by decide)

end ScanPlatform

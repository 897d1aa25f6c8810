import ScanPlatform.Remediation.Completion

/-!
# Accepted risks

An acceptance is recorded in the commit that moves its item to `risk_accepted`. From then on the
two have lives of their own: a revocation or the sweep ends the acceptance, and a transition or a
retest moves the item.

* `OneActive`, `OneActiveThrough`, `AcceptsAlone`, **`one_active_iff`**: when a vulnerability has
  one active acceptance at most;
* `Backed`, `not_backed_revoked`: that accepted risks and active acceptances correspond, and a run
  in which they do not;
* `AcceptedBy`, `EndedBy`, **`accepted_risk_recorded`**: how an item and an acceptance came about,
  and how an acceptance ends.
-/

set_option autoImplicit false

namespace ScanPlatform

open CondMachine Sessions Versions

/-! ## One active acceptance -/

/-- The active acceptances of a vulnerability. -/
def RemediationDb.activeAcceptances (db : RemediationDb) (vulnerabilityId : Uuid) :
    List RiskAcceptance :=
  db.acceptances.filter fun a => a.vulnerabilityId = vulnerabilityId ∧ a.status = .active

def OneActive (db : RemediationDb) : Prop := ∀ v, (db.activeAcceptances v).length ≤ 1

/-- No state of the run has a vulnerability with two active acceptances. -/
def OneActiveThrough (svc : RemediationServices) (S : OperationSystem) (σ : List OperationStep) :
    Prop :=
  ∀ τ, τ <+: σ → OneActive (run (operationStep svc) S τ).db

/-- An acceptance that is going to be committed is the only active one of its vulnerability. -/
def AcceptsAlone (S : OperationSystem) : OperationStep → Prop
  | .advance n moment => ∀ call write db,
    S.sessions n = some ⟨.workflow (.acceptRisk call), .ok write⟩ → write moment S.db = .ok db →
      S.db.activeAcceptances call.vulnerabilityId = []
  | .call _ _ | .drop _ | .other _ => True

section

variable {db db' : RemediationDb} {moment : Moment} {op : RemediationOperation}

theorem OneActive.of_eq (h : OneActive db) (heq : db'.acceptances = db.acceptances) :
    OneActive db' := by
  intro v
  unfold RemediationDb.activeAcceptances
  rw [heq]
  exact h v

/-- Ending acceptances leaves fewer active ones. -/
theorem OneActive.of_map (h : OneActive db) {f : RiskAcceptance → RiskAcceptance}
    (hf : ∀ a, (f a).vulnerabilityId = a.vulnerabilityId)
    (hactive : ∀ a, (f a).status = .active → a.status = .active)
    (heq : db'.acceptances = db.acceptances.map f) : OneActive db' := by
  intro v
  refine le_trans ?_ (h v)
  unfold RemediationDb.activeAcceptances
  rw [heq, ← List.countP_eq_length_filter, ← List.countP_eq_length_filter, List.countP_map]
  refine List.countP_mono_left fun a _ ha => ?_
  simp only [Function.comp_apply, hf, decide_eq_true_eq] at ha ⊢
  exact ⟨ha.1, hactive a ha.2⟩

/-- An acceptance adds one active acceptance to its vulnerability. -/
theorem activeAcceptances_insert (call : AcceptanceCall) (id : Uuid)
    (heq : db'.acceptances = db.acceptances ++ [call.acceptance id]) (v : Uuid) :
    db'.activeAcceptances v = db.activeAcceptances v ++
      if call.vulnerabilityId = v then [call.acceptance id] else [] := by
  unfold RemediationDb.activeAcceptances
  rw [heq, List.filter_append]
  by_cases hv : call.vulnerabilityId = v
  · simp [AcceptanceCall.acceptance, hv]
  · simp [AcceptanceCall.acceptance, hv]

/-- **A commit leaves one active acceptance** when it is alone. -/
theorem OperationWrites.oneActive (h : OperationWrites op moment db db') (hdb : OneActive db)
    (halone : ∀ call, op = .workflow (.acceptRisk call) →
      db.activeAcceptances call.vulnerabilityId = []) : OneActive db' := by
  cases h.acceptances with
  | same _ heq _ => exact hdb.of_eq heq
  | insert call hfresh heq hitem =>
    intro v
    rw [activeAcceptances_insert call _ heq]
    split_ifs with hv
    · rw [← hv, halone call rfl]
      simp
    · rw [List.append_nil]
      exact hdb v
  | revoke call heq =>
    refine hdb.of_map (fun a => ?_) (fun a ha => ?_) heq
    · split_ifs <;> rfl
    · by_cases hid : a.id = call.acceptanceId
      · rw [if_pos hid] at ha
        exact absurd ha (by simp [RiskAcceptance.revoke])
      · rwa [if_neg hid] at ha
  | expire workspaceId due heq =>
    refine hdb.of_map (fun a => ?_) (fun a ha => ?_) heq
    · split_ifs <;> rfl
    · by_cases hdue : due.any (·.id = a.id) = true
      · rw [if_pos hdue] at ha
        exact absurd ha (by simp)
      · rwa [if_neg hdue] at ha

end

section

variable {svc : RemediationServices} {S S' : OperationSystem} {a : OperationStep}

theorem operationStep_oneActive (hS : S.Tracked) (hdb : OneActive S.db) (halone : AcceptsAlone S a)
    (h : operationStep svc a S = some S') : OneActive S'.db := by
  rcases operationStep_cases hS h with hsame | ⟨n, moment, op, write, rfl, hn, hw, hbound⟩ |
    ⟨e, -, helsewhere⟩
  · rwa [hsame]
  · refine (hbound.writes moment _ _ hw).oneActive hdb fun call hcall => ?_
    subst hcall
    exact halone call write _ hn hw
  · exact hdb.of_eq helsewhere.acceptances

/-- An acceptance that is committed leaves two active ones when it is not alone. -/
theorem acceptsAlone_of_oneActive (hS : S.Tracked)
    (h : OneActive (next (operationStep svc) S a).db) : AcceptsAlone S a := by
  cases a with
  | advance n moment =>
    intro call write db hn hw
    have hdb : (next (operationStep svc) S (.advance n moment)).db = db := next_of_commit hn hw
    rw [hdb] at h
    have hwrites := (hS n _ _ hn : BoundTo _ write S.db).writes moment _ _ hw
    cases hwrites.acceptances with
    | same _ _ hop => exact absurd rfl (hop call)
    | insert _ _ heq _ =>
      have hone := h call.vulnerabilityId
      rw [activeAcceptances_insert call _ heq, if_pos rfl, List.length_append] at hone
      refine List.length_eq_zero_iff.mp ?_
      simp only [List.length_singleton] at hone
      omega
  | call _ _ | drop _ | other _ => trivial

end

/-- The commit of an acceptance that is alone, which can be decided. -/
def aloneBool (S : OperationSystem) : OperationStep → Bool
  | .advance n _ =>
    match S.sessions n with
    | some ⟨.workflow (.acceptRisk call), .ok _⟩ =>
      (S.db.activeAcceptances call.vulnerabilityId).isEmpty
    | _ => true
  | .call _ _ | .drop _ | .other _ => true

theorem acceptsAlone_of_aloneBool {S : OperationSystem} {a : OperationStep} (h : aloneBool S a) :
    AcceptsAlone S a := by
  cases a with
  | advance n moment =>
    intro call write db hn _
    simp only [aloneBool, hn] at h
    exact List.isEmpty_iff.mp h
  | call _ _ | drop _ | other _ => trivial

/-- The risk of the finding is accepted, without an item. -/
def labAccept (n : ℕ) : OperationStep :=
  .call n (.workflow (.acceptRisk ⟨1, 2, 7, 6, "legacy", 100, none, none, none, none⟩))

/-- The statements of a call, and its commit with this id. -/
def labCommit (n count : ℕ) (now : ℤ) (newId : Uuid) : List OperationStep :=
  List.replicate count (.advance n ⟨now, 0⟩) ++ [.advance n ⟨now, newId⟩]

def labRevoke (n : ℕ) (acceptanceId : Uuid) : OperationStep :=
  .call n (.revokeRiskAcceptance ⟨1, 2, acceptanceId, 6, "fixed after all"⟩)

/-- A risk is accepted, the acceptance is revoked, and the risk is accepted again. -/
def labAgain : List OperationStep :=
  [labAccept 0] ++ labCommit 0 2 1 9 ++ [labRevoke 1 9] ++ labCommit 1 1 2 0 ++ [labAccept 2] ++
    labCommit 2 2 3 8

/-- Two acceptances of one risk read that there is none before either of them commits. -/
def labBoth : List OperationStep :=
  [labAccept 0, labAccept 1] ++ List.replicate 2 (.advance 0 ⟨1, 0⟩) ++ labCommit 1 2 2 9 ++
    [.advance 0 ⟨3, 8⟩]

/-- Accepted risks and active acceptances correspond. -/
structure Backed (db : RemediationDb) : Prop where
  active : ∀ id, ∀ row ∈ db.items id, row.status = .riskAccepted →
    ∃ a ∈ db.acceptances, a.remediationItemId = some id ∧ a.status = .active
  accepted : ∀ a ∈ db.acceptances, a.status = .active → ∀ id ∈ a.remediationItemId,
    ∃ row ∈ db.items id, row.status = .riskAccepted

/-- The risk of an item is accepted, and the acceptance is revoked. -/
def labRevoked : List OperationStep :=
  [.other (.createItem 4 ⟨1, 2, "template:t", some "High", 1, none⟩),
    .call 0 (.workflow (.acceptRisk ⟨1, 2, 7, 6, "legacy", 100, none, none, some 4, some 1⟩))] ++
    labCommit 0 3 1 9 ++ [labRevoke 1 9] ++ labCommit 1 2 2 0

/-- The acceptance under an id. -/
def RemediationDb.acceptance (db : RemediationDb) (id : Uuid) : Option RiskAcceptance :=
  db.acceptances.find? (·.id = id)

def RiskIsAccepted (id : Uuid) (S : OperationSystem) : Prop :=
  ∃ row ∈ S.db.items id, row.status = .riskAccepted

/-- An active acceptance of the item is recorded, and the item is in `risk_accepted`. -/
structure AcceptedBy (id acceptanceId : Uuid) (before after : OperationSystem) : Prop where
  fresh : before.db.acceptance acceptanceId = none
  acceptance : ∃ a ∈ after.db.acceptance acceptanceId,
    a.remediationItemId = some id ∧ a.status = .active
  item : RiskIsAccepted id after

/-- The step is the commit of a revocation of the acceptance, or of the sweep. -/
def EndedBy (acceptanceId : Uuid) (S : OperationSystem) : OperationStep → Prop
  | .advance n _ => ∃ op write, S.sessions n = some ⟨op, .ok write⟩ ∧
    ((∃ call, op = .revokeRiskAcceptance call ∧ call.acceptanceId = acceptanceId) ∨
      ∃ workspaceId, op = .expireDueAcceptances workspaceId)
  | .call _ _ | .drop _ | .other _ => False

/-- The step is the commit of another call. -/
def MovedBy (S : OperationSystem) : OperationStep → Prop
  | .advance n _ => ∃ call write, S.sessions n = some ⟨.workflow call, .ok write⟩
  | .call _ _ | .drop _ | .other _ => False

/-- Every acceptance has an id of its own. -/
def AcceptanceIds (S : OperationSystem) : Prop := (S.db.acceptances.map (·.id)).Nodup

section

variable {db db' : RemediationDb} {moment : Moment} {op : RemediationOperation} {id : Uuid}

theorem acceptance_map {f : RiskAcceptance → RiskAcceptance} (hf : ∀ a, (f a).id = a.id)
    (h : db'.acceptances = db.acceptances.map f) :
    db'.acceptance id = (db.acceptance id).map f := by
  rw [RemediationDb.acceptance, h]
  exact Rows.row_map hf db.acceptances id

/-- **What a commit does to the acceptance under an id**: it stays for its item, and is ended by a
revocation or by the sweep only; and a new one is active. -/
theorem OperationWrites.acceptance (h : OperationWrites op moment db db') (id : Uuid) :
    (∀ a ∈ db.acceptance id, ∃ a' ∈ db'.acceptance id,
      a'.remediationItemId = a.remediationItemId ∧ (a'.status = a.status ∨
        (∃ call, op = .revokeRiskAcceptance call ∧ call.acceptanceId = id) ∨
          ∃ workspaceId, op = .expireDueAcceptances workspaceId)) ∧
      (db.acceptance id = none → ∀ a' ∈ db'.acceptance id, a'.status = .active ∧
        ∀ item ∈ a'.remediationItemId, ∃ row ∈ db'.items item, row.status = .riskAccepted) := by
  cases h.acceptances with
  | same _ heq _ =>
    have hsame : db'.acceptance id = db.acceptance id := by
      rw [RemediationDb.acceptance, heq]
      rfl
    refine ⟨fun a ha => ⟨a, hsame ▸ ha, rfl, .inl rfl⟩, fun hnone a' ha' => ?_⟩
    rw [hsame, hnone] at ha'
    cases ha'
  | insert call hfresh heq hitem =>
    have happend : db'.acceptance id = (db.acceptance id).or
        (if moment.newId = id then some (call.acceptance moment.newId) else none) := by
      rw [RemediationDb.acceptance, heq]
      exact Rows.row_append db.acceptances _ id
    constructor
    · intro a ha
      refine ⟨a, ?_, rfl, .inl rfl⟩
      rw [Option.mem_def, happend, Option.mem_def.mp ha]
      rfl
    · intro hnone a' ha'
      rw [Option.mem_def, happend, hnone, Option.none_or] at ha'
      obtain ⟨-, heq'⟩ := Option.ite_none_right_eq_some.mp ha'
      cases heq'
      exact ⟨rfl, hitem⟩
  | revoke call heq =>
    have hid : ∀ a : RiskAcceptance, (if a.id = call.acceptanceId then a.revoke call moment.now
        else a).id = a.id := fun a => by split_ifs <;> rfl
    rw [acceptance_map hid heq]
    constructor
    · intro a ha
      refine ⟨_, Option.mem_map_of_mem _ ha, ?_, ?_⟩
      · split_ifs <;> rfl
      · split_ifs with hcall
        · have hkey : a.id = id := Rows.row_key ha
          exact .inr (.inl ⟨call, rfl, hcall.symm.trans hkey⟩)
        · exact .inl rfl
    · intro hnone a' ha'
      rw [hnone] at ha'
      cases ha'
  | expire workspaceId due heq =>
    have hid : ∀ a : RiskAcceptance, (if due.any (·.id = a.id) then
        { a with status := .expired } else a).id = a.id := fun a => by split_ifs <;> rfl
    rw [acceptance_map hid heq]
    constructor
    · intro a ha
      refine ⟨_, Option.mem_map_of_mem _ ha, ?_, .inr (.inr ⟨workspaceId, rfl⟩)⟩
      split_ifs <;> rfl
    · intro hnone a' ha'
      rw [hnone] at ha'
      cases ha'

theorem OperationWrites.acceptanceIds (h : OperationWrites op moment db db')
    (hnodup : (db.acceptances.map (·.id)).Nodup) : (db'.acceptances.map (·.id)).Nodup := by
  have hmap : ∀ f : RiskAcceptance → RiskAcceptance, (∀ a, (f a).id = a.id) →
      db'.acceptances = db.acceptances.map f → (db'.acceptances.map (·.id)).Nodup := by
    intro f hf heq
    rw [heq, List.map_map, show ((fun a : RiskAcceptance => a.id) ∘ f) = (·.id) from funext hf]
    exact hnodup
  cases h.acceptances with
  | same _ heq _ => rwa [heq]
  | insert call hfresh heq hitem =>
    rw [heq, List.map_append, List.nodup_append]
    refine ⟨hnodup, List.nodup_singleton _, ?_⟩
    intro i hi j hj hij
    obtain ⟨a, ha, rfl⟩ := List.mem_map.mp hi
    rw [List.map_singleton, List.mem_singleton] at hj
    exact hfresh a ha (hij.trans hj)
  | revoke call heq => exact hmap _ (fun a => by split_ifs <;> rfl) heq
  | expire workspaceId due heq => exact hmap _ (fun a => by split_ifs <;> rfl) heq

end

section

variable {svc : RemediationServices} {S S' : OperationSystem} {a : OperationStep} {id : Uuid}

/-- What a step does to an acceptance. -/
theorem operationStep_acceptance (hS : S.Tracked) (h : operationStep svc a S = some S')
    (acceptanceId : Uuid) :
    (∀ row ∈ S.db.acceptance acceptanceId, ∃ row' ∈ S'.db.acceptance acceptanceId,
      row'.remediationItemId = row.remediationItemId ∧
        (row'.status = row.status ∨ EndedBy acceptanceId S a)) ∧
      (S.db.acceptance acceptanceId = none → ∀ row' ∈ S'.db.acceptance acceptanceId,
        ∀ item ∈ row'.remediationItemId, AcceptedBy item acceptanceId S S') := by
  have hsame : S'.db.acceptances = S.db.acceptances →
      S'.db.acceptance acceptanceId = S.db.acceptance acceptanceId := by
    intro heq
    rw [RemediationDb.acceptance, heq]
    rfl
  have hnew : S.db.acceptance acceptanceId = none →
      S'.db.acceptance acceptanceId = S.db.acceptance acceptanceId →
      ∀ row' ∈ S'.db.acceptance acceptanceId, ∀ item ∈ row'.remediationItemId,
        AcceptedBy item acceptanceId S S' := by
    intro hnone heq row' hrow'
    rw [heq, hnone] at hrow'
    cases hrow'
  rcases operationStep_cases hS h with hdb | ⟨n, moment, op, write, rfl, hn, hw, hbound⟩ |
    ⟨e, -, helsewhere⟩
  · have heq := hsame (by rw [hdb])
    exact ⟨fun row hrow => ⟨row, heq ▸ hrow, rfl, .inl rfl⟩, fun hnone => hnew hnone heq⟩
  · obtain ⟨hkept, hinserted⟩ := (hbound.writes moment _ _ hw).acceptance acceptanceId
    constructor
    · intro row hrow
      obtain ⟨row', hrow', hitem, hstatus⟩ := hkept row hrow
      exact ⟨row', hrow', hitem, hstatus.imp_right fun hop => ⟨op, write, hn, hop⟩⟩
    · intro hnone row' hrow' item hitem
      obtain ⟨hactive, haccepted⟩ := hinserted hnone row' hrow'
      exact ⟨hnone, ⟨row', hrow', hitem, hactive⟩, haccepted item hitem⟩
  · have heq := hsame helsewhere.acceptances
    exact ⟨fun row hrow => ⟨row, heq ▸ hrow, rfl, .inl rfl⟩, fun hnone => hnew hnone heq⟩

theorem operationStep_acceptanceIds (hS : S.Tracked) (hids : AcceptanceIds S)
    (h : operationStep svc a S = some S') : AcceptanceIds S' := by
  unfold AcceptanceIds at hids ⊢
  rcases operationStep_cases hS h with hdb | ⟨n, moment, op, write, rfl, hn, hw, hbound⟩ |
    ⟨e, -, helsewhere⟩
  · rwa [hdb]
  · exact (hbound.writes moment _ _ hw).acceptanceIds hids
  · rwa [helsewhere.acceptances]

/-- An item enters `risk_accepted` in the commit of an acceptance that names it. -/
theorem operationStep_entering (hS : S.Tracked) (h : operationStep svc a S = some S')
    (hbefore : ¬ RiskIsAccepted id S) (hafter : RiskIsAccepted id S') :
    ∃ n moment call write, a = .advance n moment ∧
      S.sessions n = some ⟨.workflow (.acceptRisk call), .ok write⟩ ∧
      write moment S.db = .ok S'.db ∧ call.remediationItemId = some id := by
  obtain ⟨row', hrow', hst⟩ := hafter
  rcases operationStep_cases hS h with hdb | ⟨n, moment, op, write, rfl, hn, hw, hbound⟩ |
    ⟨e, -, helsewhere⟩
  · exact absurd ⟨row', hdb ▸ hrow', hst⟩ hbefore
  · rcases (hbound.writes moment _ _ hw).riskAccepted id row' hrow' hst with hrow | ⟨call, rfl, hid⟩
    · exact absurd hrow hbefore
    · exact ⟨n, moment, call, write, rfl, hn, hw, hid⟩
  · cases hrow : S.db.items id with
    | none =>
      have hproposed := helsewhere.created id hrow row' hrow'
      rw [hst] at hproposed
      cases hproposed
    | some row =>
      obtain rfl : row = row' := Option.some.inj ((helsewhere.kept id row hrow).symm.trans hrow')
      exact absurd ⟨row, hrow, hst⟩ hbefore

/-- The commit of an acceptance records it. -/
theorem acceptRisk_recorded (hS : S.Tracked) {n : ℕ} {moment : Moment} {call : AcceptanceCall}
    {write : RemediationWrite} {db : RemediationDb}
    (hn : S.sessions n = some ⟨.workflow (.acceptRisk call), .ok write⟩)
    (hw : write moment S.db = .ok db) :
    S.db.acceptance moment.newId = none ∧
      db.acceptance moment.newId = some (call.acceptance moment.newId) ∧
      db.acceptances = S.db.acceptances ++ [call.acceptance moment.newId] ∧
      ∀ id ∈ call.remediationItemId, ∃ row ∈ db.items id, row.status = .riskAccepted := by
  have hwrites := (hS n _ _ hn : BoundTo _ write S.db).writes moment _ _ hw
  cases hwrites.acceptances with
  | same _ _ hop => exact absurd rfl (hop call)
  | insert _ hfresh heq hitem =>
    have hnone : S.db.acceptance moment.newId = none :=
      List.find?_eq_none.mpr fun a ha => by simpa using hfresh a ha
    refine ⟨hnone, ?_, heq, hitem⟩
    rw [RemediationDb.acceptance, heq]
    refine (Rows.row_append S.db.acceptances (call.acceptance moment.newId) _).trans ?_
    rw [show Rows.row (·.id) S.db.acceptances moment.newId = none from hnone]
    exact if_pos rfl

/-- **An item enters `risk_accepted`** with an acceptance. -/
theorem operationStep_entered (hS : S.Tracked) (h : operationStep svc a S = some S')
    (hbefore : ¬ RiskIsAccepted id S) (hafter : RiskIsAccepted id S') :
    ∃ acceptanceId, AcceptedBy id acceptanceId S S' := by
  obtain ⟨n, moment, call, write, rfl, hn, hw, hid⟩ :=
    operationStep_entering hS h hbefore hafter
  obtain ⟨hnone, hsome, -, -⟩ := acceptRisk_recorded hS hn hw
  exact ⟨moment.newId, hnone, ⟨_, hsome, hid, rfl⟩, hafter⟩

/-- **An item leaves `risk_accepted`** by the commit of another call. -/
theorem operationStep_left (hS : S.Tracked) (h : operationStep svc a S = some S')
    (hbefore : RiskIsAccepted id S) (hafter : ¬ RiskIsAccepted id S') : MovedBy S a := by
  obtain ⟨row, hrow, hst⟩ := hbefore
  rcases operationStep_cases hS h with hdb | ⟨n, moment, op, write, rfl, hn, hw, hbound⟩ |
    ⟨e, -, helsewhere⟩
  · exact absurd ⟨row, hdb ▸ hrow, hst⟩ hafter
  · by_contra hmoved
    have hop : ∀ call, op ≠ .workflow call := by
      rintro call rfl
      exact hmoved ⟨call, write, hn⟩
    have hitems := (hbound.writes moment _ _ hw).others hop
    exact hafter ⟨row, by rwa [hitems], hst⟩
  · exact absurd ⟨row, helsewhere.kept id row hrow, hst⟩ hafter

/-! ## Runs -/

/-- An acceptance of the item is recorded under the id. -/
def IsRecorded (id acceptanceId : Uuid) (S : OperationSystem) : Prop :=
  ∃ a ∈ S.db.acceptance acceptanceId, a.remediationItemId = some id

/-- It is active. -/
def IsActive (id acceptanceId : Uuid) (S : OperationSystem) : Prop :=
  ∃ a ∈ S.db.acceptance acceptanceId, a.remediationItemId = some id ∧ a.status = .active

/-- An acceptance that is recorded stays so. -/
theorem run_isRecorded {acceptanceId : Uuid} (hS : S.Tracked) (h : IsRecorded id acceptanceId S)
    (σ : List OperationStep) : IsRecorded id acceptanceId (run (operationStep svc) S σ) := by
  suffices hinv : (run (operationStep svc) S σ).Tracked ∧
      IsRecorded id acceptanceId (run (operationStep svc) S σ) from hinv.2
  refine run_invariant (I := fun S => S.Tracked ∧ IsRecorded id acceptanceId S) ?_ ⟨hS, h⟩ σ
  · rintro S a S' ⟨hS, row, hrow, hitem⟩ hstep
    obtain ⟨row', hrow', hitem', -⟩ := (operationStep_acceptance hS hstep acceptanceId).1 row hrow
    exact ⟨operationStep_tracked hS hstep, row', hrow', hitem'.trans hitem⟩

variable (svc) in
/-- An active acceptance stays active unless it is ended. -/
theorem run_isActive {acceptanceId : Uuid} (hS : S.Tracked) (h : IsActive id acceptanceId S)
    (σ : List OperationStep) : IsActive id acceptanceId (run (operationStep svc) S σ) ∨
      ∃ τ₁ y τ₂, σ = τ₁ ++ y :: τ₂ ∧ EndedBy acceptanceId (run (operationStep svc) S τ₁) y := by
  refine run_unless (fun _ _ _ => operationStep_tracked) ?_ hS h σ
  rintro S a S' hS hstep ⟨row, hrow, hitem, hactive⟩ hafter
  obtain ⟨row', hrow', hitem', hstatus⟩ :=
    (operationStep_acceptance hS hstep acceptanceId).1 row hrow
  rcases hstatus with hstatus | hended
  · exact absurd ⟨row', hrow', hitem'.trans hitem, hstatus.trans hactive⟩ hafter
  · exact hended

variable (svc) in
/-- An item stays in `risk_accepted` unless it is moved. -/
theorem run_riskIsAccepted (hS : S.Tracked) (h : RiskIsAccepted id S) (σ : List OperationStep) :
    RiskIsAccepted id (run (operationStep svc) S σ) ∨
      ∃ τ₁ y τ₂, σ = τ₁ ++ y :: τ₂ ∧ MovedBy (run (operationStep svc) S τ₁) y :=
  run_unless (fun _ _ _ => operationStep_tracked)
    (fun _ _ _ hS hstep hbefore hafter => operationStep_left hS hstep hbefore hafter) hS h σ

end

end ScanPlatform

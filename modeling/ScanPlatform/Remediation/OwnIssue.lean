import ScanPlatform.Remediation.Acceptances
import ScanPlatform.Remediation.Lasting

/-!
# Whose risk an acceptance silences

An acceptance is of a finding, and moves an item. Both are looked up in the project that the caller
names; that the finding is one of the item's issue is not looked up.

* `SilencesOwnIssue`, `OwnIssuesThrough`: items enter `risk_accepted` for their own issue;
* `AcceptsOwnIssue`: an acceptance of a finding of the item's issue;
* `FindingsKept`: what is written elsewhere leaves the findings in their projects;
* `Resolves`, `prog_resolves`, `operationStep_placed`: what the look-ups of an acceptance are worth
  at its commit;
* **`own_issues_iff`**: when items enter `risk_accepted` for their own issue only.
-/

set_option autoImplicit false

namespace ScanPlatform

open CondMachine Sessions

/-! ## The property and its condition -/

/-- The item enters `risk_accepted` with an active acceptance of a finding of its project and of its
issue. -/
structure SilencesOwnIssue (id acceptanceId : Uuid) (before after : OperationSystem) : Prop
    extends AcceptedBy id acceptanceId before after where
  own : ∃ a ∈ after.db.acceptance acceptanceId, ∃ row ∈ after.db.items id, ∃ v,
    getVulnerability row.projectId a.vulnerabilityId after.db = .ok v ∧ v.issueKey = row.issueKey

/-- Whenever an item enters `risk_accepted` in the run, it does so for its own issue. -/
def OwnIssuesThrough (svc : RemediationServices) (S : OperationSystem) (σ : List OperationStep) :
    Prop :=
  ∀ σ₁ x σ₂, σ = σ₁ ++ x :: σ₂ → ∀ id,
    ¬ RiskIsAccepted id (run (operationStep svc) S σ₁) →
      RiskIsAccepted id (run (operationStep svc) S (σ₁ ++ [x])) →
        ∃ acceptanceId, SilencesOwnIssue id acceptanceId (run (operationStep svc) S σ₁)
          (run (operationStep svc) S (σ₁ ++ [x]))

/-- The acceptance that a session is about to commit. -/
def OperationSystem.accepting (S : OperationSystem) (n : ℕ) :
    Option (AcceptanceCall × RemediationWrite) :=
  match S.sessions n with
  | some ⟨.workflow (.acceptRisk call), .ok write⟩ => some (call, write)
  | _ => none

/-- An acceptance that moves an item is of a finding of the item's issue. -/
def AcceptsOwnIssue (S : OperationSystem) : OperationStep → Prop
  | .advance n moment => ∀ c ∈ S.accepting n, (c.2 moment S.db).toOption.isSome →
      ∀ id ∈ c.1.remediationItemId, ∀ row ∈ S.db.items id, row.status ≠ .riskAccepted →
        ∀ v ∈ (getVulnerability c.1.projectId c.1.vulnerabilityId S.db).toOption,
          v.issueKey = row.issueKey
  | .call _ _ | .drop _ | .other _ => True

/-- The findings stay in their projects. -/
def FindingsKept (S : OperationSystem) : OperationStep → Prop
  | .other (.write _ _ vulnerabilities _) => ∀ v ∈ S.db.vulnerabilities,
      ∃ v' ∈ vulnerabilities, v'.id = v.id ∧ v'.projectId = v.projectId
  | .other (.createItem _ _) | .other (.claimVerification _ _ _) | .call _ _ | .advance _ _
  | .drop _ => True

instance (S : OperationSystem) : (a : OperationStep) → Decidable (AcceptsOwnIssue S a)
  | .advance n _ => inferInstanceAs (Decidable (∀ c ∈ S.accepting n, _))
  | .call _ _ | .drop _ | .other _ => .isTrue trivial

instance (S : OperationSystem) : (a : OperationStep) → Decidable (FindingsKept S a)
  | .other (.write _ _ vulnerabilities _) =>
    inferInstanceAs (Decidable (∀ v ∈ S.db.vulnerabilities, ∃ v' ∈ vulnerabilities, _))
  | .other (.createItem _ _) | .other (.claimVerification _ _ _) | .call _ _ | .advance _ _
  | .drop _ => .isTrue trivial

/-! ## What an acceptance has looked up -/

/-- The project has the finding. -/
def HasFinding (projectId vulnerabilityId : Uuid) (db : RemediationDb) : Prop :=
  ∃ v ∈ db.vulnerabilities, v.id = vulnerabilityId ∧ v.projectId = projectId

/-- The project has the item. -/
def HasItem (projectId id : Uuid) (db : RemediationDb) : Prop :=
  ∃ row ∈ db.items id, row.projectId = projectId

/-- What a session relies on: findings and items stay in their projects. -/
structure Stays (db db' : RemediationDb) : Prop where
  findings : ∀ p v, HasFinding p v db → HasFinding p v db'
  items : ∀ p id, HasItem p id db → HasItem p id db'

theorem Stays.refl (db : RemediationDb) : Stays db db := ⟨fun _ _ h => h, fun _ _ h => h⟩

theorem Stays.trans {db₁ db₂ db₃ : RemediationDb} (h₁₂ : Stays db₁ db₂) (h₂₃ : Stays db₂ db₃) :
    Stays db₁ db₃ :=
  ⟨fun p v h => h₂₃.findings p v (h₁₂.findings p v h),
    fun p id h => h₂₃.items p id (h₁₂.items p id h)⟩

/-- An acceptance has found its finding and its item in the project. -/
def LooksUp (op : RemediationOperation) (db : RemediationDb) : Prop :=
  ∀ call, op = .workflow (.acceptRisk call) → HasFinding call.projectId call.vulnerabilityId db ∧
    ∀ id ∈ call.remediationItemId, HasItem call.projectId id db

/-- What a session is going to write leaves the issues of the items alone. -/
def Resolves (op : RemediationOperation) (write : RemediationWrite) (db : RemediationDb) : Prop :=
  Leaves RemediationDb.lasting write ∧ LooksUp op db

theorem Resolves.later {op : RemediationOperation} {write : RemediationWrite}
    {db db' : RemediationDb} (h : Resolves op write db) (hdb : Stays db db') :
    Resolves op write db' := by
  refine ⟨h.1, fun call hcall => ?_⟩
  obtain ⟨hfinding, hitem⟩ := h.2 call hcall
  exact ⟨hdb.findings _ _ hfinding, fun id hid => hdb.items _ _ (hitem id hid)⟩

section

variable {db db' : RemediationDb} {id projectId vulnerabilityId : Uuid}

/-- The project and the issue of an item, of what no call changes. -/
theorem issue_of_lasting (h : db'.lasting = db.lasting) (id : Uuid) :
    (db'.items id).map (·.issue) = (db.items id).map (·.issue) :=
  congrFun (congrArg (·.2.2) h) id

theorem vulnerabilities_of_lasting (h : db'.lasting = db.lasting) :
    db'.vulnerabilities = db.vulnerabilities := congrArg (·.1.1) h

theorem getVulnerability_congr (h : db'.vulnerabilities = db.vulnerabilities) :
    getVulnerability projectId vulnerabilityId db' =
      getVulnerability projectId vulnerabilityId db := by
  unfold getVulnerability
  rw [h]

/-- An item has a row of its issue wherever what no call changes is the same. -/
theorem row_of_lasting (h : db'.lasting = db.lasting) {row' : RemediationItem}
    (hrow' : db'.items id = some row') :
    ∃ row, db.items id = some row ∧ row.projectId = row'.projectId ∧
      row.issueKey = row'.issueKey := by
  have hissue := issue_of_lasting h id
  rw [hrow', Option.map_some, eq_comm, Option.map_eq_some_iff] at hissue
  obtain ⟨row, hrow, heq⟩ := hissue
  simp only [RemediationItem.issue, Prod.mk.injEq] at heq
  exact ⟨row, hrow, heq.2.1, heq.2.2⟩

theorem Stays.of_lasting (h : db'.lasting = db.lasting) : Stays db db' := by
  constructor
  · intro p v hv
    unfold HasFinding
    rwa [vulnerabilities_of_lasting h]
  · rintro p id ⟨row, hrow, rfl⟩
    obtain ⟨row', hrow', hproject, -⟩ := row_of_lasting h.symm hrow
    exact ⟨row', hrow', hproject⟩

/-- `get_vulnerability` finds a finding of the project. -/
theorem getVulnerability_isOk_iff :
    (∃ v, getVulnerability projectId vulnerabilityId db = .ok v) ↔
      HasFinding projectId vulnerabilityId db := by
  unfold getVulnerability HasFinding
  cases h : db.vulnerabilities.find? fun v => v.id = vulnerabilityId ∧ v.projectId = projectId with
  | none =>
    have hnone := List.find?_eq_none.mp h
    simpa using hnone
  | some v =>
    have hv := List.find?_some h
    simp only [decide_eq_true_eq] at hv
    simpa using ⟨v, List.mem_of_find?_eq_some h, hv⟩

end

/-! ## The programs -/

/-- **No program changes what lasts.** -/
theorem prog_lasting (svc : RemediationServices) (op : RemediationOperation) :
    EndsLeaving RemediationDb.lasting (op.prog svc) := by
  intro db
  by_cases hrequest : ∃ call, op = .workflow (.requestVerification call)
  · obtain ⟨call, rfl⟩ := hrequest
    exact Txn.Ensures.mono (requestVerification_made svc call db) (fun _ _ h => h) (fun _ h => h)
      fun write _ h moment db db' hw => (h moment db db' hw).lasting
  · by_cases hcomplete : ∃ call, op = .workflow (.completeVerification call)
    · obtain ⟨call, rfl⟩ := hcomplete
      exact completeVerification_lasting svc call db
    · have hspares := prog_spares svc (fun call hcall => hrequest ⟨call, hcall⟩)
        (fun call hcall => hcomplete ⟨call, hcall⟩) db
      exact hspares.mono (fun _ _ h => h) (fun _ h => h)
        fun write _ h moment db db' hw => congrArg Prod.fst (h moment db db' hw)

/-- An acceptance looks up its finding and its item. -/
theorem acceptRisk_looksUp (svc : RemediationServices) (call : AcceptanceCall)
    (db : RemediationDb) :
    (acceptRisk svc call).Ensures Stays (fun _ => True)
      (fun _ => LooksUp (.workflow (.acceptRisk call))) db := by
  unfold acceptRisk
  simp only [ensures_bind, ensures_query, ensures_raiseIf]
  intro _ db₁ _ _ now hnow _ _ _ db₂ h₂ _ existing _ _
  have hfinding : HasFinding call.projectId call.vulnerabilityId db₂ := by
    cases hget : getVulnerability call.projectId call.vulnerabilityId db₁ with
    | error e =>
      rw [hget] at hnow
      cases hnow
    | ok v => exact h₂.findings _ _ (getVulnerability_isOk_iff.mp ⟨v, hget⟩)
  split
  · next hnone =>
    rintro _ ⟨⟩
    refine ⟨hfinding, fun id hid => ?_⟩
    rw [hnone] at hid
    cases hid
  · next id hid =>
    unfold getItem
    simp only [ensures_bind, ensures_query, findItem_eq_ok]
    rintro _ db₃ h₃ _ item ⟨hrow, hproject, -⟩ _ ⟨⟩
    refine ⟨h₃.findings _ _ hfinding, fun j hj => ?_⟩
    obtain rfl : id = j := Option.some.inj (hid.symm.trans hj)
    exact ⟨item, hrow, hproject⟩

/-- **What every call ends with** while findings and items stay in their projects. -/
theorem prog_resolves (svc : RemediationServices) (op : RemediationOperation)
    (db : RemediationDb) : (op.prog svc).Ensures Stays (fun _ => True) (Resolves op) db := by
  have hlasting : (op.prog svc).Ensures Stays (fun _ => True)
      (fun write _ => Leaves RemediationDb.lasting write) db :=
    (prog_lasting svc op db).mono (fun _ _ _ => trivial) (fun _ h => h) fun _ _ h => h
  by_cases hop : ∃ call, op = .workflow (.acceptRisk call)
  · obtain ⟨call, rfl⟩ := hop
    exact Txn.Ensures.and hlasting (acceptRisk_looksUp svc call db)
  · exact hlasting.mono (fun _ _ h => h) (fun _ h => h)
      fun _ _ h => ⟨h, fun call hcall => absurd ⟨call, hcall⟩ hop⟩

/-! ## Steps -/

/-- The sessions in progress are bound to write as told, and have looked up what they name. -/
structure OperationSystem.Placed (S : OperationSystem) : Prop where
  tracked : S.Tracked
  resolves : Bound (fun _ => Stays) (fun _ => True) Resolves S

section

variable {svc : RemediationServices} {S S' : OperationSystem} {a : OperationStep} {id : Uuid}

/-- What is written elsewhere leaves findings and items in their projects. -/
theorem Elsewhere.apply_stays {e : Elsewhere} {db : RemediationDb}
    (hkept : FindingsKept S (.other e)) (h : e.apply S.db = some db) : Stays S.db db := by
  have hitems : ∀ p id, HasItem p id S.db → HasItem p id db := by
    rintro p id ⟨row, hrow, hproject⟩
    exact ⟨row, (Elsewhere.apply_writes h).kept id row hrow, hproject⟩
  refine ⟨fun p v hv => ?_, hitems⟩
  cases e with
  | createItem id issue =>
    obtain ⟨-, rfl⟩ := createItem_eq h
    exact hv
  | claimVerification now id workerToken =>
    obtain rfl := Option.some.inj h
    exact hv
  | write members scans vulnerabilities toolRuns =>
    obtain rfl := Option.some.inj h
    obtain ⟨w, hw, rfl, rfl⟩ := hv
    exact hkept w hw

theorem operationStep_placed (hS : S.Placed) (hkept : FindingsKept S a)
    (h : operationStep svc a S = some S') : S'.Placed := by
  refine ⟨operationStep_tracked hS.tracked h, ?_⟩
  refine hS.resolves.act trivial (fun _ db _ => .refl db) (fun _ _ _ _ => .trans)
    (fun _ _ _ _ => .later) (fun _ op _ => prog_resolves svc op S.db) ?_ ?_ h
  · intro n i op write db _ hn hw _ _ _ _
    have hresolves : Resolves op write S.db := hS.resolves n op _ hn
    exact .of_lasting (hresolves.1 i S.db db hw)
  · intro e db ha he _ _ _
    subst ha
    exact Elsewhere.apply_stays hkept he

/-- What a session is about to accept. -/
theorem accepting_eq_some {n : ℕ} {call : AcceptanceCall} {write : RemediationWrite} :
    S.accepting n = some (call, write) ↔
      S.sessions n = some ⟨.workflow (.acceptRisk call), .ok write⟩ := by
  unfold OperationSystem.accepting
  constructor
  · intro h
    split at h
    · next hn =>
      cases h
      exact hn
    · cases h
  · intro h
    rw [h]

/-- The finding that an acceptance has looked up. -/
theorem Resolves.vulnerability {call : AcceptanceCall} {write : RemediationWrite}
    {db : RemediationDb} (h : Resolves (.workflow (.acceptRisk call)) write db) :
    ∃ v, getVulnerability call.projectId call.vulnerabilityId db = .ok v :=
  getVulnerability_isOk_iff.mpr (h.2 call rfl).1

/-- **An acceptance of a finding of the item's issue** moves the item for its own issue. -/
theorem operationStep_ownIssue (hS : S.Placed) (hown : AcceptsOwnIssue S a)
    (h : operationStep svc a S = some S') (hbefore : ¬ RiskIsAccepted id S)
    (hafter : RiskIsAccepted id S') : ∃ acceptanceId, SilencesOwnIssue id acceptanceId S S' := by
  obtain ⟨n, moment, call, write, rfl, hn, hw, hid⟩ :=
    operationStep_entering hS.tracked h hbefore hafter
  obtain ⟨hnone, hsome, -, -⟩ := acceptRisk_recorded hS.tracked hn hw
  have hresolves : Resolves (.workflow (.acceptRisk call)) write S.db := hS.resolves n _ _ hn
  have hlasting : S'.db.lasting = S.db.lasting := hresolves.1 moment S.db S'.db hw
  obtain ⟨v, hv⟩ := hresolves.vulnerability
  obtain ⟨row', hrow', hst⟩ := hafter
  obtain ⟨row, hrow, hproject, hissue⟩ := row_of_lasting hlasting hrow'
  obtain ⟨item, hitem, hcall⟩ := (hresolves.2 call rfl).2 id hid
  obtain rfl : item = row := Option.some.inj (hitem.symm.trans hrow)
  have hkey : v.issueKey = item.issueKey := by
    refine hown (call, write) (accepting_eq_some.mpr hn) ?_ id hid item hrow ?_ v ?_
    · simp [hw, Except.toOption]
    · exact fun hst => hbefore ⟨item, hrow, hst⟩
    · simp [hv, Except.toOption]
  refine ⟨moment.newId, ⟨hnone, ⟨_, hsome, hid, rfl⟩, row', hrow', hst⟩, _, hsome, row', hrow', v,
    ?_, hkey.trans hissue⟩
  rw [getVulnerability_congr (vulnerabilities_of_lasting hlasting), ← hproject, hcall]
  exact hv

/-- An acceptance that moves an item for its own issue is of a finding of that issue. -/
theorem acceptsOwnIssue_of_silences (hS : S.Placed)
    (h : ∀ id, ¬ RiskIsAccepted id S → RiskIsAccepted id (next (operationStep svc) S a) →
      ∃ acceptanceId, SilencesOwnIssue id acceptanceId S (next (operationStep svc) S a)) :
    AcceptsOwnIssue S a := by
  cases a with
  | advance n moment =>
    rintro ⟨call, write⟩ hn hok id hid row hrow hst v hv
    have hn := accepting_eq_some.mp hn
    obtain ⟨db, hw⟩ : ∃ db, write moment S.db = .ok db := by
      cases hw : write moment S.db with
      | error e => simp [hw, Except.toOption] at hok
      | ok db => exact ⟨db, rfl⟩
    have hdb : (next (operationStep svc) S (.advance n moment)).db = db := next_of_commit hn hw
    have hresolves : Resolves (.workflow (.acceptRisk call)) write S.db := hS.resolves n _ _ hn
    have hlasting : db.lasting = S.db.lasting := hresolves.1 moment S.db db hw
    obtain ⟨hnone, hsome, hacceptances, hitem⟩ := acceptRisk_recorded hS.tracked hn hw
    have hbefore : ¬ RiskIsAccepted id S := by
      rintro ⟨item, hitem, hst'⟩
      obtain rfl : row = item := Option.some.inj (hrow.symm.trans hitem)
      exact hst hst'
    obtain ⟨acceptanceId, hsilences⟩ := h id hbefore (by
      unfold RiskIsAccepted
      rw [hdb]
      exact hitem id hid)
    obtain ⟨a, ha, row', hrow', v', hv', hkey⟩ := hsilences.own
    rw [hdb] at ha hrow' hv'
    -- The acceptance under a new id is the one that is committed.
    obtain rfl : a = call.acceptance moment.newId := by
      have hfresh : S.db.acceptance acceptanceId = none := hsilences.fresh
      have happend : db.acceptance acceptanceId = (S.db.acceptance acceptanceId).or
          (if moment.newId = acceptanceId then some (call.acceptance moment.newId) else none) := by
        rw [RemediationDb.acceptance, hacceptances]
        exact Rows.row_append S.db.acceptances _ acceptanceId
      rw [Option.mem_def, happend, hfresh, Option.none_or] at ha
      exact (Option.some.inj (Option.ite_none_right_eq_some.mp ha).2).symm
    obtain ⟨row₀, hrow₀, hproject, hissue⟩ := row_of_lasting hlasting hrow'
    obtain rfl : row = row₀ := Option.some.inj (hrow.symm.trans hrow₀)
    obtain ⟨item, hitem, hcall⟩ := (hresolves.2 call rfl).2 id hid
    obtain rfl : row = item := Option.some.inj (hrow.symm.trans hitem)
    have hfound : getVulnerability call.projectId call.vulnerabilityId S.db = .ok v' := by
      rw [← hcall, hproject, ← getVulnerability_congr (vulnerabilities_of_lasting hlasting)]
      exact hv'
    rw [hfound] at hv
    obtain rfl : v' = v := Option.some.inj hv
    exact hkey.trans hissue.symm
  | call _ _ | drop _ | other _ => trivial

end

/-! ## Runs -/

variable {svc : RemediationServices} {S : OperationSystem}

theorem run_placed (hS : ∀ n, S.sessions n = none) {σ : List OperationStep}
    (hkept : Along (operationStep svc) FindingsKept S σ) :
    (run (operationStep svc) S σ).Placed := by
  refine run_invariant_along (fun _ _ _ => operationStep_placed) ?_ hkept
  refine ⟨run_tracked svc hS [], fun n c txn hn => ?_⟩
  rw [hS n] at hn
  cases hn

/-- **Items enter `risk_accepted` for their own issue only**, exactly when every acceptance that
moves an item is of a finding of the item's issue. -/
theorem own_issues_iff (svc : RemediationServices) {S : OperationSystem}
    (hS : ∀ n, S.sessions n = none) {σ : List OperationStep}
    (hkept : Along (operationStep svc) FindingsKept S σ) :
    OwnIssuesThrough svc S σ ↔ Along (operationStep svc) AcceptsOwnIssue S σ := by
  have hplaced : ∀ σ₁ x σ₂, σ = σ₁ ++ x :: σ₂ → (run (operationStep svc) S σ₁).Placed := by
    rintro σ₁ x σ₂ rfl
    exact run_placed hS hkept.prefix
  constructor
  · intro h σ₁ x σ₂ hσ
    have hsilences := h σ₁ x σ₂ hσ
    simp only [run_concat] at hsilences
    exact acceptsOwnIssue_of_silences (hplaced σ₁ x σ₂ hσ) hsilences
  · intro h σ₁ x σ₂ hσ id hbefore hafter
    have hnext : run (operationStep svc) S (σ₁ ++ [x]) =
        next (operationStep svc) (run (operationStep svc) S σ₁) x := run_concat S σ₁ x
    rcases next_cases (operationStep svc) (run (operationStep svc) S σ₁) x with hstep | ⟨-, hsame⟩
    · rw [← hnext] at hstep
      exact operationStep_ownIssue (hplaced σ₁ x σ₂ hσ) (h σ₁ x σ₂ hσ) hstep hbefore hafter
    · rw [hnext, hsame] at hafter
      exact absurd hafter hbefore

/-- An item for the issue is created, and its risk is accepted through the finding of the
laboratory. -/
def labOwn (issueKey : String) : List OperationStep :=
  [.other (.createItem 4 ⟨1, 2, issueKey, some "High", 1, none⟩),
    .call 0 (.workflow (.acceptRisk ⟨1, 2, 7, 6, "legacy", 100, none, none, some 4, some 1⟩))] ++
    labCommit 0 3 1 9

/-- The run up to its commit. -/
def labOwnBefore (issueKey : String) : OperationSystem :=
  run (operationStep labServices) ⟨liveDb, fun _ => none⟩ ((labOwn issueKey).take 5)

/-- The finding is one of the issue. -/
theorem own_issues_iff_lab :
    OwnIssuesThrough labServices ⟨liveDb, fun _ => none⟩ (labOwn "template:t") := by
  refine (own_issues_iff labServices (fun _ => rfl) (by decide)).mpr ?_
  have hcommit : AcceptsOwnIssue (labOwnBefore "template:t") (.advance 0 ⟨1, 9⟩) := by
    have hcall : ∀ c ∈ (labOwnBefore "template:t").accepting 0, c.1.projectId = 2 ∧
        c.1.vulnerabilityId = 7 ∧ c.1.remediationItemId = some 4 := by decide
    have hitem : ∀ row ∈ (labOwnBefore "template:t").db.items 4, row.issueKey = "template:t" := by
      decide
    have hfinding : ∀ v ∈ (getVulnerability 2 7 (labOwnBefore "template:t").db).toOption,
        v.issueKey = "template:t" := by decide
    intro c hc _ id hid row hrow _ v hv
    obtain ⟨hproject, hvulnerability, hnamed⟩ := hcall c hc
    obtain rfl : 4 = id := Option.some.inj (hnamed.symm.trans hid)
    rw [hproject, hvulnerability] at hv
    exact (hfinding v hv).trans (hitem row hrow).symm
  have hbefore : Along (operationStep labServices) AcceptsOwnIssue ⟨liveDb, fun _ => none⟩
      ((labOwn "template:t").take 5) := by decide
  exact along_concat.mpr ⟨hbefore, hcommit⟩

/-- **Another issue is silenced.** The item is for `template:u`, the finding is of `template:t`. -/
theorem other_issue_silenced :
    ¬ OwnIssuesThrough labServices ⟨liveDb, fun _ => none⟩ (labOwn "template:u") := by
  intro h
  have hbefore : ¬ ∃ row ∈ (run (operationStep labServices) ⟨liveDb, fun _ => none⟩
      ((labOwn "template:u").take 5)).db.items 4, row.status = .riskAccepted := by decide
  have hafter : ∃ row ∈ (run (operationStep labServices) ⟨liveDb, fun _ => none⟩
      (labOwn "template:u")).db.items 4, row.status = .riskAccepted := by decide
  have hitem : ∀ row ∈ (run (operationStep labServices) ⟨liveDb, fun _ => none⟩
      (labOwn "template:u")).db.items 4, row.issueKey = "template:u" := by decide
  have hfindings : ∀ v ∈ (run (operationStep labServices) ⟨liveDb, fun _ => none⟩
      (labOwn "template:u")).db.vulnerabilities, v.issueKey ≠ "template:u" := by decide
  obtain ⟨acceptanceId, hsilences⟩ := h ((labOwn "template:u").take 5) (.advance 0 ⟨1, 9⟩) [] rfl 4
    hbefore hafter
  obtain ⟨a, -, row, hrow, v, hv, hkey⟩ := hsilences.own
  rw [hitem row hrow] at hkey
  unfold getVulnerability at hv
  split at hv
  · cases hv
  · next w hw =>
    cases hv
    exact hfindings _ (List.mem_of_find?_eq_some hw) hkey

end ScanPlatform

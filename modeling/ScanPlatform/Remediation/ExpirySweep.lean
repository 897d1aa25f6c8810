import ScanPlatform.Manager.AuditedControl
import ScanPlatform.Remediation.RiskService
import ScanPlatform.Retention.Purge

/-!
# The expiry sweep of all workspaces

The sweep reads the ids of the workspaces with a raw `SELECT`, binds each of them, and expires the
acceptances of the workspace in a transaction of its own. What a workspace raises is logged.

* `AuditEvent`, `ItemEvent`, `SweepDb`, `ExpirySession`: the rows, and a session with its new ones;
* `guardFlush`, `record`, `expireOne`, `expireDueAcceptances`: the transaction of a workspace;
* `expireAllWorkspaces`: the sweep;
* **`expireDueAcceptances_uuid`**: what the transaction does for an id that is a UUID;
* **`expireAllWorkspaces_eq`**: with the ids that it reads, the sweep changes nothing;
* `ExpiryEnforced`, **`expiry_enforced_iff`**: when every expiry is enforced;
  `expiry_not_enforced` is an acceptance that outlives its expiry.
-/

set_option autoImplicit false

namespace ScanPlatform.ExpirySweep

open AuditedControl Newest Retention

/-! ## Rows -/

/-- A row of `audit_events`. -/
structure AuditEvent where
  workspaceId : Uuid
  actorUserId : Option Uuid
  actorEmail : Option String
  action : String
  resourceType : String
  resourceId : Option Uuid
  detail : Option String
  outcome : Option String
  correlationId : Option String
  deriving DecidableEq

/-- A row of `remediation_events`, with its workspace. -/
structure ItemEvent extends RemediationEvent where
  workspaceId : Uuid

structure SweepDb where
  /-- The workspaces, and when they were created. -/
  workspaces : List (Uuid × ℤ)
  acceptances : List RiskAcceptance
  items : Table Uuid RemediationItem
  emails : Table Uuid String
  events : List ItemEvent
  auditEvents : List AuditEvent

/-- The process, with the text of a time. -/
structure ExpiryProcess extends Process where
  isoformat : ℤ → String

/-- A row that a flush is to insert, with the workspace as Python holds it. -/
inductive NewRow where
  | auditEvent (workspaceId : IdValue) (event : AuditEvent)
  | remediationEvent (event : ItemEvent)

def NewRow.workspaceId : NewRow → IdValue
  | .auditEvent workspaceId _ => workspaceId
  | .remediationEvent event => .uuid event.workspaceId

def NewRow.insert (db : SweepDb) : NewRow → SweepDb
  | .auditEvent _ event => { db with auditEvents := db.auditEvents ++ [event] }
  | .remediationEvent event => { db with events := db.events ++ [event] }

/-- The transaction as it sees the database, and `session.new`. -/
structure ExpirySession where
  db : SweepDb
  new : List NewRow

/-! ## The transaction of a workspace -/

section

variable (p : ExpiryProcess) (bound : Uuid) (workspaceId : IdValue)

/-- A flush. The listener compares the workspace of every new row with the bound one, which
`bind_workspace` has made a UUID. -/
def guardFlush (s : ExpirySession) : Except Fault ExpirySession :=
  if s.new.any fun row => row.workspaceId ≠ .uuid bound then
    .error (.raised "CrossTenantWriteError")
  else .ok ⟨s.new.foldl NewRow.insert s.db, []⟩

/-- `VALID_OUTCOMES`. -/
def validOutcomes : List String := ["success", "failure", "denied"]

/-- `record`. -/
def record (actorUserId : Option Uuid) (action resourceType : String) (resourceId : Option Uuid)
    (detail : Option String) (outcome : Option String) (s : ExpirySession) :
    Except Fault ExpirySession :=
  if outcome.any (· ∉ validOutcomes) then .error (.raised "ValueError")
  else
    let event : AuditEvent := {
      workspaceId := workspaceId.id, actorUserId, actorEmail := actorUserId.bind s.db.emails
      action, resourceType, resourceId, detail := scrubDetail p.toProcess detail, outcome
      correlationId := currentCorrelationId p.toProcess }
    guardFlush bound { s with new := s.new ++ [.auditEvent workspaceId event] }

/-- The item that the acceptance names, with its id. -/
def namedItem (db : SweepDb) (a : RiskAcceptance) : Option (Uuid × RemediationItem) :=
  a.remediationItemId.bind fun id => (db.items id).map fun item => (id, item)

/-- The event of `_record_event`. -/
def expiryEvent (a : RiskAcceptance) (item : Uuid × RemediationItem) : ItemEvent where
  workspaceId := item.2.workspaceId
  remediationItemId := item.1
  eventType := .riskAcceptanceExpired
  fromStatus := none
  toStatus := none
  actorUserId := none
  detail := some ("acceptance=" ++ a.id.str)

def expireRow (a : RiskAcceptance) : RiskAcceptance := { a with status := .expired }

/-- What is told of an acceptance that has expired. -/
def expiryDetail (a : RiskAcceptance) : String :=
  "acceptance=" ++ a.id.str ++ " expired_at=" ++ p.isoformat a.expiresAt

/-- The row of an acceptance that has expired. -/
def SweepDb.mark (db : SweepDb) (a : RiskAcceptance) : SweepDb :=
  { db with
    acceptances := db.acceptances.map fun row => if row.id = a.id then expireRow row else row }

/-- The event for the item, which the `SELECT` finds in the bound workspace. -/
def noteItem (a : RiskAcceptance) (s : ExpirySession) : ExpirySession :=
  let item := (namedItem s.db a).filter (·.2.workspaceId = bound)
  { s with new := s.new ++ item.toList.map fun item => .remediationEvent (expiryEvent a item) }

/-- The body of the loop. The `SELECT` of the item finds nothing left to flush. -/
def expireOne (s : ExpirySession) (a : RiskAcceptance) : Except Fault ExpirySession :=
  (record p bound workspaceId none "risk.acceptance_expired" "vulnerability"
    (some a.vulnerabilityId) (some (expiryDetail p a)) none ⟨s.db.mark a, s.new⟩).map
      (noteItem bound a)

/-- The acceptance is active, and its time has passed. -/
def Due (now : ℤ) (a : RiskAcceptance) : Prop := a.status = .active ∧ a.expiresAt ≤ now

instance (now : ℤ) : DecidablePred (Due now) := fun _ => inferInstanceAs (Decidable (_ ∧ _))

/-- The acceptances of a workspace that the `SELECT` finds. -/
def dueOf (db : SweepDb) (wid : Uuid) : List RiskAcceptance :=
  db.acceptances.filter fun a => a.workspaceId = wid ∧ Due p.now a

/-- `expire_due_acceptances`; the workspace of its condition and the bound one are the same. -/
def expireDueAcceptances (db : SweepDb) : Except Fault (SweepDb × ℕ) :=
  if (dueOf p db workspaceId.id).isEmpty then .ok (db, 0)
  else do
    let s ← (dueOf p db workspaceId.id).foldlM (expireOne p bound workspaceId) ⟨db, []⟩
    let s ← guardFlush bound s
    return (s.db, (dueOf p db workspaceId.id).length)

end

/-! ## The sweep -/

/-- The loop over the workspaces, whose ids Python holds as `asRead` says. -/
def sweepWorkspaces (p : ExpiryProcess) (asRead : Uuid → IdValue) :
    List Uuid → SweepDb × ℕ → SweepDb × ℕ
  | [], r => r
  | wid :: wids, (db, total) =>
    match expireDueAcceptances p wid (asRead wid) db with
    | .error _ => sweepWorkspaces p asRead wids (db, total)
    | .ok (db', n) => sweepWorkspaces p asRead wids (db', total + n)

/-- `SELECT id FROM workspaces ORDER BY created_at, id`. -/
def SweepDb.workspaceIds (db : SweepDb) : List Uuid := (sortByKey rankKey db.workspaces).map (·.1)

/-- `_expire_all_workspaces`: the ids are texts, as a raw `SELECT` returns them. -/
def expireAllWorkspaces (p : ExpiryProcess) (db : SweepDb) : SweepDb × ℕ :=
  sweepWorkspaces p .text db.workspaceIds (db, 0)

/-! ## A transaction with a UUID -/

section

variable {p : ExpiryProcess} {bound wid : Uuid} {db : SweepDb} {s : ExpirySession}

/-- What `audit.record` writes of an acceptance. -/
def expiryAudit (p : ExpiryProcess) (a : RiskAcceptance) : AuditEvent where
  workspaceId := a.workspaceId
  actorUserId := none
  actorEmail := none
  action := "risk.acceptance_expired"
  resourceType := "vulnerability"
  resourceId := some a.vulnerabilityId
  detail := scrubDetail p.toProcess (some (expiryDetail p a))
  outcome := none
  correlationId := currentCorrelationId p.toProcess

/-- What is written of some acceptances: their rows, and the events of each of them. -/
def SweepDb.expire (p : ExpiryProcess) (db : SweepDb) (due : List RiskAcceptance) : SweepDb :=
  { db with
    acceptances := db.acceptances.map fun row =>
      if due.any (row.id = ·.id) then expireRow row else row
    auditEvents := db.auditEvents ++ due.map (expiryAudit p)
    events := db.events ++ due.filterMap fun a => (namedItem db a).map (expiryEvent a) }

/-- The new rows are of the bound workspace. -/
def ExpirySession.Clean (bound : Uuid) (s : ExpirySession) : Prop :=
  ∀ row ∈ s.new, row.workspaceId = .uuid bound

/-- The database once the new rows are in it. -/
def ExpirySession.view (s : ExpirySession) : SweepDb := s.new.foldl NewRow.insert s.db

theorem guardFlush_clean (h : s.Clean bound) : guardFlush bound s = .ok ⟨s.view, []⟩ := by
  unfold guardFlush
  rw [if_neg]
  · rfl
  · simpa [ExpirySession.Clean] using h

def NewRow.audit? : NewRow → Option AuditEvent
  | .auditEvent _ event => some event
  | .remediationEvent _ => none

def NewRow.event? : NewRow → Option ItemEvent
  | .auditEvent _ _ => none
  | .remediationEvent event => some event

theorem foldl_insert (rows : List NewRow) (db : SweepDb) :
    rows.foldl NewRow.insert db = { db with
      auditEvents := db.auditEvents ++ rows.filterMap NewRow.audit?
      events := db.events ++ rows.filterMap NewRow.event? } := by
  induction rows generalizing db with
  | nil => simp
  | cons row rows ih =>
    rw [List.foldl_cons, ih]
    cases row <;> simp [NewRow.insert, NewRow.audit?, NewRow.event?, List.filterMap_cons]

/-- The items that acceptances name are in their workspaces. -/
def SweepDb.ItemsApart (db : SweepDb) : Prop :=
  ∀ a ∈ db.acceptances, ∀ item ∈ namedItem db a, item.2.workspaceId = a.workspaceId

/-- One acceptance of the bound workspace. -/
theorem expireOne_uuid {a : RiskAcceptance} (h : s.Clean bound) (ha : a.workspaceId = bound)
    (hitem : ∀ item ∈ namedItem s.view a, item.2.workspaceId = a.workspaceId) :
    ∃ s', expireOne p bound (.uuid bound) s a = .ok s' ∧ s'.Clean bound ∧
      s'.view = s.view.expire p [a] := by
  let audited : ExpirySession :=
    ⟨s.db.mark a, s.new ++ [.auditEvent (.uuid bound) (expiryAudit p a)]⟩
  have hclean : audited.Clean bound := by
    intro row hrow
    rcases List.mem_append.mp hrow with hrow | hrow
    · exact h row hrow
    · rw [List.mem_singleton.mp hrow]
      rfl
  have hrecord : record p bound (.uuid bound) none "risk.acceptance_expired" "vulnerability"
      (some a.vulnerabilityId) (some (expiryDetail p a)) none ⟨s.db.mark a, s.new⟩ =
        .ok ⟨audited.view, []⟩ := by
    rw [← guardFlush_clean hclean]
    unfold record
    rw [if_neg (by simp)]
    simp only [audited, expiryAudit, ha]
    rfl
  have hsame : namedItem audited.view a = namedItem s.view a := by
    simp only [namedItem, audited, ExpirySession.view, foldl_insert, SweepDb.mark]
  have hitems : (namedItem audited.view a).filter (·.2.workspaceId = bound) =
      namedItem s.view a := by
    rw [hsame]
    cases hnamed : namedItem s.view a with
    | none => rfl
    | some item => exact if_pos (decide_eq_true ((hitem item hnamed).trans ha))
  refine ⟨noteItem bound a ⟨audited.view, []⟩, ?_, ?_, ?_⟩
  · rw [expireOne, hrecord]
    rfl
  · intro row hrow
    simp only [noteItem, hitems, List.nil_append, List.mem_map, Option.mem_toList] at hrow
    obtain ⟨item, hmem, rfl⟩ := hrow
    exact congrArg IdValue.uuid ((hitem item hmem).trans ha)
  · have hview : s.view.expire p [a] = { s.view.mark a with
        auditEvents := s.view.auditEvents ++ [expiryAudit p a]
        events := s.view.events ++ ((namedItem s.view a).map (expiryEvent a)).toList } := by
      unfold SweepDb.expire SweepDb.mark
      cases hnamed : namedItem s.view a with
      | none => simp [hnamed]
      | some item => simp [hnamed]
    rw [hview]
    simp only [noteItem, hitems]
    cases namedItem s.view a with
    | none => simp [ExpirySession.view, foldl_insert, audited, SweepDb.mark, NewRow.insert]
    | some item => simp [ExpirySession.view, foldl_insert, audited, SweepDb.mark, NewRow.insert]

theorem expire_nil : db.expire p [] = db := by
  simp [SweepDb.expire]

theorem expire_cons (a : RiskAcceptance) (due : List RiskAcceptance) :
    (db.expire p [a]).expire p due = db.expire p (a :: due) := by
  have hnamed : ∀ b, namedItem (db.expire p [a]) b = namedItem db b := fun _ => rfl
  have hrow : ∀ row : RiskAcceptance,
      (if due.any ((if row.id = a.id then expireRow row else row).id = ·.id) then
        expireRow (if row.id = a.id then expireRow row else row)
      else if row.id = a.id then expireRow row else row) =
        if (a :: due).any (row.id = ·.id) then expireRow row else row := by
    intro row
    by_cases hid : row.id = a.id
    · have htwice : expireRow (expireRow row) = expireRow row := rfl
      rw [if_pos hid, htwice, ite_self, if_pos (by simp [hid])]
    · simp [hid]
  unfold SweepDb.expire at hnamed ⊢
  simp only [hnamed, List.map_map, List.append_assoc, ← List.map_append, ← List.filterMap_append,
    List.singleton_append, SweepDb.mk.injEq, true_and, and_true]
  refine List.map_congr_left fun row _ => ?_
  simpa using hrow row

/-- The acceptances of the bound workspace that are due, one after another. -/
theorem foldlM_expireOne (due : List RiskAcceptance) (h : s.Clean bound)
    (hdue : ∀ a ∈ due, a.workspaceId = bound ∧
      ∀ item ∈ namedItem s.view a, item.2.workspaceId = a.workspaceId) :
    ∃ s', due.foldlM (expireOne p bound (.uuid bound)) s = .ok s' ∧ s'.Clean bound ∧
      s'.view = s.view.expire p due := by
  induction due generalizing s with
  | nil => exact ⟨s, rfl, h, expire_nil.symm⟩
  | cons a due ih =>
    obtain ⟨s₁, hstep, hclean, hview⟩ := expireOne_uuid (p := p) h (hdue a (by simp)).1
      (hdue a (by simp)).2
    have hrest : ∀ b ∈ due, b.workspaceId = bound ∧
        ∀ item ∈ namedItem s₁.view b, item.2.workspaceId = b.workspaceId := by
      intro b hb
      rw [hview]
      exact hdue b (List.mem_cons_of_mem _ hb)
    obtain ⟨s', hfold, hclean', hview'⟩ := ih hclean hrest
    refine ⟨s', ?_, hclean', ?_⟩
    · rw [List.foldlM_cons, hstep]
      exact hfold
    · rw [hview', hview, expire_cons]

/-- **The transaction of a workspace whose id is a UUID** expires the acceptances that are due. -/
theorem expireDueAcceptances_uuid (h : db.ItemsApart) :
    expireDueAcceptances p wid (.uuid wid) db =
      .ok (db.expire p (dueOf p db wid), (dueOf p db wid).length) := by
  have hdue : ∀ a ∈ dueOf p db wid, a.workspaceId = wid ∧
      ∀ item ∈ namedItem (ExpirySession.view ⟨db, []⟩) a, item.2.workspaceId = a.workspaceId := by
    intro a ha
    have hmem := List.mem_filter.mp ha
    exact ⟨(of_decide_eq_true hmem.2).1, h a hmem.1⟩
  obtain ⟨s', hfold, hclean, hview⟩ := @foldlM_expireOne p wid ⟨db, []⟩ _
    (by simp [ExpirySession.Clean]) hdue
  have hid : (IdValue.uuid wid).id = wid := rfl
  unfold expireDueAcceptances
  rw [hid]
  by_cases hnone : (dueOf p db wid).isEmpty
  · rw [if_pos hnone, List.isEmpty_iff.mp hnone, expire_nil]
    rfl
  · rw [if_neg hnone, hfold]
    change (guardFlush wid s').bind _ = _
    rw [guardFlush_clean hclean, hview]
    rfl

/-! ## A transaction with a text -/

/-- The text of an id is not the UUID that the transaction is bound to. -/
theorem expireOne_text (a : RiskAcceptance) :
    ∃ e, expireOne p wid (.text wid) s a = .error e := by
  refine ⟨.raised "CrossTenantWriteError", ?_⟩
  unfold expireOne record guardFlush
  rw [if_neg (by simp), if_pos (by simp [NewRow.workspaceId])]
  rfl

theorem expireDueAcceptances_text :
    expireDueAcceptances p wid (.text wid) db = .ok (db, 0) ∨
      ∃ e, expireDueAcceptances p wid (.text wid) db = .error e := by
  unfold expireDueAcceptances
  cases hdue : dueOf p db (IdValue.text wid).id with
  | nil => exact .inl (if_pos rfl)
  | cons a due =>
    obtain ⟨e, he⟩ := @expireOne_text p wid ⟨db, []⟩ a
    refine .inr ⟨e, ?_⟩
    rw [if_neg (by simp), List.foldlM_cons, he]
    rfl

theorem sweepWorkspaces_text (wids : List Uuid) (total : ℕ) :
    sweepWorkspaces p .text wids (db, total) = (db, total) := by
  induction wids generalizing total with
  | nil => rfl
  | cons wid wids ih =>
    unfold sweepWorkspaces
    rcases @expireDueAcceptances_text p wid db with h | ⟨e, h⟩
    · rw [h]
      exact ih _
    · rw [h]
      exact ih _

/-- **The sweep changes nothing**, whatever is due. -/
theorem expireAllWorkspaces_eq : expireAllWorkspaces p db = (db, 0) :=
  sweepWorkspaces_text _ _

/-! ## Enforcement -/

/-- After `db'`, no acceptance is due. Of those that were due in `db`, and of no others, the rows
have changed and the events are written. -/
structure ExpiryEnforced (p : ExpiryProcess) (db db' : SweepDb) : Prop where
  none_due : ∀ a ∈ db'.acceptances, ¬ Due p.now a
  acceptances : db'.acceptances =
    db.acceptances.map fun a => if Due p.now a then expireRow a else a
  audited : db'.auditEvents.Perm
    (db.auditEvents ++ (db.acceptances.filter fun a => Due p.now a).map (expiryAudit p))
  noted : db'.events.Perm (db.events ++
    (db.acceptances.filter fun a => Due p.now a).filterMap fun a =>
      (namedItem db a).map (expiryEvent a))

theorem expiryEnforced_of_none (h : ∀ a ∈ db.acceptances, ¬ Due p.now a) :
    ExpiryEnforced p db db := by
  have hfilter : (db.acceptances.filter fun a => Due p.now a) = [] := by
    simpa using h
  have hmap : (db.acceptances.map fun a => if Due p.now a then expireRow a else a) =
      db.acceptances := by
    conv_rhs => rw [← List.map_id db.acceptances]
    exact List.map_congr_left fun a ha => if_neg (h a ha)
  refine ⟨h, hmap.symm, ?_, ?_⟩
  · rw [hfilter]
    simp
  · rw [hfilter]
    simp

/-- **The sweep enforces every expiry** if and only if no acceptance is due. -/
theorem expiry_enforced_iff (p : ExpiryProcess) (db : SweepDb) :
    ExpiryEnforced p db (expireAllWorkspaces p db).1 ↔ ∀ a ∈ db.acceptances, ¬ Due p.now a := by
  rw [expireAllWorkspaces_eq]
  constructor
  · intro h
    exact h.none_due
  · exact expiryEnforced_of_none

/-- An active acceptance, due at 0. -/
def labDue : RiskAcceptance where
  id := 9
  workspaceId := 1
  projectId := 2
  vulnerabilityId := 3
  remediationItemId := none
  justification := ""
  acceptedBy := none
  approvedBy := none
  expiresAt := 0
  reviewDueAt := none
  status := .active
  revokedBy := none
  revokedAt := none
  revokeReason := none

def labExpiry : ExpiryProcess := ⟨labProcess, fun _ => ""⟩

def labSweep : SweepDb := ⟨[(1, 0)], [labDue], fun _ => none, fun _ => none, [], []⟩

/-- The acceptance of the only workspace outlives its expiry. -/
theorem expiry_not_enforced :
    ¬ ExpiryEnforced labExpiry labSweep (expireAllWorkspaces labExpiry labSweep).1 := by
  intro h
  have hactive : ∃ a ∈ (expireAllWorkspaces labExpiry labSweep).1.acceptances,
      Due labExpiry.now a := by
    decide
  obtain ⟨a, ha, hdue⟩ := hactive
  exact h.none_due a ha hdue

end

end ScanPlatform.ExpirySweep

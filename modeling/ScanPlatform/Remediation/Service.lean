import ScanPlatform.Base.Sessions
import ScanPlatform.Base.Versions
import ScanPlatform.Remediation.Db

/-!
# The remediation service

Every function resolves the item, checks what it is asked to do, and writes the item on the
condition that it still has the version that the caller expects.

* `RemediationTxn`, `RemediationWrite`: the transactions of the workflow;
* `bumpVersion`, `recordEvent`: the compare-and-set, and the timeline;
* `getItem`, `applyTransition`: what the functions share;
* `createItem`: the insertion of an item;
* `updateItem`, `transition`, `reopenForRegression`: the functions;
* `RemediationItem.enter`, `ItemPatch.apply`: what they make of an item.
-/

set_option autoImplicit false

namespace ScanPlatform

open Sessions

/-! ## The compare-and-set and the timeline -/

/-- The time, and a fresh id for a row that is inserted. -/
structure Moment where
  now : ℤ
  newId : Uuid

abbrev RemediationTxn := Txn Moment RemediationDb Fault

abbrev RemediationWrite := Write Moment RemediationDb Fault

/-- `StaleVersionError`. -/
def staleVersionError (expected : ℕ) (actual : Option ℕ) : Fault :=
  .http 409 (s!"Remediation item was modified by someone else (expected version {expected}" ++
    (actual.elim "" fun actual => s!", current is {actual}") ++ "). Re-read the item and retry.")

/-- `_record_event`. -/
def RemediationDb.recordEvent (db : RemediationDb) (item : Uuid) (eventType : EventType)
    (actorUserId : Option Uuid) (fromStatus toStatus : Option RemediationStatus)
    (detail : Option String) : RemediationDb :=
  { db with
    events := db.events ++ [{
      remediationItemId := item, eventType, fromStatus, toStatus, actorUserId, detail }] }

/-- The columns that no call assigns. -/
structure RemediationItem.SameIssue (item item' : RemediationItem) : Prop where
  workspaceId : item'.workspaceId = item.workspaceId
  projectId : item'.projectId = item.projectId
  issueKey : item'.issueKey = item.issueKey

/-- The row after a flush of the columns that a session has changed. -/
def RemediationItem.flush (read assigned row : RemediationItem) : RemediationItem :=
  { row with
    status := Versions.flush read.status assigned.status row.status
    priority := Versions.flush read.priority assigned.priority row.priority
    assigneeUserId := Versions.flush read.assigneeUserId assigned.assigneeUserId row.assigneeUserId
    dueDate := Versions.flush read.dueDate assigned.dueDate row.dueDate
    notes := Versions.flush read.notes assigned.notes row.notes
    notesSource := Versions.flush read.notesSource assigned.notesSource row.notesSource
    resolvedAt := Versions.flush read.resolvedAt assigned.resolvedAt row.resolvedAt
    verifiedAt := Versions.flush read.verifiedAt assigned.verifiedAt row.verifiedAt }

/-- A flush over the row that was read writes what was assigned. -/
theorem RemediationItem.flush_self {read assigned : RemediationItem}
    (h : read.SameIssue assigned) :
    RemediationItem.flush read assigned read = { assigned with version := read.version } := by
  simp [RemediationItem.flush, h.workspaceId, h.projectId, h.issueKey]

/-- `_bump_version`, with the columns that the session flushes in the same transaction. -/
def bumpVersion (id : Uuid) (read assigned : RemediationItem) (expectedVersion : ℕ)
    (db : RemediationDb) : Except Fault RemediationDb :=
  match db.items id with
  | none => .error (staleVersionError expectedVersion none)
  | some row =>
    if row.version = expectedVersion then
      .ok { db with
        items := db.items.set id
          { RemediationItem.flush read assigned row with version := expectedVersion + 1 } }
    else .error (staleVersionError expectedVersion (some row.version))

theorem bumpVersion_eq_ok {id : Uuid} {read assigned : RemediationItem} {expectedVersion : ℕ}
    {db db' : RemediationDb} : bumpVersion id read assigned expectedVersion db = .ok db' ↔
      ∃ row, db.items id = some row ∧ row.version = expectedVersion ∧ db' = { db with
        items := db.items.set id
          { RemediationItem.flush read assigned row with version := expectedVersion + 1 } } := by
  unfold bumpVersion
  cases db.items id with
  | none => simp
  | some row =>
    by_cases hrow : row.version = expectedVersion
    · simp [hrow, eq_comm]
    · simp [hrow]

/-- The statement of `get_item`. -/
def findItem (workspaceId projectId itemId : Uuid) (db : RemediationDb) :
    Except Fault RemediationItem :=
  match (db.items itemId).filter fun item =>
      item.projectId = projectId ∧ item.workspaceId = workspaceId with
  | none => .error (.http 404 "Remediation item not found")
  | some item => .ok item

theorem findItem_eq_ok {workspaceId projectId itemId : Uuid} {db : RemediationDb}
    {item : RemediationItem} : findItem workspaceId projectId itemId db = .ok item ↔
      db.items itemId = some item ∧ item.projectId = projectId ∧
        item.workspaceId = workspaceId := by
  unfold findItem
  constructor
  · intro h
    split at h
    · cases h
    · next row hrow =>
      cases h
      simpa [Option.filter_eq_some_iff] using hrow
  · rintro ⟨hrow, rfl, rfl⟩
    simp [hrow, Option.filter]

/-- `get_item`. -/
def getItem (workspaceId projectId itemId : Uuid) : RemediationTxn RemediationItem :=
  query fun _ db => findItem workspaceId projectId itemId db

/-! ## Creation -/

/-- An issue for which `sync_items_for_project` finds no item. -/
structure NewIssue where
  workspaceId : Uuid
  projectId : Uuid
  key : String
  severity : Option String
  locationCount : ℕ
  actorUserId : Option Uuid

/-- `_seed_priority`. -/
def seedPriority (severity : Option String) : Priority :=
  let sev := PyStr.lower (severity.getD "")
  ([Priority.critical, .high, .medium, .low].find? (·.text = sev)).getD .medium

/-- The item of a new issue. -/
def NewIssue.item (issue : NewIssue) : RemediationItem where
  workspaceId := issue.workspaceId
  projectId := issue.projectId
  issueKey := issue.key
  status := .proposed
  priority := seedPriority issue.severity
  assigneeUserId := none
  dueDate := none
  notes := none
  notesSource := none
  resolvedAt := none
  verifiedAt := none
  version := 1

/-- The insertion of `sync_items_for_project`, unless the id or the issue is taken. -/
def createItem (id : Uuid) (issue : NewIssue) (db : RemediationDb) : Option RemediationDb :=
  if (db.items id).isNone ∧ (db.issues (issue.projectId, issue.key)).isNone then
    let db := { db with
      items := db.items.set id issue.item
      issues := db.issues.set (issue.projectId, issue.key) id }
    some (db.recordEvent id .created issue.actorUserId none (some .proposed)
      (some (s!"issue_key={issue.key} locations={issue.locationCount}")))
  else none

/-- What an insertion writes. -/
theorem createItem_eq {id : Uuid} {issue : NewIssue} {db db' : RemediationDb}
    (h : createItem id issue db = some db') :
    db.items id = none ∧ db' =
      { db with
        items := db.items.set id issue.item
        issues := db.issues.set (issue.projectId, issue.key) id }.recordEvent id .created
          issue.actorUserId none (some .proposed)
          (some (s!"issue_key={issue.key} locations={issue.locationCount}")) := by
  unfold createItem at h
  obtain ⟨⟨hid, -⟩, h⟩ := Option.ite_none_right_eq_some.mp h
  exact ⟨Option.isNone_iff_eq_none.mp hid, (Option.some.inj h).symm⟩

/-! ## Transitions -/

/-- The status and the stamps of `_apply_transition`. -/
def RemediationItem.enter (now : ℤ) (toStatus : RemediationStatus) (item : RemediationItem) :
    RemediationItem :=
  let item := { item with status := toStatus }
  let item := if toStatus = .verified then { item with verifiedAt := some now } else item
  if toStatus ∈ resolvedStatuses then { item with resolvedAt := some now }
  else if toStatus ∈ openStatuses then
    let item := { item with resolvedAt := none }
    if toStatus ≠ .awaitingVerification then { item with verifiedAt := none } else item
  else item

theorem RemediationItem.enter_sameIssue (item : RemediationItem) (now : ℤ)
    (toStatus : RemediationStatus) : item.SameIssue (item.enter now toStatus) := by
  unfold RemediationItem.enter
  split_ifs <;> exact ⟨rfl, rfl, rfl⟩

@[simp] theorem RemediationItem.enter_status (item : RemediationItem) (now : ℤ)
    (toStatus : RemediationStatus) : (item.enter now toStatus).status = toStatus := by
  unfold RemediationItem.enter
  split_ifs <;> rfl

/-- `_apply_transition`, for an item as the session has read it. -/
def applyTransition (id : Uuid) (item : RemediationItem) (actorUserId : Option Uuid)
    (expectedVersion : ℕ) (toStatus : RemediationStatus) (detail : Option String) :
    RemediationWrite := fun moment db => do
  let db ← bumpVersion id item (item.enter moment.now toStatus) expectedVersion db
  .ok (db.recordEvent id .transition actorUserId (some item.status) (some toStatus) detail)

/-- What every call of a human names: the item, the caller, and the version that the caller has
read. -/
structure ItemCall where
  workspaceId : Uuid
  projectId : Uuid
  itemId : Uuid
  actorUserId : Uuid
  expectedVersion : ℕ

structure TransitionCall extends ItemCall where
  toStatus : RemediationStatus
  detail : Option String

/-- `transition`. -/
def transition (call : TransitionCall) : RemediationTxn RemediationWrite := do
  let item ← getItem call.workspaceId call.projectId call.itemId
  raiseIf (call.toStatus ∈ guardedTargets) (.http 400 (
    s!"'{call.toStatus.text}' cannot be set directly. Use the verification workflow for " ++
      "'verified', or the risk-acceptance endpoint for 'risk_accepted'."))
  let allowed := sorted (((allowedTargets item.status).filter (· ∉ guardedTargets)).map (·.text))
  let allowed := if allowed = [] then "none" else String.intercalate ", " allowed
  raiseIf (!isLegal item.status call.toStatus) (.http 409 (
    s!"Illegal transition '{item.status.text}' -> '{call.toStatus.text}'. " ++
      s!"Allowed from '{item.status.text}': {allowed}."))
  return applyTransition call.itemId item (some call.actorUserId) call.expectedVersion
    call.toStatus call.detail

structure RegressionCall where
  workspaceId : Uuid
  projectId : Uuid
  issueKey : String

/-- `reopen_for_regression`. -/
def reopenForRegression (call : RegressionCall) : RemediationTxn RemediationWrite := do
  let row ← query fun _ db => .ok ((db.issues (call.projectId, call.issueKey)).bind fun id =>
    (db.items id).bind fun item =>
      if item.projectId = call.projectId ∧ item.workspaceId = call.workspaceId ∧
        item.issueKey = call.issueKey then some (id, item) else none)
  match row with
  | none => return fun _ db => .ok db
  | some (id, item) =>
    if isLegal item.status .reopened then
      return applyTransition id item none item.version .reopened (some "re-detected by a scan")
    else return fun _ db => .ok db

/-! ## Updates -/

/-- The fields of `update_item`; a due date is an instant. -/
structure ItemPatch where
  assigneeUserId : Option Uuid
  clearAssignee : Bool
  dueDate : Option ℤ
  clearDueDate : Bool
  priority : Option Priority
  notes : Option String

/-- The changes that a call has collected, and the item as it has assigned it. -/
abbrev Changes := List (EventType × String) × RemediationItem

def ItemPatch.assignAssignee (p : ItemPatch) (c : Changes) : Changes :=
  if p.clearAssignee then
    if c.2.assigneeUserId ≠ none then
      (c.1 ++ [(.assigned, "assignee cleared")], { c.2 with assigneeUserId := none })
    else c
  else
    match p.assigneeUserId with
    | none => c
    | some user =>
      if c.2.assigneeUserId ≠ some user then
        (c.1 ++ [(.assigned, "assignee -> " ++ user.str)], { c.2 with assigneeUserId := some user })
      else c

def ItemPatch.assignDueDate (svc : RemediationServices) (p : ItemPatch) (c : Changes) : Changes :=
  if p.clearDueDate then
    if c.2.dueDate ≠ none then
      (c.1 ++ [(.dueDateChanged, "due date cleared")], { c.2 with dueDate := none })
    else c
  else
    match p.dueDate with
    | none => c
    | some due =>
      if c.2.dueDate ≠ some due then
        (c.1 ++ [(.dueDateChanged, "due date -> " ++ svc.isoformat due)],
          { c.2 with dueDate := some due })
      else c

def ItemPatch.assignPriority (p : ItemPatch) (c : Changes) : Changes :=
  match p.priority with
  | none => c
  | some priority =>
    if c.2.priority ≠ priority then
      (c.1 ++ [(.priorityChanged, s!"{c.2.priority.text} -> {priority.text}")],
        { c.2 with priority })
    else c

def ItemPatch.assignNotes (p : ItemPatch) (c : Changes) : Changes :=
  match p.notes with
  | none => c
  | some notes =>
    if notes ≠ c.2.notes.getD "" then
      (c.1 ++ [(.notesChanged, "notes updated")],
        { c.2 with notes := some notes, notesSource := some .human })
    else c

/-- The changes of `update_item`. -/
def ItemPatch.apply (svc : RemediationServices) (p : ItemPatch) (item : RemediationItem) :
    Changes :=
  p.assignNotes (p.assignPriority (p.assignDueDate svc (p.assignAssignee ([], item))))

/-- What collecting the changes of a patch leaves alone. -/
structure Changes.Keeps (item : RemediationItem) (c : Changes) : Prop where
  sameIssue : item.SameIssue c.2
  status : c.2.status = item.status
  resolvedAt : c.2.resolvedAt = item.resolvedAt
  verifiedAt : c.2.verifiedAt = item.verifiedAt
  events : ∀ change ∈ c.1, change.1 ≠ .transition

section

variable {item : RemediationItem} {c : Changes}

/-- A change appends an event that is no transition. -/
theorem Changes.Keeps.append (h : c.Keeps item) {t : EventType} (ht : t ≠ .transition)
    (detail : String) {item' : RemediationItem} (hissue : c.2.SameIssue item')
    (hstatus : item'.status = c.2.status) (hresolved : item'.resolvedAt = c.2.resolvedAt)
    (hverified : item'.verifiedAt = c.2.verifiedAt) :
    Changes.Keeps item (c.1 ++ [(t, detail)], item') where
  sameIssue := ⟨hissue.workspaceId.trans h.sameIssue.workspaceId,
    hissue.projectId.trans h.sameIssue.projectId, hissue.issueKey.trans h.sameIssue.issueKey⟩
  status := hstatus.trans h.status
  resolvedAt := hresolved.trans h.resolvedAt
  verifiedAt := hverified.trans h.verifiedAt
  events change hchange := by
    rcases List.mem_append.mp hchange with hchange | hchange
    · exact h.events change hchange
    · rw [List.mem_singleton.mp hchange]
      exact ht

theorem ItemPatch.assignAssignee_keeps (p : ItemPatch) (h : c.Keeps item) :
    (p.assignAssignee c).Keeps item := by
  unfold ItemPatch.assignAssignee
  split_ifs
  · exact h.append (by decide) _ ⟨rfl, rfl, rfl⟩ rfl rfl rfl
  · exact h
  · split
    · exact h
    · split_ifs
      · exact h.append (by decide) _ ⟨rfl, rfl, rfl⟩ rfl rfl rfl
      · exact h

theorem ItemPatch.assignDueDate_keeps (svc : RemediationServices) (p : ItemPatch)
    (h : c.Keeps item) : (p.assignDueDate svc c).Keeps item := by
  unfold ItemPatch.assignDueDate
  split_ifs
  · exact h.append (by decide) _ ⟨rfl, rfl, rfl⟩ rfl rfl rfl
  · exact h
  · split
    · exact h
    · split_ifs
      · exact h.append (by decide) _ ⟨rfl, rfl, rfl⟩ rfl rfl rfl
      · exact h

theorem ItemPatch.assignPriority_keeps (p : ItemPatch) (h : c.Keeps item) :
    (p.assignPriority c).Keeps item := by
  unfold ItemPatch.assignPriority
  split
  · exact h
  · split_ifs
    · exact h.append (by decide) _ ⟨rfl, rfl, rfl⟩ rfl rfl rfl
    · exact h

theorem ItemPatch.assignNotes_keeps (p : ItemPatch) (h : c.Keeps item) :
    (p.assignNotes c).Keeps item := by
  unfold ItemPatch.assignNotes
  split
  · exact h
  · split_ifs
    · exact h.append (by decide) _ ⟨rfl, rfl, rfl⟩ rfl rfl rfl
    · exact h

theorem ItemPatch.apply_keeps (svc : RemediationServices) (p : ItemPatch)
    (item : RemediationItem) : (p.apply svc item).Keeps item := by
  have hstart : Changes.Keeps item ([], item) := ⟨⟨rfl, rfl, rfl⟩, rfl, rfl, rfl, by simp⟩
  exact p.assignNotes_keeps (p.assignPriority_keeps (p.assignDueDate_keeps svc
    (p.assignAssignee_keeps hstart)))

end

/-- `_require_workspace_member`. -/
def requireWorkspaceMember (workspaceId userId : Uuid) : RemediationTxn Unit :=
  query fun _ db =>
    if (workspaceId, userId) ∈ db.members then .ok ()
    else .error (.http 400 "Assignee must be a member of this workspace")

/-- The assignee that a patch names must be a member. -/
def ItemPatch.requireMember (workspaceId : Uuid) (p : ItemPatch) : RemediationTxn Unit :=
  match p.assigneeUserId with
  | none => pure ()
  | some user => if p.clearAssignee then pure () else requireWorkspaceMember workspaceId user

structure UpdateCall extends ItemCall where
  patch : ItemPatch

/-- `update_item`. -/
def updateItem (svc : RemediationServices) (call : UpdateCall) :
    RemediationTxn RemediationWrite := do
  let item ← getItem call.workspaceId call.projectId call.itemId
  call.patch.requireMember call.workspaceId
  let changes := call.patch.apply svc item
  if changes.1 = [] then return fun _ db => .ok db
  else return fun _ db => do
    let db ← bumpVersion call.itemId item changes.2 call.expectedVersion db
    .ok (changes.1.foldl (fun db change => db.recordEvent call.itemId change.1
      (some call.actorUserId) none none (some change.2)) db)

end ScanPlatform

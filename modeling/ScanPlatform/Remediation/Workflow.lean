import ScanPlatform.Base.Checks
import ScanPlatform.Remediation.Verification

/-!
# The remediation workflow

All calls of the remediation functions in progress at once, with what the rest of the system writes
to the tables that they read.

* `RemediationCall`, `RemediationCall.prog`: the calls;
* `Elsewhere`: new items, claims of verification requests, and the tables of the scanner;
* `remediationStep`, `CallersRead`: the steps, and what the callers of a run know;
* `Grows`, `HasRead`, `NoneOutstanding`, `FinishedFor`: what a session relies on;
* `ItemChange`, `Commit`: what a commit does to an item, its timeline and its requests;
* `Commit.of_item`, `Commit.of_applyTransition`: the writes that are commits in this sense.
-/

set_option autoImplicit false

namespace ScanPlatform

open Sessions Versions

/-! ## Calls and steps -/

inductive RemediationCall where
  | transition (call : TransitionCall)
  | updateItem (call : UpdateCall)
  | requestVerification (call : VerificationCall)
  | completeVerification (call : CompletionCall)
  | acceptRisk (call : AcceptanceCall)
  | reopenForRegression (call : RegressionCall)

def RemediationCall.prog (svc : RemediationServices) :
    RemediationCall → RemediationTxn RemediationWrite
  | .transition call => ScanPlatform.transition call
  | .updateItem call => ScanPlatform.updateItem svc call
  | .requestVerification call => ScanPlatform.requestVerification svc call
  | .completeVerification call => ScanPlatform.completeVerification svc call
  | .acceptRisk call => ScanPlatform.acceptRisk svc call
  | .reopenForRegression call => ScanPlatform.reopenForRegression call

/-- The item and the version that a call expects of it. -/
def RemediationCall.expected : RemediationCall → Option (Uuid × ℕ)
  | .transition call => some (call.itemId, call.expectedVersion)
  | .updateItem call => some (call.itemId, call.expectedVersion)
  | .requestVerification call => some (call.itemId, call.expectedVersion)
  | .acceptRisk call => call.remediationItemId.bind fun id => call.expectedVersion.map (id, ·)
  | .completeVerification _ | .reopenForRegression _ => none

/-- What else is written: an item is inserted, a worker claims a request, or the tables of members
and of the scanner are written. A scan that is deleted is cleared from the requests. -/
inductive Elsewhere where
  | createItem (id : Uuid) (issue : NewIssue)
  | claimVerification (now : ℤ) (id workerToken : Uuid)
  | write (members : List (Uuid × Uuid)) (scans : Table Uuid Scan)
      (vulnerabilities : List Vulnerability) (toolRuns : List ToolRun)

def Elsewhere.apply : Elsewhere → RemediationDb → Option RemediationDb
  | .createItem id issue, db => ScanPlatform.createItem id issue db
  | .claimVerification now id workerToken, db =>
    some { db with requests := db.requests.map (ScanPlatform.claimVerification now id workerToken) }
  | .write members scans vulnerabilities toolRuns, db => some { db with
      members, scans, vulnerabilities, toolRuns
      requests := db.requests.map fun q =>
        { q with scanId := q.scanId.filter fun scan => (scans scan).isSome } }

abbrev RemediationSystem := System RemediationCall Moment RemediationDb Fault

abbrev RemediationStep := Action RemediationCall Moment Elsewhere

def remediationStep (svc : RemediationServices) :
    RemediationStep → RemediationSystem → Option RemediationSystem :=
  act (RemediationCall.prog svc) Elsewhere.apply

/-- The version that a caller expects is one that the item has had. -/
def CallersRead (S : RemediationSystem) : RemediationStep → Prop
  | .call _ c => ∀ e ∈ c.expected, ∃ row ∈ S.db.items e.1, e.2 ≤ row.version
  | .advance _ _ | .drop _ | .other _ => True

instance (S : RemediationSystem) : (a : RemediationStep) → Decidable (CallersRead S a)
  | .call _ c => inferInstanceAs (Decidable (∀ e ∈ c.expected, _))
  | .advance _ _ | .drop _ | .other _ => .isTrue trivial

/-! ## What a commit does to an item -/

/-- How one commit replaces an item: by a legal transition of it, or by a patch of it. -/
inductive ItemChange (item : RemediationItem) : RemediationItem → Prop
  | enter (now : ℤ) (toStatus : RemediationStatus) (h : isLegal item.status toStatus) :
    ItemChange item { item.enter now toStatus with version := item.version + 1 }
  | patch (svc : RemediationServices) (p : ItemPatch) :
    ItemChange item { (p.apply svc item).2 with version := item.version + 1 }

/-- The transitions that a change of an item adds to its timeline. -/
def transitionEntry (item item' : RemediationItem) :
    List (Option RemediationStatus × Option RemediationStatus) :=
  if item.status = item'.status then [] else [(some item.status, some item'.status)]

theorem ItemChange.version_eq {item item' : RemediationItem} (h : ItemChange item item') :
    item'.version = item.version + 1 := by
  cases h <;> rfl

theorem ItemChange.ne {item item' : RemediationItem} (h : ItemChange item item') :
    item' ≠ item := by
  intro heq
  have := h.version_eq
  rw [heq] at this
  omega

theorem ItemChange.sameIssue {item item' : RemediationItem} (h : ItemChange item item') :
    item.SameIssue item' := by
  cases h with
  | enter now toStatus _ =>
    have := item.enter_sameIssue now toStatus
    exact ⟨this.workspaceId, this.projectId, this.issueKey⟩
  | patch svc p =>
    have := (p.apply_keeps svc item).sameIssue
    exact ⟨this.workspaceId, this.projectId, this.issueKey⟩

/-- Consecutive statuses are equal or an edge of the graph. -/
theorem ItemChange.status {item item' : RemediationItem} (h : ItemChange item item') :
    item'.status = item.status ∨ isLegal item.status item'.status := by
  cases h with
  | enter now toStatus hlegal => exact .inr (by simpa using hlegal)
  | patch svc p => exact .inl (p.apply_keeps svc item).status

theorem transitionEntry_of_legal {item item' : RemediationItem}
    (h : isLegal item.status item'.status) :
    transitionEntry item item' = [(some item.status, some item'.status)] := by
  refine if_neg fun heq => not_isLegal_self item.status ?_
  rwa [← heq] at h

/-- An item as it is created. -/
structure RemediationItem.Fresh (item : RemediationItem) : Prop where
  status : item.status = .proposed
  resolvedAt : item.resolvedAt = none
  verifiedAt : item.verifiedAt = none
  version : item.version = 1

/-- What a commit does: every item is left alone or replaced by a change of it, and its timeline
tells which transition that was; new items are fresh; and an item has a new outstanding request
only if it had none and is changed. -/
structure Commit (db db' : RemediationDb) : Prop where
  logged : ∀ id row, db.items id = some row →
    Logged (fun db : RemediationDb => db.items id) (fun db => db.transitions id) ItemChange
      transitionEntry db db'
  created : ∀ id, db.items id = none → db'.transitions id = db.transitions id ∧
    ∀ item, db'.items id = some item → item.Fresh
  outstanding : ∀ id, (db'.outstanding id).length ≤ (db.outstanding id).length ∨
    db.outstanding id = [] ∧ (db'.outstanding id).length = 1 ∧ db'.items id ≠ db.items id

/-- At most one verification request of an item is outstanding, and an item that does not exist
has no timeline. -/
structure RemediationDb.Consistent (db : RemediationDb) : Prop where
  outstanding : ∀ id, (db.outstanding id).length ≤ 1
  timeline : ∀ id, db.items id = none → db.transitions id = []

/-- A commit that changes neither items nor timelines. -/
theorem Commit.of_items_eq {db db' : RemediationDb} (hitems : db'.items = db.items)
    (htransitions : ∀ id, db'.transitions id = db.transitions id)
    (hout : ∀ id, (db'.outstanding id).length ≤ (db.outstanding id).length) : Commit db db' where
  logged id _ _ := .inl ⟨congrFun hitems id, htransitions id⟩
  created id hnone := ⟨htransitions id, fun item hitem => by
    rw [hitems, hnone] at hitem
    cases hitem⟩
  outstanding id := .inl (hout id)

theorem Commit.refl (db : RemediationDb) : Commit db db :=
  .of_items_eq rfl (fun _ => rfl) fun _ => le_rfl

/-- An item that a commit leaves missing was missing. -/
theorem Commit.items_eq_none {db db' : RemediationDb} (h : Commit db db') {id : Uuid}
    (hnone : db'.items id = none) : db.items id = none := by
  cases hrow : db.items id with
  | none => rfl
  | some row =>
    rcases h.logged id row hrow with ⟨hsame, -⟩ | ⟨-, item', -, hitem', -⟩
    · exact absurd (hsame.symm.trans hnone) (by simp [hrow])
    · exact absurd (hitem'.symm.trans hnone) (by simp)

theorem Commit.consistent {db db' : RemediationDb} (h : Commit db db') (hdb : db.Consistent) :
    db'.Consistent where
  outstanding id := by
    rcases h.outstanding id with hle | ⟨-, hone, -⟩
    · exact hle.trans (hdb.outstanding id)
    · exact hone.le
  timeline id hnone := by
    have hnone₀ := h.items_eq_none hnone
    exact (h.created id hnone₀).1.trans (hdb.timeline id hnone₀)

/-! ## What a session relies on -/

/-- An item stays as it is and gets no outstanding request, or it gets a higher version. -/
def Grows (db db' : RemediationDb) : Prop :=
  ∀ id row, db.items id = some row → ∃ row', db'.items id = some row' ∧ row.SameIssue row' ∧
    (row' = row ∧ (db.outstanding id = [] → db'.outstanding id = []) ∨ row.version < row'.version)

theorem Grows.refl (db : RemediationDb) : Grows db db := fun _ row hrow =>
  ⟨row, hrow, ⟨rfl, rfl, rfl⟩, .inl ⟨rfl, id⟩⟩

theorem Grows.trans {db₁ db₂ db₃ : RemediationDb} (h₁₂ : Grows db₁ db₂) (h₂₃ : Grows db₂ db₃) :
    Grows db₁ db₃ := by
  intro id row hrow
  obtain ⟨row₂, hrow₂, hissue₂, h₂⟩ := h₁₂ id row hrow
  obtain ⟨row₃, hrow₃, hissue₃, h₃⟩ := h₂₃ id row₂ hrow₂
  refine ⟨row₃, hrow₃, ⟨hissue₃.workspaceId.trans hissue₂.workspaceId,
    hissue₃.projectId.trans hissue₂.projectId, hissue₃.issueKey.trans hissue₂.issueKey⟩, ?_⟩
  rcases h₂ with ⟨rfl, hout₂⟩ | hlt₂
  · rcases h₃ with ⟨rfl, hout₃⟩ | hlt₃
    · exact .inl ⟨rfl, fun hout => hout₃ (hout₂ hout)⟩
    · exact .inr hlt₃
  · rcases h₃ with ⟨rfl, -⟩ | hlt₃
    · exact .inr hlt₂
    · exact .inr (hlt₂.trans hlt₃)

theorem Commit.grows {db db' : RemediationDb} (h : Commit db db') : Grows db db' := by
  intro id row hrow
  rcases h.logged id row hrow with ⟨hsame, -⟩ | ⟨item, item', hitem, hitem', -, hchange, -⟩
  · refine ⟨row, hsame.trans hrow, ⟨rfl, rfl, rfl⟩, .inl ⟨rfl, fun hnone => ?_⟩⟩
    rcases h.outstanding id with hle | ⟨-, -, hne⟩
    · rw [hnone] at hle
      exact List.length_eq_zero_iff.mp (Nat.le_zero.mp hle)
    · exact absurd hsame hne
  · obtain rfl : item = row := Option.some.inj (hitem.symm.trans hrow)
    refine ⟨item', hitem', hchange.sameIssue, .inr ?_⟩
    rw [hchange.version_eq]
    exact Nat.lt_succ_self _

/-- What a session has read of an item is not undone, and the version that it expects is not
beyond it. -/
def HasRead (id : Uuid) (read : RemediationItem) (version : ℕ) (db : RemediationDb) : Prop :=
  ∃ row, db.items id = some row ∧ Behind RemediationItem.version read row ∧
    version ≤ read.version

theorem HasRead.later {id : Uuid} {read : RemediationItem} {version : ℕ} {db db' : RemediationDb}
    (h : HasRead id read version db) (hgrows : Grows db db') : HasRead id read version db' := by
  obtain ⟨row, hrow, hbehind, hversion⟩ := h
  obtain ⟨row', hrow', -, hstep⟩ := hgrows id row hrow
  exact ⟨row', hrow', hbehind.step (hstep.imp_left And.left), hversion⟩

/-- A session reads an item whose caller has read it before. -/
theorem HasRead.of_caller {id : Uuid} {row read : RemediationItem} {version : ℕ}
    {db db' : RemediationDb} (hrow : db.items id = some row) (hversion : version ≤ row.version)
    (hgrows : Grows db db') (hread : db'.items id = some read) : HasRead id read version db' := by
  obtain ⟨row', hrow', -, hstep⟩ := hgrows id row hrow
  obtain rfl : row' = read := Option.some.inj (hrow'.symm.trans hread)
  refine ⟨row', hrow', .refl row', hversion.trans ?_⟩
  rcases hstep with ⟨rfl, -⟩ | hlt
  · exact le_rfl
  · exact hlt.le

/-- The item has no outstanding request unless it has changed since it was read. -/
def NoneOutstanding (id : Uuid) (read : RemediationItem) (db : RemediationDb) : Prop :=
  db.items id = some read → db.outstanding id = []

theorem NoneOutstanding.later {id : Uuid} {read : RemediationItem} {version : ℕ}
    {db db' : RemediationDb} (h : NoneOutstanding id read db) (hread : HasRead id read version db)
    (hgrows : Grows db db') : NoneOutstanding id read db' := by
  intro hitem
  obtain ⟨row, hrow, hbehind, -⟩ := hread
  obtain ⟨row', hrow', -, hstep⟩ := hgrows id row hrow
  obtain rfl : row' = read := Option.some.inj (hrow'.symm.trans hitem)
  rcases hstep with ⟨rfl, hout⟩ | hlt
  · exact hout (h hrow)
  · exact absurd hbehind.le (not_le.mpr hlt)

/-- A finished scan of a project. -/
def FinishedFor (workspaceId projectId scanId : Uuid) (db : RemediationDb) : Prop :=
  ∃ scan ∈ db.scans scanId, scan.workspaceId = workspaceId ∧ scan.projectId = projectId ∧
    scan.status ∈ terminalStatuses

theorem FinishedFor.of_scans_eq {workspaceId projectId scanId : Uuid} {db db' : RemediationDb}
    (h : FinishedFor workspaceId projectId scanId db) (hscans : db'.scans = db.scans) :
    FinishedFor workspaceId projectId scanId db' := by
  unfold FinishedFor
  rwa [hscans]

/-! ## Commits -/

section

variable (db : RemediationDb) (item id : Uuid) (t : EventType) (actor : Option Uuid)
  (fromStatus toStatus : Option RemediationStatus) (detail : Option String)

@[simp] theorem RemediationDb.recordEvent_items :
    (db.recordEvent item t actor fromStatus toStatus detail).items = db.items := rfl

@[simp] theorem RemediationDb.recordEvent_outstanding :
    (db.recordEvent item t actor fromStatus toStatus detail).outstanding id =
      db.outstanding id := rfl

theorem RemediationDb.recordEvent_transitions :
    (db.recordEvent item t actor fromStatus toStatus detail).transitions id =
      db.transitions id ++
        if item = id ∧ t = .transition then [(fromStatus, toStatus)] else [] := by
  simp only [RemediationDb.transitions, RemediationDb.recordEvent, List.filter_append,
    List.map_append]
  by_cases h : item = id ∧ t = .transition
  · simp [h]
  · simp [h]

theorem RemediationDb.recordEvent_transitions_of_ne (ht : t ≠ .transition) :
    (db.recordEvent item t actor fromStatus toStatus detail).transitions id =
      db.transitions id := by
  rw [RemediationDb.recordEvent_transitions, if_neg fun h => ht h.2, List.append_nil]

end

/-- The events of a patch are no transitions. -/
theorem foldl_recordEvent (item : Uuid) (actor : Option Uuid) {changes : List (EventType × String)}
    (h : ∀ change ∈ changes, change.1 ≠ .transition) (db : RemediationDb) :
    ∃ events, changes.foldl (fun db change => db.recordEvent item change.1 actor none none
        (some change.2)) db = { db with events } ∧
      ∀ id, ({ db with events } : RemediationDb).transitions id = db.transitions id := by
  induction changes generalizing db with
  | nil => exact ⟨db.events, rfl, fun _ => rfl⟩
  | cons change changes ih =>
    rw [List.forall_mem_cons] at h
    obtain ⟨events, hfold, htransitions⟩ :=
      ih h.2 (db.recordEvent item change.1 actor none none (some change.2))
    refine ⟨events, hfold, fun id => (htransitions id).trans ?_⟩
    exact db.recordEvent_transitions_of_ne item id change.1 actor none none _ h.1

/-- Rewriting the requests gives no item an outstanding one. -/
theorem outstanding_map_le {f : VerificationRequest → VerificationRequest}
    (hitem : ∀ q, (f q).remediationItemId = q.remediationItemId)
    (hf : ∀ q, (f q).outstanding → q.outstanding) (l : List VerificationRequest) (id : Uuid) :
    ((l.map f).filter fun q => q.remediationItemId = id ∧ q.outstanding).length ≤
      (l.filter fun q => q.remediationItemId = id ∧ q.outstanding).length := by
  rw [← List.countP_eq_length_filter, ← List.countP_eq_length_filter, List.countP_map]
  refine List.countP_mono_left fun q _ hq => ?_
  simp only [Function.comp_apply, hitem, decide_eq_true_eq] at hq ⊢
  exact ⟨hq.1, hf q hq.2⟩

/-- A commit that changes one item. -/
theorem Commit.of_item {db db' : RemediationDb} {id : Uuid} {item item' : RemediationItem}
    (hdb : db.items id = some item) (hchange : ItemChange item item')
    (hitems : db'.items = db.items.set id item')
    (htransitions : ∀ j, db'.transitions j =
      db.transitions j ++ if id = j then transitionEntry item item' else [])
    (hout : ∀ j, (db'.outstanding j).length ≤ (db.outstanding j).length ∨
      j = id ∧ db.outstanding j = [] ∧ (db'.outstanding j).length = 1) : Commit db db' := by
  have hself : db'.items id = some item' := by rw [hitems, Table.set_self]
  constructor
  · intro j _ _
    by_cases hj : j = id
    · subst hj
      refine .inr ⟨item, item', hdb, hself, hchange.ne, hchange, ?_⟩
      show db'.transitions j = db.transitions j ++ transitionEntry item item'
      rw [htransitions, if_pos rfl]
    · refine .inl ⟨?_, ?_⟩
      · show db'.items j = db.items j
        rw [hitems, Table.set_of_ne _ _ hj]
      · show db'.transitions j = db.transitions j
        rw [htransitions, if_neg (Ne.symm hj), List.append_nil]
  · intro j hnone
    have hj : j ≠ id := fun hj => by
      rw [hj, hdb] at hnone
      cases hnone
    refine ⟨by rw [htransitions, if_neg (Ne.symm hj), List.append_nil], fun row hrow => ?_⟩
    rw [hitems, Table.set_of_ne _ _ hj, hnone] at hrow
    cases hrow
  · intro j
    refine (hout j).imp_right ?_
    rintro ⟨rfl, hnone, hone⟩
    refine ⟨hnone, hone, fun heq => hchange.ne ?_⟩
    rw [hself, hdb] at heq
    exact Option.some.inj heq

/-- **A transition commits** when the session has read the item. -/
theorem Commit.of_applyTransition {db₀ db db' : RemediationDb} {id : Uuid} {item : RemediationItem}
    {version : ℕ} {actor : Option Uuid} {toStatus : RemediationStatus} {detail : Option String}
    {moment : Moment} (hread : HasRead id item version db₀) (hlegal : isLegal item.status toStatus)
    (hitems : db.items = db₀.items) (htransitions : ∀ j, db.transitions j = db₀.transitions j)
    (hout : ∀ j, (db.outstanding j).length ≤ (db₀.outstanding j).length ∨
      j = id ∧ (db₀.items id = some item → db₀.outstanding j = [] ∧
        (db.outstanding j).length = 1))
    (h : applyTransition id item actor version toStatus detail moment db = .ok db') :
    Commit db₀ db' ∧ db₀.items id = some item := by
  obtain ⟨db₁, hbump, hrecord⟩ := Checks.bind_eq_ok.mp h
  obtain ⟨row, hrow, hversion, rfl⟩ := bumpVersion_eq_ok.mp hbump
  rw [hitems] at hrow
  obtain ⟨row', hrow', hbehind, hle⟩ := hread
  obtain rfl : row' = row := Option.some.inj (hrow'.symm.trans hrow)
  obtain rfl : item = row' := hbehind.eq_of_cas (hversion.le.trans hle)
  refine ⟨Commit.of_item hrow (.enter moment.now toStatus hlegal) ?_ ?_ ?_, hrow⟩
  · rw [← Except.ok.inj hrecord, RemediationDb.recordEvent_items, hitems,
      RemediationItem.flush_self (item.enter_sameIssue _ _), hversion]
  · intro j
    rw [← Except.ok.inj hrecord, RemediationDb.recordEvent_transitions,
      transitionEntry_of_legal (by simpa using hlegal)]
    show db.transitions j ++ _ = _
    rw [htransitions]
    simp
  · intro j
    rw [← Except.ok.inj hrecord]
    exact (hout j).imp_right fun hj => ⟨hj.1, hj.2 hrow⟩

end ScanPlatform

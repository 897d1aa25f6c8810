import ScanPlatform.Remediation.RiskService
import ScanPlatform.Remediation.Verified

/-!
# What the remediation functions write

What the commit of a call does to the tables, whatever its session has read and whatever version
its caller expects.

* `ItemsWrite`, `RequestsWrite`, `AcceptancesWrite`, `OperationWrites`: what a commit does;
* `Proceeds`, `CompletionWrite`: what a completion relies on, and what it is going to write;
* `BoundTo`, **`prog_binds`**: that every call is bound to write so;
* `operationStep_tracked`, **`operationStep_cases`**: the invariant of a run, and what a step can do
  to the database.
-/

set_option autoImplicit false

namespace ScanPlatform

open CondMachine Sessions Versions

/-! ## What a commit does to the tables -/

/-- The items stay, or one of them is replaced by its next version. -/
inductive ItemsWrite (db db' : RemediationDb) : Prop
  | same (h : db'.items = db.items)
  | next (id : Uuid) (row row' : RemediationItem) (before : db.items id = some row)
    (after : db'.items = db.items.set id row') (version : row'.version = row.version + 1)

/-- The events that tell of completions. -/
def RemediationDb.completions (db : RemediationDb) : List RemediationEvent :=
  db.events.filter fun e => e.eventType = .verificationCompleted

/-- The event of a completion. -/
def Completion.event (c : Completion) (actorUserId : Option Uuid) : RemediationEvent where
  remediationItemId := c.request.remediationItemId
  eventType := .verificationCompleted
  fromStatus := none
  toStatus := none
  actorUserId
  detail := some (s!"result={c.outcome.text} live_locations={c.live.1} scan=" ++ c.scanId.str)

/-- The requests stay, or one is appended, or one is completed. -/
inductive RequestsWrite (moment : Moment) (db db' : RemediationDb) : RemediationOperation → Prop
  | same (op : RemediationOperation) (h : db'.requests = db.requests)
    (completions : db'.completions = db.completions) : RequestsWrite moment db db' op
  | insert (op : RemediationOperation) (q : VerificationRequest)
    (h : db'.requests = db.requests ++ [q])
    (completions : db'.completions = db.completions) : RequestsWrite moment db db' op
  | complete (call : CompletionCall) (c : Completion)
    (h : db'.requests = db.requests.map (completeRequest c moment.now))
    (completions : db'.completions = db.completions ++ [c.event call.actorUserId]) :
    RequestsWrite moment db db' (.workflow (.completeVerification call))

/-- The acceptances stay, or one is appended, one is revoked, or those that are due expire. -/
inductive AcceptancesWrite (moment : Moment) (db db' : RemediationDb) :
    RemediationOperation → Prop
  | same (op : RemediationOperation) (h : db'.acceptances = db.acceptances)
    (hop : ∀ call, op ≠ .workflow (.acceptRisk call)) : AcceptancesWrite moment db db' op
  | insert (call : AcceptanceCall) (fresh : ∀ a ∈ db.acceptances, a.id ≠ moment.newId)
    (h : db'.acceptances = db.acceptances ++ [call.acceptance moment.newId])
    (item : ∀ id ∈ call.remediationItemId, ∃ row ∈ db'.items id, row.status = .riskAccepted) :
    AcceptancesWrite moment db db' (.workflow (.acceptRisk call))
  | revoke (call : RevocationCall)
    (h : db'.acceptances = db.acceptances.map fun a =>
      if a.id = call.acceptanceId then a.revoke call moment.now else a) :
    AcceptancesWrite moment db db' (.revokeRiskAcceptance call)
  | expire (workspaceId : Uuid) (due : List RiskAcceptance)
    (h : db'.acceptances = db.acceptances.map fun a =>
      if due.any (·.id = a.id) then { a with status := .expired } else a) :
    AcceptancesWrite moment db db' (.expireDueAcceptances workspaceId)

/-- What the commit of a call does. -/
structure OperationWrites (op : RemediationOperation) (moment : Moment)
    (db db' : RemediationDb) : Prop where
  items : ItemsWrite db db'
  riskAccepted : ∀ id, ∀ row' ∈ db'.items id, row'.status = .riskAccepted →
    (∃ row ∈ db.items id, row.status = .riskAccepted) ∨
      ∃ call, op = .workflow (.acceptRisk call) ∧ call.remediationItemId = some id
  acceptances : AcceptancesWrite moment db db' op
  requests : RequestsWrite moment db db' op
  others : (∀ call, op ≠ .workflow call) → db'.items = db.items

/-! ## What a session relies on -/

/-- An item stays as it is, or gets a higher version. -/
def ItemsGrow (db db' : RemediationDb) : Prop :=
  ∀ id row, db.items id = some row → ∃ row', db'.items id = some row' ∧
    (row' = row ∨ row.version < row'.version)

theorem ItemsGrow.of_eq {db db' : RemediationDb} (h : db'.items = db.items) : ItemsGrow db db' :=
  fun id row hrow => ⟨row, by rw [h, hrow], .inl rfl⟩

theorem ItemsGrow.trans {db₁ db₂ db₃ : RemediationDb} (h₁₂ : ItemsGrow db₁ db₂)
    (h₂₃ : ItemsGrow db₂ db₃) : ItemsGrow db₁ db₃ := by
  intro id row hrow
  obtain ⟨row₂, hrow₂, h₂⟩ := h₁₂ id row hrow
  obtain ⟨row₃, hrow₃, h₃⟩ := h₂₃ id row₂ hrow₂
  refine ⟨row₃, hrow₃, ?_⟩
  rcases h₂ with rfl | hlt
  · exact h₃
  · rcases h₃ with rfl | hlt'
    · exact .inr hlt
    · exact .inr (hlt.trans hlt')

theorem ItemsWrite.grow {db db' : RemediationDb} (h : ItemsWrite db db') : ItemsGrow db db' := by
  cases h with
  | same h => exact .of_eq h
  | next id row row' before after version =>
    intro j item hitem
    rw [after, Table.set_apply]
    split_ifs with hj
    · subst hj
      obtain rfl : row = item := Option.some.inj (before.symm.trans hitem)
      refine ⟨row', rfl, .inr ?_⟩
      omega
    · exact ⟨item, hitem, .inl rfl⟩

/-- Every request stays a request for its item. -/
def RequestsKept (db db' : RemediationDb) : Prop :=
  ∀ r, ∀ q ∈ db.request r, ∃ q' ∈ db'.request r, q'.remediationItemId = q.remediationItemId

theorem RequestsKept.of_map {db db' : RemediationDb} {f : VerificationRequest → VerificationRequest}
    (hid : ∀ q, (f q).id = q.id) (hitem : ∀ q, (f q).remediationItemId = q.remediationItemId)
    (h : db'.requests = db.requests.map f) : RequestsKept db db' :=
  fun _ q hq => ⟨f q, mem_request_map hid h hq, hitem q⟩

theorem RequestsWrite.kept {moment : Moment} {op : RemediationOperation} {db db' : RemediationDb}
    (h : RequestsWrite moment db db' op) : RequestsKept db db' := by
  cases h with
  | same _ h _ => exact fun r q hq => ⟨q, (request_of_eq h).symm ▸ hq, rfl⟩
  | insert _ q' h _ => exact fun r q hq => ⟨q, mem_request_append h hq, rfl⟩
  | complete call c h _ =>
    exact .of_map (completeRequest_id c moment.now) (fun q => (completeRequest_links c _ q).1) h

/-- What a session relies on. -/
structure Proceeds (db db' : RemediationDb) : Prop where
  items : ItemsGrow db db'
  requests : RequestsKept db db'

theorem Proceeds.of_eq {db db' : RemediationDb} (hitems : db'.items = db.items)
    (hrequests : db'.requests = db.requests) : Proceeds db db' :=
  ⟨.of_eq hitems, fun _ q hq => ⟨q, (request_of_eq hrequests).symm ▸ hq, rfl⟩⟩

theorem Proceeds.refl (db : RemediationDb) : Proceeds db db := .of_eq rfl rfl

theorem Proceeds.trans {db₁ db₂ db₃ : RemediationDb} (h₁₂ : Proceeds db₁ db₂)
    (h₂₃ : Proceeds db₂ db₃) : Proceeds db₁ db₃ := by
  refine ⟨h₁₂.items.trans h₂₃.items, fun r q hq => ?_⟩
  obtain ⟨q₂, hq₂, hitem₂⟩ := h₁₂.requests r q hq
  obtain ⟨q₃, hq₃, hitem₃⟩ := h₂₃.requests r q₂ hq₂
  exact ⟨q₃, hq₃, hitem₃.trans hitem₂⟩

theorem OperationWrites.proceeds {op : RemediationOperation} {moment : Moment}
    {db db' : RemediationDb} (h : OperationWrites op moment db db') : Proceeds db db' :=
  ⟨h.items.grow, h.requests.kept⟩

/-- What a session has read of a request and of its item has not been undone. -/
structure Completion.ReadBefore (c : Completion) (db : RemediationDb) : Prop where
  request : ∃ q ∈ db.request c.request.id, q.remediationItemId = c.request.remediationItemId
  item : ∃ row ∈ db.items c.request.remediationItemId, Behind RemediationItem.version c.item row

theorem Completion.ReadBefore.later {c : Completion} {db db' : RemediationDb}
    (h : c.ReadBefore db) (hdb : Proceeds db db') : c.ReadBefore db' := by
  obtain ⟨q, hq, hitem⟩ := h.request
  obtain ⟨row, hrow, hbehind⟩ := h.item
  obtain ⟨q', hq', hitem'⟩ := hdb.requests _ q hq
  obtain ⟨row', hrow', hstep⟩ := hdb.items _ row hrow
  exact ⟨⟨q', hq', hitem'.trans hitem⟩, row', hrow', hbehind.step hstep⟩

/-- What a completion is going to write: nothing, or the outcome for a request that it has read
before it was completed, and an item that it has read. -/
def CompletionWrite (call : CompletionCall) (write : RemediationWrite) (db : RemediationDb) :
    Prop :=
  (write = fun _ db => .ok db) ∨ ∃ c : Completion, write = c.write call.actorUserId ∧
    c.request.id = call.requestId ∧ c.request.outstanding ∧ c.ReadBefore db

/-- What a call is bound to write. -/
structure BoundTo (op : RemediationOperation) (write : RemediationWrite) (db : RemediationDb) :
    Prop where
  writes : ∀ moment db₁ db₂, write moment db₁ = .ok db₂ → OperationWrites op moment db₁ db₂
  completion : ∀ call, op = .workflow (.completeVerification call) → CompletionWrite call write db

theorem BoundTo.later {op : RemediationOperation} {write : RemediationWrite}
    {db db' : RemediationDb} (h : BoundTo op write db) (hdb : Proceeds db db') :
    BoundTo op write db' where
  writes := h.writes
  completion call hcall := by
    rcases h.completion call hcall with hnothing | ⟨c, hwrite, hid, hout, hread⟩
    · exact .inl hnothing
    · exact .inr ⟨c, hwrite, hid, hout, hread.later hdb⟩

/-! ## What the calls are bound to write -/

section

variable {op : RemediationOperation} {moment : Moment} {db₀ db db' : RemediationDb} {id : Uuid}
  {item assigned : RemediationItem} {version : ℕ}

/-- What a compare-and-set does to the item. -/
theorem bumpVersion_row (h : bumpVersion id item assigned version db = .ok db') :
    ∃ row row', db.items id = some row ∧ row.version = version ∧
      db'.items = db.items.set id row' ∧ row'.version = version + 1 ∧
      row'.status = Versions.flush item.status assigned.status row.status := by
  obtain ⟨row, hrow, hversion, rfl⟩ := bumpVersion_eq_ok.mp h
  exact ⟨row, _, hrow, hversion, rfl, rfl, rfl⟩

/-- A compare-and-set gives one item its next version, with a status that it has already or that
the session has assigned. -/
theorem bumpVersion_items (h : bumpVersion id item assigned version db = .ok db') :
    ItemsWrite db db' ∧ ∀ j, ∀ row' ∈ db'.items j, (∃ row ∈ db.items j, row'.status = row.status) ∨
      j = id ∧ assigned.status ≠ item.status ∧ row'.status = assigned.status := by
  obtain ⟨row, row', hrow, hversion, hitems, hversion', hstatus⟩ := bumpVersion_row h
  refine ⟨.next id row row' hrow hitems (by omega), fun j row₁ hrow₁ => ?_⟩
  rw [hitems, Option.mem_def, Table.set_apply] at hrow₁
  split_ifs at hrow₁ with hj
  · cases hrow₁
    subst hj
    by_cases hread : assigned.status = item.status
    · exact .inl ⟨row, hrow, hstatus.trans (if_pos hread)⟩
    · exact .inr ⟨rfl, hread, hstatus.trans (if_neg hread)⟩
  · exact .inl ⟨row₁, hrow₁, rfl⟩

/-- A status that the session has assigned arrives. -/
theorem bumpVersion_status (h : bumpVersion id item assigned version db = .ok db')
    (hne : assigned.status ≠ item.status) :
    ∃ row' ∈ db'.items id, row'.status = assigned.status := by
  obtain ⟨row, row', -, -, hitems, -, hstatus⟩ := bumpVersion_row h
  refine ⟨row', ?_, hstatus.trans (if_neg hne)⟩
  rw [hitems]
  exact Table.set_self _ _ _

/-- A transition writes the item and its timeline. -/
theorem applyTransition_eq_ok {actor : Option Uuid} {toStatus : RemediationStatus}
    {detail : Option String}
    (h : applyTransition id item actor version toStatus detail moment db = .ok db') :
    ∃ db₁, bumpVersion id item (item.enter moment.now toStatus) version db = .ok db₁ ∧
      db' = db₁.recordEvent id .transition actor (some item.status) (some toStatus) detail := by
  obtain ⟨db₁, hbump, hrecord⟩ := Checks.bind_eq_ok.mp h
  exact ⟨db₁, hbump, (Except.ok.inj hrecord).symm⟩

/-- A transition of an item that still has the version that the session expects. -/
theorem applyTransition_ok {row : RemediationItem} {actor : Option Uuid}
    {toStatus : RemediationStatus} {detail : Option String} (hrow : db.items id = some row)
    (hversion : row.version = version) :
    ∃ db', applyTransition id item actor version toStatus detail moment db = .ok db' :=
  ⟨_, Checks.bind_eq_ok.mpr ⟨_, bumpVersion_eq_ok.mpr ⟨row, hrow, hversion, rfl⟩, rfl⟩⟩

/-- The tables that a compare-and-set leaves alone. -/
theorem bumpVersion_others (h : bumpVersion id item assigned version db = .ok db') :
    db'.requests = db.requests ∧ db'.acceptances = db.acceptances ∧ db'.events = db.events := by
  obtain ⟨row, -, -, rfl⟩ := bumpVersion_eq_ok.mp h
  exact ⟨rfl, rfl, rfl⟩

/-- An event of another kind tells of no completion. -/
theorem RemediationDb.recordEvent_completions (db : RemediationDb) (id : Uuid) {t : EventType}
    (ht : t ≠ .verificationCompleted) (actor : Option Uuid)
    (fromStatus toStatus : Option RemediationStatus) (detail : Option String) :
    (db.recordEvent id t actor fromStatus toStatus detail).completions = db.completions := by
  simp [RemediationDb.completions, RemediationDb.recordEvent, ht]

/-- A commit that leaves the items alone. -/
theorem OperationWrites.of_items_eq (hitems : db'.items = db.items)
    (hacceptances : AcceptancesWrite moment db db' op)
    (hrequests : RequestsWrite moment db db' op) : OperationWrites op moment db db' where
  items := .same hitems
  riskAccepted _ row hrow hst := .inl ⟨row, hitems ▸ hrow, hst⟩
  acceptances := hacceptances
  requests := hrequests
  others _ := hitems

/-- A call that writes nothing. -/
theorem BoundTo.nothing (hop : ∀ call, op ≠ .workflow (.acceptRisk call)) :
    BoundTo op (fun _ db => .ok db) db where
  writes moment db₁ db₂ h := by
    cases h
    exact .of_items_eq rfl (.same op rfl hop) (.same op rfl rfl)
  completion _ _ := .inl rfl

/-- A transition to a status other than `risk_accepted`, after writes to the requests. -/
theorem OperationWrites.of_transition {call : RemediationCall} {actor : Option Uuid}
    {toStatus : RemediationStatus} {detail : Option String} (hto : toStatus ≠ .riskAccepted)
    (hop : ∀ c, RemediationOperation.workflow call ≠ .workflow (.acceptRisk c))
    (hitems : db.items = db₀.items) (hacceptances : db.acceptances = db₀.acceptances)
    (hrequests : RequestsWrite moment db₀ db (.workflow call))
    (h : applyTransition id item actor version toStatus detail moment db = .ok db') :
    OperationWrites (.workflow call) moment db₀ db' := by
  obtain ⟨db₁, hbump, rfl⟩ := applyTransition_eq_ok h
  obtain ⟨hwrite, hstatus⟩ := bumpVersion_items hbump
  obtain ⟨hrequests₁, hacceptances₁, hevents₁⟩ := bumpVersion_others hbump
  have hcompletions : (db₁.recordEvent id .transition actor (some item.status) (some toStatus)
      detail).completions = db.completions := by
    rw [RemediationDb.recordEvent_completions _ _ (by decide)]
    unfold RemediationDb.completions
    rw [hevents₁]
  refine ⟨?_, fun j row' hrow' hst => .inl ?_, .same _ (hacceptances₁.trans hacceptances) hop, ?_,
    fun hcall => absurd rfl (hcall call)⟩
  · cases hwrite with
    | same hsame => exact .same (hsame.trans hitems)
    | next j row row' before after hversion =>
      exact .next j row row' (hitems ▸ before) (hitems ▸ after) hversion
  · rcases hstatus j row' hrow' with ⟨row, hrow, heq⟩ | ⟨-, -, heq⟩
    · exact ⟨row, hitems ▸ hrow, heq.symm.trans hst⟩
    · rw [heq, RemediationItem.enter_status] at hst
      exact absurd hst hto
  · cases hrequests with
    | same _ h hsame => exact .same _ (hrequests₁.trans h) (hcompletions.trans hsame)
    | insert _ q h hsame => exact .insert _ q (hrequests₁.trans h) (hcompletions.trans hsame)
    | complete completion c h hevent =>
      exact .complete completion c (hrequests₁.trans h) (hcompletions.trans hevent)

/-- The rule for a call: what its program ends with whatever the others do. -/
abbrev Binds (svc : RemediationServices) (op : RemediationOperation) (db : RemediationDb) : Prop :=
  (op.prog svc).Ensures Proceeds (fun _ => True) (BoundTo op) db

theorem transition_binds (svc : RemediationServices) (call : TransitionCall) :
    Binds svc (.workflow (.transition call)) db := by
  unfold Binds
  show (transition call).Ensures _ _ _ _
  unfold transition getItem
  simp only [ensures_bind, ensures_query, ensures_raiseIf, ensures_pure]
  intro _ db₁ _ _ item _ hguarded _
  have hto : call.toStatus ≠ .riskAccepted := fun heq => by
    rw [heq] at hguarded
    exact hguarded (by decide)
  refine ⟨fun moment db₂ db₃ hwrite => ?_, fun _ h => by cases h⟩
  exact .of_transition hto (fun _ h => by cases h) rfl rfl (.same _ rfl rfl) hwrite

/-- The kinds of the events of a patch. -/
theorem ItemPatch.apply_events (svc : RemediationServices) (p : ItemPatch)
    (item : RemediationItem) : ∀ change ∈ (p.apply svc item).1,
      change.1 ∈ [EventType.assigned, .dueDateChanged, .priorityChanged, .notesChanged] := by
  let kinds : List EventType := [.assigned, .dueDateChanged, .priorityChanged, .notesChanged]
  have happend : ∀ (c : Changes) (t : EventType) (detail : String), t ∈ kinds →
      (∀ change ∈ c.1, change.1 ∈ kinds) →
      ∀ change ∈ c.1 ++ [(t, detail)], change.1 ∈ kinds := by
    intro c t detail ht hc change hchange
    rcases List.mem_append.mp hchange with hmem | hmem
    · exact hc change hmem
    · rw [List.mem_singleton.mp hmem]
      exact ht
  have hassignee : ∀ change ∈ (p.assignAssignee ([], item)).1, change.1 ∈ kinds := by
    unfold ItemPatch.assignAssignee
    split_ifs
    · exact happend ([], item) _ _ (by decide) (by simp)
    · simp
    · split
      · simp
      · split_ifs
        · exact happend ([], item) _ _ (by decide) (by simp)
        · simp
  have hdue : ∀ change ∈ (p.assignDueDate svc (p.assignAssignee ([], item))).1,
      change.1 ∈ kinds := by
    unfold ItemPatch.assignDueDate
    split_ifs
    · exact happend _ _ _ (by decide) hassignee
    · exact hassignee
    · split
      · exact hassignee
      · split_ifs
        · exact happend _ _ _ (by decide) hassignee
        · exact hassignee
  have hpriority : ∀ change ∈ (p.assignPriority (p.assignDueDate svc
      (p.assignAssignee ([], item)))).1, change.1 ∈ kinds := by
    unfold ItemPatch.assignPriority
    split
    · exact hdue
    · split_ifs
      · exact happend _ _ _ (by decide) hdue
      · exact hdue
  unfold ItemPatch.apply ItemPatch.assignNotes
  split
  · exact hpriority
  · split_ifs
    · exact happend _ _ _ (by decide) hpriority
    · exact hpriority

/-- Events are all that they write. -/
theorem foldl_recordEvent_eq {α : Type} (item : α → Uuid) (t : α → EventType)
    (actor : Option Uuid) (detail : α → String) (l : List α) (db : RemediationDb) :
    l.foldl (fun db x => db.recordEvent (item x) (t x) actor none none (some (detail x))) db =
      { db with
        events := db.events ++ l.map fun x => {
          remediationItemId := item x, eventType := t x, fromStatus := none, toStatus := none
          actorUserId := actor, detail := some (detail x) } } := by
  induction l generalizing db with
  | nil => simp
  | cons x l ih =>
    rw [List.foldl_cons, ih]
    simp [RemediationDb.recordEvent]

/-- The event of an expiry. -/
def expiredEvent (item : Uuid × RiskAcceptance) : RemediationEvent where
  remediationItemId := item.1
  eventType := .riskAcceptanceExpired
  fromStatus := none
  toStatus := none
  actorUserId := none
  detail := some ("acceptance=" ++ item.2.id.str)

/-- What the sweep writes. -/
theorem expireAll_eq_ok {due : List RiskAcceptance} {items : List (Uuid × RiskAcceptance)} :
    expireAll due items moment db = .ok db' ↔ db' = { db with
      acceptances := db.acceptances.map fun row =>
        if due.any (·.id = row.id) then { row with status := .expired } else row
      events := db.events ++ items.map expiredEvent } := by
  have hfold := foldl_recordEvent_eq (fun item : Uuid × RiskAcceptance => item.1)
    (fun _ => .riskAcceptanceExpired) none (fun item => "acceptance=" ++ item.2.id.str) items
  unfold expireAll
  simp only [hfold, Except.ok.injEq]
  exact eq_comm

/-- Events of other kinds tell of no completion. -/
theorem foldl_recordEvent_completions {α : Type} (item : α → Uuid) (t : α → EventType)
    (actor : Option Uuid) (detail : α → String) {l : List α}
    (h : ∀ x ∈ l, t x ≠ .verificationCompleted) (db : RemediationDb) :
    ∃ events, l.foldl (fun db x => db.recordEvent (item x) (t x) actor none none
        (some (detail x))) db = { db with events } ∧
      ({ db with events } : RemediationDb).completions = db.completions := by
  refine ⟨_, foldl_recordEvent_eq item t actor detail l db, ?_⟩
  unfold RemediationDb.completions
  rw [List.filter_append, List.append_right_eq_self, List.filter_eq_nil_iff]
  intro e he
  obtain ⟨x, hx, rfl⟩ := List.mem_map.mp he
  simpa using h x hx

theorem updateItem_binds (svc : RemediationServices) (call : UpdateCall) :
    Binds svc (.workflow (.updateItem call)) db := by
  unfold Binds
  show (updateItem svc call).Ensures _ _ _ _
  unfold updateItem getItem
  simp only [ensures_bind, ensures_query]
  intro _ db₁ _ _ item _
  refine ensures_requireMember _ _ (.refl db₁) fun db₂ _ => ?_
  have hop : ∀ c, RemediationOperation.workflow (.updateItem call) ≠ .workflow (.acceptRisk c) :=
    fun _ h => by cases h
  split_ifs
  · exact .nothing hop
  · refine ⟨fun moment db₃ db₄ hwrite => ?_, fun _ h => by cases h⟩
    obtain ⟨db₅, hbump, hfold⟩ := Checks.bind_eq_ok.mp hwrite
    have hkeeps := call.patch.apply_keeps svc item
    have hne : ∀ t ∈ [EventType.assigned, .dueDateChanged, .priorityChanged, .notesChanged],
        t ≠ .verificationCompleted := by decide
    obtain ⟨hitems, hstatus⟩ := bumpVersion_items hbump
    obtain ⟨hrequests, hacceptances, hevents⟩ := bumpVersion_others hbump
    obtain ⟨events, heq, hcompletions⟩ := foldl_recordEvent_completions (fun _ => call.itemId)
      (fun change : EventType × String => change.1) (some call.actorUserId) (·.2)
      (fun change hchange => hne _ (call.patch.apply_events svc item change hchange)) db₅
    rw [Except.ok.injEq, heq] at hfold
    subst hfold
    refine ⟨?_, fun j row' hrow' hst => .inl ?_, .same _ hacceptances hop,
      .same _ hrequests (hcompletions.trans ?_), fun hcall => absurd rfl (hcall _)⟩
    · cases hitems with
      | same h => exact .same h
      | next j row row' before after hversion => exact .next j row row' before after hversion
    · rcases hstatus j row' hrow' with ⟨row, hrow, heq⟩ | ⟨-, hne, -⟩
      · exact ⟨row, hrow, heq.symm.trans hst⟩
      · exact absurd hkeeps.status hne
    · unfold RemediationDb.completions
      rw [hevents]

theorem requestVerification_binds (svc : RemediationServices) (call : VerificationCall) :
    Binds svc (.workflow (.requestVerification call)) db := by
  unfold Binds
  show (requestVerification svc call).Ensures _ _ _ _
  unfold requestVerification getItem
  simp only [ensures_bind, ensures_query, ensures_raiseIf, ensures_pure]
  intro _ db₁ _ _ item _ _
  refine ensures_requireProjectScan (.refl db₁) fun db₂ _ _ => ?_
  intro _ db₃ _ _ outstanding _ _ _ db₄ _ _ baseline _
  refine ⟨fun moment db₅ db₆ hwrite => ?_, fun _ h => by cases h⟩
  obtain ⟨db₇, hinsert, happly⟩ := Checks.bind_eq_ok.mp hwrite
  obtain ⟨-, rfl⟩ := insertRequest_eq_ok.mp hinsert
  refine .of_transition (by decide) (fun _ h => by cases h) ?_ ?_ (.insert _ _ rfl ?_) happly
  · rfl
  · rfl
  · exact RemediationDb.recordEvent_completions _ _ (by decide) _ _ _ _

theorem Completion.record_completions (c : Completion) (actor : Option Uuid) (now : ℤ) :
    (c.record actor now db).completions = db.completions ++ [c.event actor] := by
  simp [Completion.record, RemediationDb.completions, RemediationDb.recordEvent, Completion.event]

/-- A completion writes the request, and moves the item to `verified` or to `in_progress`. -/
theorem Completion.write_operationWrites {call : CompletionCall} {c : Completion}
    (hwrite : c.write call.actorUserId moment db = .ok db') :
    OperationWrites (.workflow (.completeVerification call)) moment db db' := by
  have hop : ∀ c, RemediationOperation.workflow (.completeVerification call) ≠
      .workflow (.acceptRisk c) := fun _ h => by cases h
  have hrequests : RequestsWrite moment db (c.record call.actorUserId moment.now db)
      (.workflow (.completeVerification call)) :=
    .complete call c rfl (c.record_completions _ _)
  have hrecord : OperationWrites (.workflow (.completeVerification call)) moment db
      (c.record call.actorUserId moment.now db) :=
    .of_items_eq rfl (.same _ rfl hop) hrequests
  unfold Completion.write at hwrite
  simp only at hwrite
  split_ifs at hwrite with hcoverage hlegal
  · cases hwrite
    exact hrecord
  · refine .of_transition ?_ hop ?_ ?_ hrequests hwrite
    · unfold Completion.target
      split_ifs <;> decide
    · rfl
    · rfl
  · cases hwrite
    exact hrecord

theorem completeVerification_binds (svc : RemediationServices) (call : CompletionCall) :
    Binds svc (.workflow (.completeVerification call)) db := by
  unfold Binds
  show (completeVerification svc call).Ensures _ _ _ _
  unfold completeVerification
  simp only [ensures_bind, ensures_query]
  intro _ db₁ _ _ request hrequest
  have hrequest₁ : request ∈ db₁.request call.requestId := by
    split at hrequest
    · cases hrequest
    · next q hq =>
      cases hrequest
      exact (Option.filter_eq_some_iff.mp hq).1
  have hid : request.id = call.requestId := request_id hrequest₁
  split_ifs with hcompleted
  · exact .nothing fun _ h => by cases h
  · simp only [ensures_bind, ensures_query, ensures_raiseIf, ensures_check, ensures_pure]
    intro _ scanId _ _ db₂ h₂ _ item hitem _ db₃ h₃ _ live _ _ db₄ h₄ _ coverageOk _
    have hitem₂ : db₂.items request.remediationItemId = some item := by
      split at hitem
      · cases hitem
      · next row hrow => rw [hrow, Except.ok.inj hitem]
    have hread : Completion.ReadBefore { request, scanId, item, live, coverageOk } db₂ := by
      obtain ⟨q, hq, hqitem⟩ := h₂.requests _ request hrequest₁
      exact ⟨⟨q, hid ▸ hq, hqitem⟩, item, hitem₂, .refl item⟩
    refine ⟨fun moment db₅ db₆ hwrite => Completion.write_operationWrites hwrite,
      fun call' hcall => ?_⟩
    cases hcall
    refine .inr ⟨_, rfl, hid, ?_, (hread.later h₃).later h₄⟩
    simpa [VerificationRequest.outstanding] using hcompleted

theorem insertAcceptance_fresh {acceptance : RiskAcceptance}
    (h : insertAcceptance acceptance db = .ok db') :
    ∀ a ∈ db.acceptances, a.id ≠ acceptance.id := by
  unfold insertAcceptance at h
  split_ifs at h with hany
  simpa using hany

theorem acceptRisk_binds (svc : RemediationServices) (call : AcceptanceCall) :
    Binds svc (.workflow (.acceptRisk call)) db := by
  unfold Binds
  show (acceptRisk svc call).Ensures _ _ _ _
  unfold acceptRisk
  simp only [ensures_bind, ensures_query, ensures_raiseIf]
  intro _ db₁ _ _ now _ _ _ _ db₂ _ _ existing _ _
  split
  · next hnone =>
    refine ⟨fun moment db₃ db₄ hwrite => ?_, fun _ h => by cases h⟩
    have hfresh := insertAcceptance_fresh hwrite
    rw [insertAcceptance_eq_ok hwrite]
    refine .of_items_eq rfl (.insert call hfresh rfl ?_) (.same _ rfl rfl)
    intro id hid
    rw [hnone] at hid
    cases hid
  · next id hid =>
    unfold getItem
    simp only [ensures_bind, ensures_query]
    intro _ db₃ _ _ item _
    refine ⟨fun moment db₄ db₅ hwrite => ?_, fun _ h => by cases h⟩
    obtain ⟨db₆, hinsert, hwrite⟩ := Checks.bind_eq_ok.mp hwrite
    have hfresh := insertAcceptance_fresh hinsert
    obtain rfl := insertAcceptance_eq_ok hinsert
    split_ifs at hwrite with hlegal
    obtain ⟨db₇, hbump, rfl⟩ := applyTransition_eq_ok hwrite
    obtain ⟨hitems, hstatus⟩ := bumpVersion_items hbump
    obtain ⟨hrequests, hacceptances, hevents⟩ := bumpVersion_others hbump
    have hlegal : isLegal item.status .riskAccepted := by simpa using hlegal
    have hassigned : (item.enter moment.now .riskAccepted).status ≠ item.status := by
      intro heq
      rw [RemediationItem.enter_status] at heq
      rw [← heq] at hlegal
      exact not_isLegal_self _ hlegal
    refine ⟨?_, fun j row' hrow' hst => ?_, .insert call hfresh hacceptances ?_,
      .same _ hrequests ?_, fun hcall => absurd rfl (hcall _)⟩
    · cases hitems with
      | same h => exact .same h
      | next j row row' before after hversion => exact .next j row row' before after hversion
    · rcases hstatus j row' hrow' with ⟨row, hrow, heq⟩ | ⟨rfl, -, -⟩
      · exact .inl ⟨row, hrow, heq.symm.trans hst⟩
      · exact .inr ⟨call, rfl, hid⟩
    · intro j hj
      obtain rfl : id = j := Option.some.inj (hid.symm.trans hj)
      obtain ⟨row', hrow', hst⟩ := bumpVersion_status hbump hassigned
      exact ⟨row', hrow', hst.trans (item.enter_status _ _)⟩
    · rw [RemediationDb.recordEvent_completions _ _ (by decide)]
      unfold RemediationDb.completions
      rw [hevents]
      exact RemediationDb.recordEvent_completions _ _ (by decide) _ _ _ _

theorem reopenForRegression_binds (svc : RemediationServices) (call : RegressionCall) :
    Binds svc (.workflow (.reopenForRegression call)) db := by
  unfold Binds
  show (reopenForRegression call).Ensures _ _ _ _
  unfold reopenForRegression
  simp only [ensures_bind, ensures_query]
  intro _ db₁ _ _ found _
  have hop : ∀ c, RemediationOperation.workflow (.reopenForRegression call) ≠
      .workflow (.acceptRisk c) := fun _ h => by cases h
  split
  · exact .nothing hop
  · split_ifs
    · refine ⟨fun moment db₂ db₃ hwrite => ?_, fun _ h => by cases h⟩
      exact .of_transition (by decide) hop rfl rfl (.same _ rfl rfl) hwrite
    · exact .nothing hop

/-- The item that an acceptance names takes one statement at most. -/
theorem ensures_namedItem {R : RemediationDb → RemediationDb → Prop} {J : RemediationDb → Prop}
    {Q : Option Uuid → RemediationDb → Prop} (a : RiskAcceptance) (hrefl : R db db)
    (h : ∀ item db', R db db' → Q item db') : (namedItem a).Ensures R J Q db := by
  unfold namedItem
  split
  · exact h none db hrefl
  · exact ensures_query.mpr fun _ db' hR _ item _ => h item db' hR

theorem revokeRiskAcceptance_binds (svc : RemediationServices) (call : RevocationCall) :
    Binds svc (.revokeRiskAcceptance call) db := by
  unfold Binds
  show (revokeRiskAcceptance call).Ensures _ _ _ _
  unfold revokeRiskAcceptance
  simp only [ensures_bind, ensures_query, ensures_raiseIf]
  intro _ db₁ _ _ a ha _
  have hid : a.id = call.acceptanceId := by
    unfold getAcceptance at ha
    split at ha
    · cases ha
    · next row hrow =>
      cases ha
      have := List.find?_some hrow
      simp only [decide_eq_true_eq] at this
      exact this.1
  refine ensures_namedItem a (.refl db₁) fun item db₂ _ => ?_
  refine ⟨fun moment db₃ db₄ hwrite => ?_, fun _ h => by cases h⟩
  unfold RevocationCall.write at hwrite
  obtain rfl := Except.ok.inj hwrite
  rw [hid]
  cases item with
  | none =>
    exact .of_items_eq rfl (.revoke call rfl) (.same _ rfl rfl)
  | some item =>
    refine .of_items_eq rfl (.revoke call rfl) (.same _ rfl ?_)
    exact RemediationDb.recordEvent_completions _ _ (by decide) _ _ _ _

/-- The items that acceptances name take some statements. -/
theorem ensures_namedItems {R : RemediationDb → RemediationDb → Prop} {J : RemediationDb → Prop}
    {Q : List (Uuid × RiskAcceptance) → RemediationDb → Prop} (hrefl : ∀ db, R db db)
    (htrans : ∀ a b c, R a b → R b c → R a c) (l : List RiskAcceptance) (db : RemediationDb)
    (h : ∀ items db', R db db' → Q items db') : (namedItems l).Ensures R J Q db := by
  induction l generalizing db Q with
  | nil => exact h [] db (hrefl db)
  | cons a l ih =>
    unfold namedItems
    simp only [ensures_bind]
    refine ensures_namedItem a (hrefl db) fun item db₁ h₁ => ?_
    refine ih db₁ fun items db₂ h₂ => ?_
    exact h _ db₂ (htrans _ _ _ h₁ h₂)

theorem expireDueAcceptances_binds (svc : RemediationServices) (workspaceId : Uuid) :
    Binds svc (.expireDueAcceptances workspaceId) db := by
  unfold Binds
  show (expireDueAcceptances workspaceId).Ensures _ _ _ _
  unfold expireDueAcceptances
  simp only [ensures_bind, ensures_query]
  intro _ db₁ _ _ due _
  split_ifs
  · exact .nothing fun _ h => by cases h
  · simp only [ensures_bind]
    refine ensures_namedItems .refl (fun _ _ _ => .trans) due db₁ ?_
    intro items db₂ _
    refine ⟨fun moment db₃ db₄ hwrite => ?_, fun _ h => by cases h⟩
    obtain rfl := expireAll_eq_ok.mp hwrite
    have hcompletions : ((items.map expiredEvent).filter fun e =>
        e.eventType = .verificationCompleted) = [] := by
      rw [List.filter_eq_nil_iff]
      intro e he
      obtain ⟨item, -, rfl⟩ := List.mem_map.mp he
      simp [expiredEvent]
    refine .of_items_eq rfl (.expire workspaceId due rfl) (.same _ rfl ?_)
    unfold RemediationDb.completions
    rw [List.filter_append, hcompletions, List.append_nil]

/-- **Every call is bound to write as told**, whatever the others do. -/
theorem prog_binds (svc : RemediationServices) (op : RemediationOperation)
    (db : RemediationDb) : Binds svc op db := by
  cases op with
  | workflow call =>
    cases call with
    | transition call => exact transition_binds svc call
    | updateItem call => exact updateItem_binds svc call
    | requestVerification call => exact requestVerification_binds svc call
    | completeVerification call => exact completeVerification_binds svc call
    | acceptRisk call => exact acceptRisk_binds svc call
    | reopenForRegression call => exact reopenForRegression_binds svc call
  | revokeRiskAcceptance call => exact revokeRiskAcceptance_binds svc call
  | expireDueAcceptances workspaceId => exact expireDueAcceptances_binds svc workspaceId

end

/-! ## Steps -/

/-- What else is written: new items are proposed, and no request is completed. -/
structure ElsewhereWrites (db db' : RemediationDb) : Prop where
  kept : ∀ id, ∀ row ∈ db.items id, row ∈ db'.items id
  created : ∀ id, db.items id = none → ∀ row ∈ db'.items id, row.status = .proposed
  acceptances : db'.acceptances = db.acceptances
  requests : ∃ f : VerificationRequest → VerificationRequest, db'.requests = db.requests.map f ∧
    ∀ q, (f q).id = q.id ∧ (f q).remediationItemId = q.remediationItemId ∧
      (f q).outstanding = q.outstanding ∧ (f q).result = q.result ∧ (f q).detail = q.detail ∧
      (f q).completedAt = q.completedAt
  completions : db'.completions = db.completions

theorem ElsewhereWrites.proceeds {db db' : RemediationDb} (h : ElsewhereWrites db db') :
    Proceeds db db' := by
  obtain ⟨f, hrequests, hf⟩ := h.requests
  exact ⟨fun id row hrow => ⟨row, h.kept id row hrow, .inl rfl⟩,
    .of_map (fun q => (hf q).1) (fun q => (hf q).2.1) hrequests⟩

theorem Elsewhere.apply_writes {e : Elsewhere} {db db' : RemediationDb}
    (h : e.apply db = some db') : ElsewhereWrites db db' := by
  cases e with
  | createItem id issue =>
    obtain ⟨hid, rfl⟩ := createItem_eq h
    refine ⟨fun j row hrow => ?_, fun j hnone row' hrow' => ?_, rfl,
      ⟨fun q => q, (List.map_id' _).symm, fun q => ⟨rfl, rfl, rfl, rfl, rfl, rfl⟩⟩,
      RemediationDb.recordEvent_completions _ _ (by decide) _ _ _ _⟩
    · have hj : j ≠ id := by
        rintro rfl
        rw [Option.mem_def.mp hrow] at hid
        cases hid
      exact (Table.set_of_ne _ _ hj).trans hrow
    · simp only [RemediationDb.recordEvent_items, Option.mem_def, Table.set_apply] at hrow'
      split_ifs at hrow' with hj
      · cases hrow'
        rfl
      · rw [hnone] at hrow'
        cases hrow'
  | claimVerification now id workerToken =>
    obtain rfl := Option.some.inj h
    refine ⟨fun _ _ hrow => hrow, fun j hnone row' hrow' => ?_, rfl, ⟨_, rfl, fun q => ?_⟩, rfl⟩
    · rw [show db.items j = none from hnone] at hrow'
      cases hrow'
    · unfold ScanPlatform.claimVerification
      split_ifs with hpending
      · simp [VerificationRequest.outstanding, hpending.2]
      · exact ⟨rfl, rfl, rfl, rfl, rfl, rfl⟩
  | write members scans vulnerabilities toolRuns =>
    obtain rfl := Option.some.inj h
    refine ⟨fun _ _ hrow => hrow, fun j hnone row' hrow' => ?_, rfl,
      ⟨_, rfl, fun q => ⟨rfl, rfl, rfl, rfl, rfl, rfl⟩⟩, rfl⟩
    rw [show db.items j = none from hnone] at hrow'
    cases hrow'

/-- The sessions in progress are bound to write as told. -/
abbrev OperationSystem.Tracked (S : OperationSystem) : Prop :=
  Sessions.Bound (fun _ => Proceeds) (fun _ => True) BoundTo S

section

variable {svc : RemediationServices} {S S' : OperationSystem} {a : OperationStep}

/-- **What a step can do to the database**: nothing, a commit of a call, or what is written
elsewhere. -/
theorem operationStep_cases (hS : S.Tracked) (h : operationStep svc a S = some S') :
    (S'.db = S.db) ∨
    (∃ n moment op write, a = .advance n moment ∧ S.sessions n = some ⟨op, .ok write⟩ ∧
      write moment S.db = .ok S'.db ∧ BoundTo op write S.db) ∨
    ∃ e, a = .other e ∧ ElsewhereWrites S.db S'.db := by
  rcases act_cases h with ⟨n, c, -, rfl⟩ | ⟨n, i, c, next, -, -, rfl⟩ |
    ⟨n, i, c, write, db, rfl, hn, hw, rfl⟩ | ⟨n, rfl⟩ | ⟨e, db, rfl, he, rfl⟩
  · exact .inl rfl
  · exact .inl rfl
  · exact .inr (.inl ⟨n, i, c, write, rfl, hn, hw, hS n c _ hn⟩)
  · exact .inl rfl
  · exact .inr (.inr ⟨e, rfl, Elsewhere.apply_writes he⟩)

theorem operationStep_tracked (hS : S.Tracked) (h : operationStep svc a S = some S') :
    S'.Tracked := by
  refine Sessions.Bound.act hS trivial (fun _ db _ => .refl db) (fun _ _ _ _ => .trans)
    (fun _ _ _ _ => .later) (fun _ c _ => prog_binds svc c S.db) ?_ ?_ h
  · intro n i c write db _ hn hw _ _ _ _
    have hbound : BoundTo c write S.db := hS n c _ hn
    exact (hbound.writes i S.db db hw).proceeds
  · intro e db _ he _ _ _
    exact (Elsewhere.apply_writes he).proceeds

theorem run_tracked (svc : RemediationServices) {S : OperationSystem}
    (hS : ∀ n, S.sessions n = none) (σ : List OperationStep) :
    (run (operationStep svc) S σ).Tracked := by
  refine run_invariant (fun _ _ _ => operationStep_tracked) ?_ σ
  intro n c txn hn
  rw [hS n] at hn
  cases hn

end

end ScanPlatform

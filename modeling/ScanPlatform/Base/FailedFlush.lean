import ScanPlatform.Base.UnitOfWork

/-!
# Flushes that fail

A flush that fails rolls the transaction of its session back, and from then on the session raises at
whatever it is asked for, until somebody rolls it back. Nothing here does.

* `Session`, `Raised`, `Work`: sessions, with what their flushes have been refused;
* `execute`, `flush`, `commit`: what a session is asked for;
* `Untouched`, `Waits`, **`Uncommitting`**: programs before they commit, and their rules;
* `Undone`, **`undone_of_refused`**: what has been refused before a commit makes it raise;
* `Quiet`, `Goes`, **`goes_bind`** and its siblings: programs in a session that nobody disturbs.
-/

set_option autoImplicit false

namespace FailedFlush

open UnitOfWork (Acts Turn actAll)

/-! ## Sessions -/

/-- `awaitsRollback`: a flush or a commit has failed; `refused`: what flushes have raised at. -/
structure Session (W O D : Type) extends UnitOfWork.Session W O D where
  awaitsRollback : Bool
  refused : List W

/-- What a session raises: `PendingRollbackError`, an error of the database, or one of the
program. -/
inductive Raised (E : Type) where
  | pendingRollback
  | database
  | program (e : E)
  deriving DecidableEq

abbrev Work (W O D E : Type) := EStateM (Raised E) (Session W O D)

section

variable {W O D E α β : Type}

/-- A session that has just been opened. -/
def Session.opened (db : D) (turns : List (Turn O)) : Session W O D where
  committed := db
  written := []
  expired := false
  turns
  awaitsRollback := false
  refused := []

variable [Acts W D] [Acts O D]

/-- A statement, which does not concern the objects of the session. -/
def execute (q : D → Except E (α × List W)) : Work W O D E α := fun s =>
  if s.awaitsRollback then .error .pendingRollback s
  else
    match UnitOfWork.statement .database (fun d => (q d).mapError Raised.program) s.toSession with
    | .ok a t => .ok a { s with toSession := t }
    | .error e t => .error e { s with toSession := t }

/-- The session sends what has been assigned to its objects or added to it. That fails as well where
the rows are not there any more. -/
def flush (fits : D → Bool) (ws : List W) : Work W O D E Unit := fun s =>
  if s.awaitsRollback then .error .pendingRollback { s with refused := s.refused ++ ws }
  else
    match UnitOfWork.statement .database
      (fun d => if fits d then .ok ((), ws) else .error .database) s.toSession with
    | .ok _ t => .ok () { s with toSession := t }
    | .error e t => .error e
        { toSession := t.expire, awaitsRollback := true, refused := s.refused ++ ws }

def commit : Work W O D E Unit := fun s =>
  if s.awaitsRollback then .error .pendingRollback s
  else
    match UnitOfWork.commit .database [] s.toSession with
    | .ok _ t => .ok () { s with toSession := t }
    | .error e t => .error e { s with toSession := t, awaitsRollback := true }

end

/-! ## Where a program ends -/

section

variable {W O D E α β : Type}

def ending (x : Work W O D E α) (s : Session W O D) : Session W O D :=
  match x s with
  | .ok _ s' | .error _ s' => s'

variable {s s' : Session W O D} {x : Work W O D E α} {f : α → Work W O D E β}
  {h : Raised E → Work W O D E α} {a : α} {e : Raised E}

theorem ending_ok (hx : x s = .ok a s') : ending x s = s' := by
  rw [ending, hx]

theorem ending_error (hx : x s = .error e s') : ending x s = s' := by
  rw [ending, hx]

theorem bind_of_ok (hx : x s = .ok a s') : (x >>= f) s = f a s' := by
  show EStateM.bind x f s = _
  unfold EStateM.bind
  rw [hx]

theorem bind_of_error (hx : x s = .error e s') : (x >>= f) s = .error e s' := by
  show EStateM.bind x f s = _
  unfold EStateM.bind
  rw [hx]

theorem tryCatch_of_ok (hx : x s = .ok a s') : (tryCatch x h) s = .ok a s' := by
  show EStateM.tryCatch x h s = _
  unfold EStateM.tryCatch
  rw [hx]

theorem tryCatch_of_error (hx : x s = .error e s') : (tryCatch x h) s = h e s' := by
  show EStateM.tryCatch x h s = _
  unfold EStateM.tryCatch
  rw [hx]
  rfl

/-- A program returns or raises. -/
theorem run_cases (x : Work W O D E α) (s : Session W O D) :
    (∃ a s', x s = .ok a s') ∨ ∃ e s', x s = .error e s' := by
  cases hx : x s with
  | ok a s' => exact .inl ⟨a, s', rfl⟩
  | error e s' => exact .inr ⟨e, s', rfl⟩

end

/-! ## Before a commit -/

section

variable {W O D E α β : Type} [Acts W D] [Acts O D] {s s' s₁ : Session W O D}

/-- Only others have changed the database. -/
def Untouched (s s' : Session W O D) : Prop :=
  ∃ ts, s.turns = ts ++ s'.turns ∧
    s'.committed = actAll (ts.flatMap Turn.others) s.committed

omit [Acts W D] in
theorem Untouched.refl (s : Session W O D) : Untouched s s := ⟨[], rfl, rfl⟩

omit [Acts W D] in
theorem Untouched.trans (h : Untouched s s₁) (h' : Untouched s₁ s') : Untouched s s' := by
  obtain ⟨ts, hturns, hcommitted⟩ := h
  obtain ⟨ts', hturns', hcommitted'⟩ := h'
  refine ⟨ts ++ ts', by rw [hturns, hturns', List.append_assoc], ?_⟩
  rw [hcommitted', hcommitted, List.flatMap_append, UnitOfWork.actAll_append]

/-- A session of which a flush has been refused awaits a rollback. -/
def Waits (s : Session W O D) : Prop := s.refused ≠ [] → s.awaitsRollback = true

/-- A program that has not come to a commit, of which flushes are refused at writes of a kind. -/
structure Uncommitting (P : W → Prop) (x : Work W O D E α) : Prop where
  untouched : ∀ s, Untouched s (ending x s)
  waits : ∀ s, Waits s → Waits (ending x s)
  refuses : ∀ s, ∀ w ∈ (ending x s).refused, w ∈ s.refused ∨ P w

variable {P : W → Prop}

omit [Acts W D] in
/-- Where a program that has not come to a commit returns. -/
theorem Uncommitting.of_ok {x : Work W O D E α} (hx : Uncommitting P x) {a : α}
    (hok : x s = .ok a s') (hs : Waits s) : Untouched s s' ∧ Waits s' := by
  rw [← ending_ok hok]
  exact ⟨hx.untouched s, hx.waits s hs⟩

omit [Acts W D] in
theorem uncommitting_pure (a : α) : Uncommitting P (pure a : Work W O D E α) :=
  ⟨Untouched.refl, fun _ h => h, fun _ _ h => .inl h⟩

omit [Acts W D] in
theorem uncommitting_throw (e : Raised E) : Uncommitting P (throw e : Work W O D E α) :=
  ⟨Untouched.refl, fun _ h => h, fun _ _ h => .inl h⟩

omit [Acts W D] in
theorem uncommitting_bind {x : Work W O D E α} {f : α → Work W O D E β} (hx : Uncommitting P x)
    (hf : ∀ a, Uncommitting P (f a)) : Uncommitting P (x >>= f) := by
  have hend : ∀ s, ending (x >>= f) s = ending x s ∨
      ∃ a, ending (x >>= f) s = ending (f a) (ending x s) := by
    intro s
    rcases run_cases x s with ⟨a, s₁, hok⟩ | ⟨e, s₁, herr⟩
    · refine .inr ⟨a, ?_⟩
      rw [ending, bind_of_ok hok, ending_ok hok]
      rfl
    · refine .inl ?_
      rw [ending_error (bind_of_error herr), ending_error herr]
  constructor
  · intro s
    rcases hend s with h | ⟨a, h⟩
    · rw [h]
      exact hx.untouched s
    · rw [h]
      exact (hx.untouched s).trans ((hf a).untouched _)
  · intro s hs
    rcases hend s with h | ⟨a, h⟩
    · rw [h]
      exact hx.waits s hs
    · rw [h]
      exact (hf a).waits _ (hx.waits s hs)
  · intro s w hw
    rcases hend s with h | ⟨a, h⟩
    · rw [h] at hw
      exact hx.refuses s w hw
    · rw [h] at hw
      exact ((hf a).refuses _ w hw).elim (hx.refuses s w) .inr

omit [Acts W D] in
theorem uncommitting_tryCatch {x : Work W O D E α} {h : Raised E → Work W O D E α}
    (hx : Uncommitting P x) (hh : ∀ e, Uncommitting P (h e)) : Uncommitting P (tryCatch x h) := by
  have hend : ∀ s, ending (tryCatch x h) s = ending x s ∨
      ∃ e, ending (tryCatch x h) s = ending (h e) (ending x s) := by
    intro s
    rcases run_cases x s with ⟨a, s₁, hok⟩ | ⟨e, s₁, herr⟩
    · refine .inl ?_
      rw [ending_ok (tryCatch_of_ok hok), ending_ok hok]
    · refine .inr ⟨e, ?_⟩
      rw [ending, tryCatch_of_error herr, ending_error herr]
      rfl
  constructor
  · intro s
    rcases hend s with h | ⟨e, h⟩
    · rw [h]
      exact hx.untouched s
    · rw [h]
      exact (hx.untouched s).trans ((hh e).untouched _)
  · intro s hs
    rcases hend s with h | ⟨e, h⟩
    · rw [h]
      exact hx.waits s hs
    · rw [h]
      exact (hh e).waits _ (hx.waits s hs)
  · intro s w hw
    rcases hend s with h | ⟨e, h⟩
    · rw [h] at hw
      exact hx.refuses s w hw
    · rw [h] at hw
      exact ((hh e).refuses _ w hw).elim (hx.refuses s w) .inr

omit [Acts W D] in
theorem uncommitting_forM {γ : Type} {f : γ → Work W O D E PUnit}
    (hf : ∀ c, Uncommitting P (f c)) (l : List γ) : Uncommitting P (l.forM f) := by
  induction l with
  | nil => exact uncommitting_pure _
  | cons c l ih => exact uncommitting_bind (hf c) fun _ => ih

/-- What a statement leaves of the database. -/
theorem untouched_statement {E' : Type} (failure : E') (q : D → Except E' (α × List W))
    (t : UnitOfWork.Session W O D) :
    ∃ ts, t.turns = ts ++ (UnitOfWork.ending (UnitOfWork.statement failure q) t).turns ∧
      (UnitOfWork.ending (UnitOfWork.statement failure q) t).committed =
        actAll (ts.flatMap Turn.others) t.committed := by
  have hnext : ∃ ts, t.turns = ts ++ t.next.2.turns ∧
      t.next.2.committed = actAll (ts.flatMap Turn.others) t.committed := by
    unfold UnitOfWork.Session.next
    split
    · exact ⟨[], rfl, rfl⟩
    · next turn turns hturns => exact ⟨[turn], hturns, by simp⟩
  unfold UnitOfWork.ending UnitOfWork.statement
  rcases hn : t.next with ⟨fate, t₁⟩
  rw [hn] at hnext
  cases fate with
  | done =>
    dsimp only
    cases q t₁.view with
    | ok r => exact hnext
    | error e => exact hnext
  | failed => exact hnext
  | aborted => exact hnext

theorem uncommitting_execute (q : D → Except E (α × List W)) :
    Uncommitting P (execute q : Work W O D E α) := by
  have hend : ∀ s : Session W O D, ∃ t, ending (execute q) s = { s with toSession := t } ∧
      Untouched s { s with toSession := t } := by
    intro s
    unfold ending execute
    split_ifs
    · exact ⟨s.toSession, rfl, Untouched.refl s⟩
    · have h := untouched_statement Raised.database (fun d => (q d).mapError Raised.program)
        s.toSession
      unfold UnitOfWork.ending at h
      revert h
      cases UnitOfWork.statement Raised.database (fun d => (q d).mapError Raised.program)
        s.toSession with
      | ok a t => exact fun h => ⟨t, rfl, h⟩
      | error e t => exact fun h => ⟨t, rfl, h⟩
  constructor
  · intro s
    obtain ⟨t, ht, huntouched⟩ := hend s
    rw [ht]
    exact huntouched
  · intro s hs
    obtain ⟨t, ht, -⟩ := hend s
    rw [ht]
    exact hs
  · intro s w hw
    obtain ⟨t, ht, -⟩ := hend s
    rw [ht] at hw
    exact .inl hw

/-- A flush changes nothing in the database; it leaves the session waiting for a rollback, with what
it was to send refused, or as it was. -/
theorem flush_spec (fits : D → Bool) (ws : List W) (s : Session W O D) :
    Untouched s (ending (flush fits ws : Work W O D E Unit) s) ∧
      ((ending (flush fits ws : Work W O D E Unit) s).awaitsRollback = true ∧
          (ending (flush fits ws : Work W O D E Unit) s).refused = s.refused ++ ws ∨
        (ending (flush fits ws : Work W O D E Unit) s).awaitsRollback = s.awaitsRollback ∧
          (ending (flush fits ws : Work W O D E Unit) s).refused = s.refused) := by
  unfold ending flush
  split_ifs with hwaits
  · exact ⟨⟨[], rfl, rfl⟩, .inl ⟨hwaits, rfl⟩⟩
  · have h := untouched_statement (Raised.database (E := E))
      (fun d => if fits d then .ok ((), ws) else .error .database) s.toSession
    unfold UnitOfWork.ending at h
    revert h
    cases UnitOfWork.statement (Raised.database (E := E))
      (fun d => if fits d then .ok ((), ws) else .error .database) s.toSession with
    | ok a t => exact fun h => ⟨h, .inr ⟨rfl, rfl⟩⟩
    | error e t => exact fun h => ⟨h, .inl ⟨rfl, rfl⟩⟩

theorem uncommitting_flush (fits : D → Bool) {ws : List W} (hws : ∀ w ∈ ws, P w) :
    Uncommitting P (flush fits ws : Work W O D E Unit) := by
  constructor
  · exact fun s => (flush_spec fits ws s).1
  · intro s hs
    rcases (flush_spec (E := E) fits ws s).2 with ⟨hwaits, -⟩ | ⟨hwaits, hrefused⟩
    · exact fun _ => hwaits
    · intro hsome
      rw [hwaits]
      rw [hrefused] at hsome
      exact hs hsome
  · intro s w hw
    rcases (flush_spec (E := E) fits ws s).2 with ⟨-, hrefused⟩ | ⟨-, hrefused⟩
    · rw [hrefused] at hw
      exact (List.mem_append.mp hw).imp_right (hws w)
    · rw [hrefused] at hw
      exact .inl hw

/-! ## The commit -/

omit [Acts W D] [Acts O D] in
theorem waits_opened (db : D) (turns : List (Turn O)) :
    Waits (Session.opened db turns : Session W O D) := fun h => absurd rfl h

theorem commit_awaiting (h : s.awaitsRollback = true) :
    (commit : Work W O D E Unit) s = .error .pendingRollback s := by
  unfold commit
  rw [if_pos h]

theorem refused_commit (s : Session W O D) :
    (ending (commit : Work W O D E Unit) s).refused = s.refused := by
  unfold ending commit
  split_ifs
  · rfl
  · cases UnitOfWork.commit Raised.database [] s.toSession <;> rfl

/-- The program raises for a rollback that nobody asked for, and has changed nothing. -/
structure Undone (x : Work W O D E α) (s : Session W O D) : Prop where
  raises : x s = .error .pendingRollback (ending x s)
  untouched : Untouched s (ending x s)

omit [Acts W D] in
theorem Undone.bind {x : Work W O D E α} {f : α → Work W O D E β} {a : α} (hok : x s = .ok a s₁)
    (hs : Untouched s s₁) (h : Undone (f a) s₁) : Undone (x >>= f) s := by
  have hend : ending (x >>= f) s = ending (f a) s₁ := by
    rw [ending, bind_of_ok hok]
    rfl
  refine ⟨?_, ?_⟩
  · rw [bind_of_ok hok, hend]
    exact h.raises
  · rw [hend]
    exact hs.trans h.untouched

/-- **What a program that never raises has been refused makes its commit raise.** -/
theorem undone_of_refused {x : Work W O D E α} (hx : Uncommitting P x) {a : α}
    (hok : x s = .ok a s₁) (hs : Waits s) {k : α → Work W O D E β}
    (hk : ∀ a s, (ending (k a) s).refused = s.refused)
    (hrefused : (ending (x >>= fun a => commit >>= fun _ => k a) s).refused ≠ []) :
    Undone (x >>= fun a => commit >>= fun _ => k a) s := by
  obtain ⟨huntouched, hwaits⟩ := hx.of_ok hok hs
  have hend : (ending (x >>= fun a => commit >>= fun _ => k a) s).refused = s₁.refused := by
    rw [ending, bind_of_ok hok]
    have hcommit := refused_commit (E := E) s₁
    rcases run_cases (commit : Work W O D E Unit) s₁ with ⟨u, s₂, h⟩ | ⟨e, s₂, h⟩
    · rw [ending_ok h] at hcommit
      rw [bind_of_ok h]
      exact (hk a s₂).trans hcommit
    · rw [ending_error h] at hcommit
      rw [bind_of_error h]
      exact hcommit
  rw [hend] at hrefused
  have hraises : (commit : Work W O D E Unit) s₁ = .error .pendingRollback s₁ :=
    commit_awaiting (hwaits hrefused)
  refine .bind hok huntouched ⟨?_, ?_⟩
  · rw [ending_error (bind_of_error hraises)]
    exact bind_of_error hraises
  · rw [ending_error (bind_of_error hraises)]
    exact .refl s₁

end

/-! ## Sessions that nobody disturbs -/

section

variable {W O D E α β : Type} [Acts W D] [Acts O D] {s : Session W O D} {x : Work W O D E α}
  {a : α} {u : List W}

structure Quiet (s : Session W O D) : Prop where
  turns : s.turns = []
  awaitsRollback : s.awaitsRollback = false

/-- In a session that nobody disturbs, the program returns `a` and writes `u`. -/
def Goes (x : Work W O D E α) (s : Session W O D) (a : α) (u : List W) : Prop :=
  ∃ s', x s = .ok a s' ∧ Quiet s' ∧ s'.view = actAll u s.view

omit [Acts W D] [Acts O D] in
theorem quiet_opened (db : D) : Quiet (Session.opened db [] : Session W O D) := ⟨rfl, rfl⟩

omit [Acts O D] in
theorem goes_pure (hs : Quiet s) : Goes (pure a : Work W O D E α) s a [] := ⟨s, rfl, hs, rfl⟩

omit [Acts O D] in
theorem goes_bind {f : α → Work W O D E β} {b : β} {v : List W} (hx : Goes x s a u)
    (hf : ∀ s₁ : Session W O D, Quiet s₁ → s₁.view = actAll u s.view → Goes (f a) s₁ b v) :
    Goes (x >>= f) s b (u ++ v) := by
  obtain ⟨s₁, hok, hquiet, hview⟩ := hx
  obtain ⟨s₂, hok₂, hquiet₂, hview₂⟩ := hf s₁ hquiet hview
  refine ⟨s₂, by rw [bind_of_ok hok, hok₂], hquiet₂, ?_⟩
  rw [hview₂, hview, UnitOfWork.actAll_append]

omit [Acts O D] in
/-- A loop writes what its rounds write. -/
theorem goes_forM {γ : Type} {P : W → Prop} {f : γ → Work W O D E PUnit}
    (hf : ∀ c (s : Session W O D), Quiet s → ∃ u, (∀ w ∈ u, P w) ∧ Goes (f c) s ⟨⟩ u)
    (l : List γ) (hs : Quiet s) : ∃ u, (∀ w ∈ u, P w) ∧ Goes (l.forM f) s ⟨⟩ u := by
  induction l generalizing s with
  | nil => exact ⟨[], nofun, goes_pure hs⟩
  | cons c l ih =>
    obtain ⟨u, hu, s₁, hok, hs₁, hview⟩ := hf c s hs
    obtain ⟨v, hv, s₂, hok₂, hs₂, hview₂⟩ := ih hs₁
    refine ⟨u ++ v, fun w hw => (List.mem_append.mp hw).elim (hu w) (hv w), s₂, ?_, hs₂, ?_⟩
    · exact (bind_of_ok hok).trans hok₂
    · rw [hview₂, hview, UnitOfWork.actAll_append]

omit [Acts O D] in
theorem goes_tryCatch {h : Raised E → Work W O D E α} (hx : Goes x s a u) :
    Goes (tryCatch x h) s a u := by
  obtain ⟨s₁, hok, hs₁⟩ := hx
  exact ⟨s₁, tryCatch_of_ok hok, hs₁⟩

theorem goes_execute (hs : Quiet s) {q : D → Except E (α × List W)}
    (hq : q s.view = .ok (a, u)) : Goes (execute q) s a u := by
  refine ⟨{ s with toSession := s.toSession.write u }, ?_, ⟨hs.turns, hs.awaitsRollback⟩,
    UnitOfWork.Session.view_write s.toSession u⟩
  simp [execute, hs.awaitsRollback, UnitOfWork.statement, UnitOfWork.next_quiet hs.turns, hq,
    Except.mapError]

theorem goes_flush (hs : Quiet s) {fits : D → Bool} (hfits : fits s.view = true) (u : List W) :
    Goes (flush fits u : Work W O D E Unit) s () u := by
  refine ⟨{ s with toSession := s.toSession.write u }, ?_, ⟨hs.turns, hs.awaitsRollback⟩,
    UnitOfWork.Session.view_write s.toSession u⟩
  simp [flush, hs.awaitsRollback, UnitOfWork.statement, UnitOfWork.next_quiet hs.turns, hfits]

/-- What a commit leaves in the database. -/
theorem commit_quiet (hs : Quiet s) :
    ∃ s', (commit : Work W O D E Unit) s = .ok () s' ∧ s'.committed = s.view := by
  refine ⟨{ s with toSession := s.toSession.commit }, ?_, rfl⟩
  simp [commit, hs.awaitsRollback, UnitOfWork.commit, UnitOfWork.next_quiet hs.turns]

end

end FailedFlush

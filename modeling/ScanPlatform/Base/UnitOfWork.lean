import Mathlib.Data.List.Basic

/-!
# Units of work

A session that holds what it has written until it commits or rolls back. Whatever shares the session
shares its transaction: a commit or a rollback anywhere ends it for all of them.

* `Fate`, `Turn`: how the database answers a statement, and what others commit before it;
* `Session`, `view`: what is committed, what the transaction has written, and what it sees;
* `Work`: programs on a session; `statement`, `select`, `flush`, `commit`, `rollback`, `loaded`;
* `bind_eq_ok`, `tryCatch_eq_ok`, `ending`: how a program returns, and where it ends;
* `Isolated`: a part of the database that others leave alone;
* `Outcome`, `Settles`: what a program leaves of the transaction; its rules are `settles_pure`,
  **`settles_statement`**, `settles_select`, `settles_flush`, `settles_rollback`,
  **`settles_commit`** and `settles_committed`;
* `Runs`, **`runs_bind`** and its siblings: what a program writes in a session that nobody disturbs.
-/

set_option autoImplicit false

namespace UnitOfWork

/-! ## Sessions -/

/-- How the database answers a statement: it carries it out, it refuses this statement alone, or it
rolls the transaction back. -/
inductive Fate where
  | done
  | failed
  | aborted
  deriving DecidableEq

/-- What others commit before a statement, and how the database answers it. -/
structure Turn (O : Type) where
  others : List O
  fate : Fate

/-- What an action does to a database. -/
class Acts (A : Type) (D : outParam Type) where
  act : A → D → D

/-- `expired`: the objects that the session has loaded cannot be read any more. -/
structure Session (W O D : Type) where
  committed : D
  written : List W
  expired : Bool
  turns : List (Turn O)

section

variable {W O D E α β : Type} [Acts W D] [Acts O D]

/-- The actions, one after the other. -/
def actAll {A : Type} [Acts A D] (l : List A) (d : D) : D := l.foldl (fun d a => Acts.act a d) d

@[simp] theorem actAll_nil {A : Type} [Acts A D] (d : D) : actAll ([] : List A) d = d := rfl

@[simp] theorem actAll_cons {A : Type} [Acts A D] (a : A) (l : List A) (d : D) :
    actAll (a :: l) d = actAll l (Acts.act a d) := rfl

theorem actAll_append {A : Type} [Acts A D] (l l' : List A) (d : D) :
    actAll (l ++ l') d = actAll l' (actAll l d) := List.foldl_append

/-- What the session sees. -/
def Session.view (s : Session W O D) : D := actAll s.written s.committed

/-- The session after a write. -/
def Session.write (s : Session W O D) (ws : List W) : Session W O D :=
  { s with written := s.written ++ ws }

/-- The session after a commit. -/
def Session.commit (s : Session W O D) : Session W O D :=
  { s with committed := s.view, written := [] }

/-- The session after the database has rolled the transaction back. -/
def Session.abort (s : Session W O D) : Session W O D := { s with written := [] }

/-- The session after it has rolled the transaction back itself. -/
def Session.expire (s : Session W O D) : Session W O D :=
  { s with written := [], expired := true }

/-- The answer to the next statement. Nobody interferes when no turn is left. -/
def Session.next (s : Session W O D) : Fate × Session W O D :=
  match s.turns with
  | [] => (.done, s)
  | t :: turns => (t.fate, { s with committed := actAll t.others s.committed, turns })

/-! ## Programs -/

abbrev Work (W O D E : Type) := EStateM E (Session W O D)

/-- A statement reads the database and may write to it. -/
def statement (failure : E) (q : D → Except E (α × List W)) : Work W O D E α := fun s =>
  match s.next with
  | (.done, s) =>
    match q s.view with
    | .ok (a, ws) => .ok a (s.write ws)
    | .error e => .error e s
  | (.failed, s) => .error failure s
  | (.aborted, s) => .error failure s.abort

/-- A statement that reads. -/
def select (failure : E) (q : D → α) : Work W O D E α :=
  statement failure fun d => .ok (q d, [])

/-- The session sends what has been assigned to its objects; when that fails it rolls back. -/
def flush (failure : E) (ws : List W) : Work W O D E Unit := fun s =>
  match s.next with
  | (.done, s) => .ok () (s.write ws)
  | (.failed, s) | (.aborted, s) => .error failure s.expire

/-- The session sends what has been assigned, and commits. -/
def commit (failure : E) (ws : List W) : Work W O D E Unit := fun s =>
  match s.next with
  | (.done, s) => .ok () (s.write ws).commit
  | (.failed, s) | (.aborted, s) => .error failure s.expire

def rollback : Work W O D E Unit := fun s => .ok () s.expire

/-- The session reads an object that it has loaded. -/
def loaded (failure : E) : Work W O D E Unit := fun s =>
  if s.expired then .error failure s else .ok () s

end

/-! ## How programs return -/

section

variable {W O D E α β : Type} {s s' : Session W O D}

theorem bind_eq_ok {x : Work W O D E α} {f : α → Work W O D E β} {b : β} :
    (x >>= f) s = .ok b s' ↔ ∃ a s₁, x s = .ok a s₁ ∧ f a s₁ = .ok b s' := by
  show EStateM.bind x f s = _ ↔ _
  unfold EStateM.bind
  cases x s with
  | ok a s₁ => simp
  | error e s₁ => simp

theorem bind_eq_error {x : Work W O D E α} {f : α → Work W O D E β} {e : E} :
    (x >>= f) s = .error e s' ↔
      x s = .error e s' ∨ ∃ a s₁, x s = .ok a s₁ ∧ f a s₁ = .error e s' := by
  show EStateM.bind x f s = _ ↔ _
  unfold EStateM.bind
  cases x s with
  | ok a s₁ => simp
  | error e s₁ => simp

theorem tryCatch_eq_ok {x : Work W O D E α} {h : E → Work W O D E α} {a : α} :
    (tryCatch x h) s = .ok a s' ↔
      x s = .ok a s' ∨ ∃ e s₁, x s = .error e s₁ ∧ h e s₁ = .ok a s' := by
  show EStateM.tryCatch x h s = _ ↔ _
  unfold EStateM.tryCatch
  cases x s with
  | ok a s₁ => simp
  | error e s₁ => simp [EStateM.Backtrackable.restore, EStateM.dummyRestore]

@[simp] theorem pure_eq_ok {a b : α} :
    (pure a : Work W O D E α) s = .ok b s' ↔ a = b ∧ s = s' := by
  show EStateM.pure a s = _ ↔ _
  simp [EStateM.pure]

@[simp] theorem throw_ne_ok {e : E} {b : α} :
    (throw e : Work W O D E α) s = .ok b s' ↔ False := by
  show EStateM.Result.error e s = _ ↔ _
  simp

@[simp] theorem Session.write_nil (s : Session W O D) : s.write [] = s := by
  simp [Session.write]

/-- Where a program ends, with a result or an error. -/
def ending (x : Work W O D E α) (s : Session W O D) : Session W O D :=
  match x s with
  | .ok _ s' | .error _ s' => s'

theorem ending_bind (x : Work W O D E α) (f : α → Work W O D E β) (s : Session W O D) :
    ending (x >>= f) s = match x s with
      | .ok a s₁ => ending (f a) s₁
      | .error _ s₁ => s₁ := by
  show (match EStateM.bind x f s with | .ok _ s' | .error _ s' => s') = _
  unfold EStateM.bind
  cases x s with
  | ok a s₁ => rfl
  | error e s₁ => rfl

/-- A handler that only reads an object returns where the program has ended, if it returns. -/
theorem ending_of_tryCatch {x : Work W O D E Unit} {failure : E}
    (h : (tryCatch x fun _ => loaded failure) s = .ok () s') :
    ending x s = s' ∧ (x s = .ok () s' ∨ s'.expired = false) := by
  unfold ending
  rcases tryCatch_eq_ok.mp h with hx | ⟨e, s₁, hx, hloaded⟩
  · rw [hx]
    exact ⟨rfl, .inl rfl⟩
  · unfold loaded at hloaded
    split_ifs at hloaded with hexpired
    cases hloaded
    rw [hx]
    exact ⟨rfl, .inr (by simpa using hexpired)⟩

/-! ## One answer at a time -/

/-- None of the first `n` answers is an abort. -/
def NoAbort (n : ℕ) (s : Session W O D) : Prop := ∀ t ∈ s.turns.take n, t.fate ≠ .aborted

/-- None of the answers that are left is an abort. -/
def Calm (s : Session W O D) : Prop := ∀ t ∈ s.turns, t.fate ≠ .aborted

theorem Calm.noAbort (h : Calm s) (n : ℕ) : NoAbort n s :=
  fun t ht => h t (List.mem_of_mem_take ht)

end

section

variable {W O D E α β T : Type} [Acts W D] [Acts O D] {s s' : Session W O D} {part : D → T}

/-- A part of the database that others leave alone, and that the writes derive from itself. -/
structure Isolated (W O : Type) [Acts W D] [Acts O D] (part : D → T) : Prop where
  others : ∀ (o : O) d, part (Acts.act o d) = part d
  writes : ∀ (w : W) d d', part d = part d' → part (Acts.act w d) = part (Acts.act w d')

theorem Isolated.actAll_others (h : Isolated W O part) (l : List O) (d : D) :
    part (actAll l d) = part d := by
  induction l generalizing d with
  | nil => rfl
  | cons o l ih => exact (ih _).trans (h.others o d)

theorem Isolated.actAll_writes (h : Isolated W O part) (l : List W) {d d' : D}
    (hd : part d = part d') : part (actAll l d) = part (actAll l d') := by
  induction l generalizing d d' with
  | nil => exact hd
  | cons w l ih => exact ih (h.writes w d d' hd)

/-- What the next answer leaves alone. -/
structure Next (part : D → T) (s s₁ : Session W O D) : Prop where
  written : s₁.written = s.written
  expired : s₁.expired = s.expired
  committed : part s₁.committed = part s.committed
  view : part s₁.view = part s.view

theorem next_spec (h : Isolated W O part) {fate : Fate} {s₁ : Session W O D}
    (hnext : s.next = (fate, s₁)) : Next part s s₁ ∧
      ∀ n, NoAbort (n + 1) s ↔ fate ≠ .aborted ∧ NoAbort n s₁ := by
  unfold Session.next at hnext
  split at hnext
  · next hturns =>
    cases hnext
    refine ⟨⟨rfl, rfl, rfl, rfl⟩, fun n => ?_⟩
    simp [NoAbort, hturns]
  · next t turns hturns =>
    cases hnext
    refine ⟨⟨rfl, rfl, h.actAll_others _ _, ?_⟩, fun n => ?_⟩
    · exact h.actAll_writes _ (h.actAll_others _ _)
    · simp [NoAbort, hturns]

omit [Acts W D] in
theorem Calm.of_next {fate : Fate} {s₁ : Session W O D} (hnext : s.next = (fate, s₁))
    (hfate : fate ≠ .aborted) (h : Calm s₁) : Calm s := by
  unfold Session.next at hnext
  split at hnext
  · next hturns =>
    intro t ht
    rw [hturns] at ht
    cases ht
  · next t turns hturns =>
    cases hnext
    intro t' ht'
    rw [hturns] at ht'
    rcases List.mem_cons.mp ht' with rfl | ht'
    · exact hfate
    · exact h t' ht'

/-- A statement that returns has been carried out. -/
theorem statement_eq_ok {failure : E} {q : D → Except E (α × List W)} {a : α} :
    statement failure q s = .ok a s' ↔
      ∃ s₁ ws, s.next = (.done, s₁) ∧ q s₁.view = .ok (a, ws) ∧ s' = s₁.write ws := by
  unfold statement
  split
  · next s₁ hnext =>
    rw [hnext]
    cases hq : q s₁.view with
    | ok r =>
      obtain ⟨b, ws⟩ := r
      constructor
      · intro h
        cases h
        exact ⟨s₁, ws, rfl, hq, rfl⟩
      · rintro ⟨s₂, ws', hs₂, hws', rfl⟩
        cases hs₂
        rw [hq] at hws'
        cases hws'
        rfl
    | error e =>
      refine iff_of_false (by simp) ?_
      rintro ⟨s₂, ws', hs₂, hws', -⟩
      cases hs₂
      rw [hq] at hws'
      cases hws'
  · next s₁ hnext => simp [hnext]
  · next s₁ hnext => simp [hnext]

theorem select_eq_ok {failure : E} {q : D → α} {a : α} :
    select failure q s = .ok a s' ↔ s.next = (.done, s') ∧ a = q s'.view := by
  unfold select
  rw [statement_eq_ok]
  constructor
  · rintro ⟨s₁, ws, hnext, hq, rfl⟩
    cases hq
    rw [Session.write_nil]
    exact ⟨hnext, rfl⟩
  · rintro ⟨hnext, rfl⟩
    exact ⟨s', [], hnext, rfl, (Session.write_nil s').symm⟩

end

/-! ## What a program leaves of the transaction -/

section

variable {W O D E α β T : Type} [Acts W D] {s s' : Session W O D} {part : D → T} {n : ℕ} {want : T}
  {k : α → Work W O D E β} {failure : E}

/-- The transaction has written what was wanted, or an abort has undone all that was written. -/
inductive Outcome (part : D → T) (n : ℕ) (want : T) (s s' : Session W O D) : Prop
  | kept (calm : NoAbort n s) (view : part s'.view = want)
  | lost (aborted : ¬ NoAbort n s) (written : s'.written = [])
    (committed : part s'.committed = part s.committed)

/-- A program with at most `n` statements that an abort could undo, and what it leaves unless it
ends in an error with its objects expired. -/
def Settles (part : D → T) (n : ℕ) (want : T) (x : Work W O D E α) (s : Session W O D) : Prop :=
  Calm (ending x s) → (∀ e s', x s = .error e s' → s'.expired = false) →
    Outcome part n want s (ending x s)

theorem Session.view_write (s : Session W O D) (ws : List W) :
    (s.write ws).view = actAll ws s.view := actAll_append _ _ _

theorem settles_pure {a : α} (h : part s.view = want) :
    Settles part n want (pure a : Work W O D E α) s :=
  fun hcalm _ => .kept (hcalm.noAbort n) h

theorem settles_rollback {e : E} :
    Settles part n want (rollback >>= fun _ => (throw e : Work W O D E α) >>= k) s := by
  intro _ hsurvives
  have := hsurvives e s.expire rfl
  cases this

variable [Acts O D]

/-- What the next statement leaves, after an answer that is no abort. -/
theorem Outcome.of_next (h : Isolated W O part) {fate : Fate}
    {s₁ t : Session W O D} (hnext : s.next = (fate, s₁)) (hfate : fate ≠ .aborted)
    (hturns : t.turns = s₁.turns) (hcommitted : part t.committed = part s₁.committed)
    (hout : Outcome part n want t s') : Outcome part (n + 1) want s s' := by
  obtain ⟨hspec, habort⟩ := next_spec h hnext
  have hiff : NoAbort (n + 1) s ↔ NoAbort n t := by
    rw [habort, NoAbort, NoAbort, hturns]
    simp [hfate]
  cases hout with
  | kept calm view => exact .kept (hiff.mpr calm) view
  | lost aborted written committed =>
    refine .lost (fun hno => aborted (hiff.mp hno)) written ?_
    exact committed.trans (hcommitted.trans hspec.committed)

/-- The rule for a statement that does not touch the part. -/
theorem settles_statement (h : Isolated W O part) {q : D → Except E (α × List W)}
    (hview : part s.view = want)
    (hk : ∀ (s₁ : Session W O D) a ws, part s₁.view = want → q s₁.view = .ok (a, ws) →
      Settles part n want (k a) (s₁.write ws)) :
    Settles part (n + 1) want (statement failure q >>= k) s := by
  intro hcalm hsurvives
  obtain ⟨fate, s₁, hnext⟩ : ∃ fate s₁, s.next = (fate, s₁) := ⟨_, _, rfl⟩
  obtain ⟨hspec, habort⟩ := next_spec h hnext
  have hview₁ : part s₁.view = want := hspec.view.trans hview
  cases fate with
  | done =>
    cases hq : q s₁.view with
    | ok r =>
      obtain ⟨a, ws⟩ := r
      have hok : statement failure q s = .ok a (s₁.write ws) := by simp [statement, hnext, hq]
      have hend : ending (statement failure q >>= k) s = ending (k a) (s₁.write ws) := by
        rw [ending_bind, hok]
      rw [hend] at hcalm ⊢
      refine .of_next (t := s₁.write ws) h hnext (by decide) rfl rfl ?_
      refine hk s₁ a ws hview₁ hq hcalm fun e s' he => hsurvives e s' ?_
      exact bind_eq_error.mpr (.inr ⟨a, _, hok, he⟩)
    | error e =>
      have herr : statement failure q s = .error e s₁ := by simp [statement, hnext, hq]
      rw [ending_bind, herr] at hcalm ⊢
      exact .kept ((habort n).mpr ⟨by decide, hcalm.noAbort n⟩) hview₁
  | failed =>
    have herr : statement failure q s = .error failure s₁ := by simp [statement, hnext]
    rw [ending_bind, herr] at hcalm ⊢
    exact .kept ((habort n).mpr ⟨by decide, hcalm.noAbort n⟩) hview₁
  | aborted =>
    have herr : statement failure q s = .error failure s₁.abort := by simp [statement, hnext]
    rw [ending_bind, herr] at hcalm ⊢
    exact .lost (fun hno => ((habort n).mp hno).1 rfl) rfl hspec.committed

/-- The rule for a statement that reads. -/
theorem settles_select (h : Isolated W O part) {q : D → α} (hview : part s.view = want)
    (hk : ∀ s₁ : Session W O D, part s₁.view = want → Settles part n want (k (q s₁.view)) s₁) :
    Settles part (n + 1) want (select failure q >>= k) s := by
  refine settles_statement h hview fun s₁ a ws hview₁ hq => ?_
  cases hq
  rw [Session.write_nil]
  exact hk s₁ hview₁

/-- The rule for what is flushed. -/
theorem settles_flush (h : Isolated W O part) {ws : List W} {k : Unit → Work W O D E β}
    (hwant : part (actAll ws s.view) = want)
    (hk : ∀ s₁ : Session W O D, part s₁.view = want → Settles part n want (k ()) s₁) :
    Settles part (n + 1) want (flush failure ws >>= k) s := by
  intro hcalm hsurvives
  obtain ⟨fate, s₁, hnext⟩ : ∃ fate s₁, s.next = (fate, s₁) := ⟨_, _, rfl⟩
  have hexpires : ∀ e s', flush failure ws s = .error e s' → s'.expired = false := fun e s' he =>
    hsurvives e s' (bind_eq_error.mpr (.inl he))
  cases fate with
  | done =>
    have hok : flush failure ws s = .ok () (s₁.write ws) := by simp [flush, hnext]
    have hview : part (s₁.write ws).view = want := by
      rw [Session.view_write, ← hwant]
      exact h.actAll_writes ws (next_spec h hnext).1.view
    have hend : ending (flush failure ws >>= k) s = ending (k ()) (s₁.write ws) := by
      rw [ending_bind, hok]
    rw [hend] at hcalm ⊢
    refine .of_next (t := s₁.write ws) h hnext (by decide) rfl rfl ?_
    refine hk _ hview hcalm fun e s' he => hsurvives e s' ?_
    exact bind_eq_error.mpr (.inr ⟨(), _, hok, he⟩)
  | failed =>
    have := hexpires failure s₁.expire (by simp [flush, hnext])
    cases this
  | aborted =>
    have := hexpires failure s₁.expire (by simp [flush, hnext])
    cases this

/-- What has been committed is not undone by a statement that reads. -/
theorem settles_committed (h : Isolated W O part) {q : D → α} (hwritten : s.written = [])
    (hcommitted : part s.committed = want) :
    Settles part 0 want (select failure q : Work W O D E α) s := by
  intro _ _
  obtain ⟨fate, s₁, hnext⟩ : ∃ fate s₁, s.next = (fate, s₁) := ⟨_, _, rfl⟩
  obtain ⟨hspec, -⟩ := next_spec h hnext
  have hwritten₁ : s₁.written = [] := hspec.written.trans hwritten
  have hview : part s₁.view = want := by
    unfold Session.view
    rw [hwritten₁]
    exact hspec.committed.trans hcommitted
  have hcalm : NoAbort 0 s := fun t ht => by simp at ht
  refine .kept hcalm ?_
  cases fate with
  | done =>
    have hrun : select failure q s = .ok (q s₁.view) s₁ := by simp [select, statement, hnext]
    rw [ending, hrun]
    exact hview
  | failed =>
    have hrun : select failure q s = .error failure s₁ := by simp [select, statement, hnext]
    rw [ending, hrun]
    exact hview
  | aborted =>
    have hrun : select failure q s = .error failure s₁.abort := by simp [select, statement, hnext]
    rw [ending, hrun]
    exact hspec.committed.trans hcommitted

/-- The rule for a commit, after which an abort undoes nothing. -/
theorem settles_commit (h : Isolated W O part) {ws : List W} {k : Unit → Work W O D E β}
    (hwant : part (actAll ws s.view) = want)
    (hk : ∀ s₁ : Session W O D, s₁.written = [] → part s₁.committed = want →
      Settles part 0 want (k ()) s₁) :
    Settles part 1 want (commit failure ws >>= k) s := by
  intro hcalm hsurvives
  obtain ⟨fate, s₁, hnext⟩ : ∃ fate s₁, s.next = (fate, s₁) := ⟨_, _, rfl⟩
  obtain ⟨hspec, habort⟩ := next_spec h hnext
  have hexpires : ∀ e s', commit failure ws s = .error e s' → s'.expired = false := fun e s' he =>
    hsurvives e s' (bind_eq_error.mpr (.inl he))
  cases fate with
  | done =>
    have hok : commit failure ws s = .ok () (s₁.write ws).commit := by simp [commit, hnext]
    have hcommitted : part (s₁.write ws).commit.committed = want := by
      show part (s₁.write ws).view = want
      rw [Session.view_write, ← hwant]
      exact h.actAll_writes ws hspec.view
    have hend : ending (commit failure ws >>= k) s = ending (k ()) (s₁.write ws).commit := by
      rw [ending_bind, hok]
    rw [hend] at hcalm ⊢
    have hno : ∀ s₂ : Session W O D, NoAbort 0 s₂ := fun s₂ t ht => by simp at ht
    have hout := hk _ rfl hcommitted hcalm fun e s' he =>
      hsurvives e s' (bind_eq_error.mpr (.inr ⟨(), _, hok, he⟩))
    cases hout with
    | kept _ view => exact .kept ((habort 0).mpr ⟨by decide, hno s₁⟩) view
    | lost aborted _ _ => exact absurd (hno _) aborted
  | failed =>
    have := hexpires failure s₁.expire (by simp [commit, hnext])
    cases this
  | aborted =>
    have := hexpires failure s₁.expire (by simp [commit, hnext])
    cases this

end

/-! ## Sessions that nobody disturbs -/

section

variable {W O D E α β : Type} [Acts W D] [Acts O D] {s : Session W O D} {failure : E}
  {x : Work W O D E α} {a : α} {ws : List W}

/-- In a session that nobody disturbs, the program returns `a` and writes `ws`. -/
def Runs (x : Work W O D E α) (s : Session W O D) (a : α) (ws : List W) : Prop :=
  ∃ s', x s = .ok a s' ∧ s'.turns = [] ∧ s'.view = actAll ws s.view

omit [Acts W D] in
theorem next_quiet (h : s.turns = []) : s.next = (.done, s) := by
  unfold Session.next
  rw [h]

omit [Acts O D] in
theorem runs_pure (h : s.turns = []) : Runs (pure a : Work W O D E α) s a [] := ⟨s, rfl, h, rfl⟩

omit [Acts O D] in
theorem runs_bind {f : α → Work W O D E β} {b : β} {ws' : List W} (hx : Runs x s a ws)
    (hf : ∀ s₁ : Session W O D, s₁.turns = [] → s₁.view = actAll ws s.view → Runs (f a) s₁ b ws') :
    Runs (x >>= f) s b (ws ++ ws') := by
  obtain ⟨s₁, hok, hturns, hview⟩ := hx
  obtain ⟨s₂, hok₂, hturns₂, hview₂⟩ := hf s₁ hturns hview
  refine ⟨s₂, bind_eq_ok.mpr ⟨a, s₁, hok, hok₂⟩, hturns₂, ?_⟩
  rw [hview₂, hview, actAll_append]

omit [Acts O D] in
/-- A step that writes nothing. -/
theorem runs_read {f : α → Work W O D E β} {b : β} (hx : Runs x s a [])
    (hf : ∀ s₁ : Session W O D, s₁.turns = [] → s₁.view = s.view → Runs (f a) s₁ b ws) :
    Runs (x >>= f) s b ws :=
  runs_bind hx hf

omit [Acts O D] in
/-- A step that writes one thing. -/
theorem runs_cons {f : α → Work W O D E β} {b : β} {w : W} (hx : Runs x s a [w])
    (hf : ∀ s₁ : Session W O D, s₁.turns = [] → s₁.view = Acts.act w s.view →
      Runs (f a) s₁ b ws) : Runs (x >>= f) s b (w :: ws) :=
  runs_bind hx hf

omit [Acts O D] in
theorem runs_return {b : β} (hx : Runs x s a ws) :
    Runs (x >>= fun _ => pure b) s b ws := by
  have h := runs_bind hx (f := fun _ => pure b) fun s₁ h₁ _ => runs_pure h₁
  rwa [List.append_nil] at h

omit [Acts O D] in
theorem runs_tryCatch {h : E → Work W O D E α} (hx : Runs x s a ws) :
    Runs (tryCatch x h) s a ws := by
  obtain ⟨s₁, hok, hs₁⟩ := hx
  exact ⟨s₁, tryCatch_eq_ok.mpr (.inl hok), hs₁⟩

theorem runs_statement (h : s.turns = []) {q : D → Except E (α × List W)}
    (hq : q s.view = .ok (a, ws)) : Runs (statement failure q) s a ws := by
  refine ⟨s.write ws, ?_, h, Session.view_write s ws⟩
  simp [statement, next_quiet h, hq]

theorem runs_select (h : s.turns = []) (q : D → α) : Runs (select failure q) s (q s.view) [] :=
  runs_statement h rfl

theorem runs_flush (h : s.turns = []) (ws : List W) : Runs (flush failure ws) s () ws := by
  refine ⟨s.write ws, ?_, h, Session.view_write s ws⟩
  simp [flush, next_quiet h]

theorem runs_commit (h : s.turns = []) (ws : List W) : Runs (commit failure ws) s () ws := by
  refine ⟨(s.write ws).commit, ?_, h, Session.view_write s ws⟩
  simp [commit, next_quiet h]

end

end UnitOfWork

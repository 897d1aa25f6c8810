import ScanPlatform.Base.CondMachine
import ScanPlatform.Base.Table

/-!
# Transactions of concurrent sessions

A transaction reads the database in single statements and ends in one atomic write or in an
error. Each statement sees what all sessions have committed by then.

* `Txn`, `query`, `check`, `raiseIf`: transactions, and how they are put together;
* `Ensures`: what a transaction ends with while the others keep to a relation; its rules are
  `ensures_bind`, `ensures_query`, `ensures_check`, `ensures_raiseIf`, `Ensures.mono`,
  `Ensures.and` and `Ensures.later`;
* `alone`, `exec`: a transaction while nobody else does anything;
* `Session`, `System`, `act`: the sessions in progress, and the steps that they take;
* `act_cases`, `next_of_commit`, `act_call`: what a step can do, what a commit does, and which calls
  are in progress after a step;
* `Bound`, **`Bound.act`**: what the sessions in progress are bound to end with is an invariant;
* `Sound`, **`Sound.act`**: that every session in progress keeps its promise is one.
-/

set_option autoImplicit false

namespace Sessions

/-! ## Transactions -/

/-- A result, an error, or a statement and what follows it. A statement is given an input of the
moment, such as the time, and the database. -/
inductive Txn (I D E α : Type) where
  | ok (result : α)
  | error (e : E)
  | read (next : I → D → Txn I D E α)

section

variable {I D E α β : Type}

def Txn.bind : Txn I D E α → (α → Txn I D E β) → Txn I D E β
  | .ok a, f => f a
  | .error e, _ => .error e
  | .read next, f => .read fun i d => (next i d).bind f

instance : Monad (Txn I D E) where
  pure := .ok
  bind := .bind

/-- What needs no statement. -/
def check : Except E α → Txn I D E α
  | .ok a => .ok a
  | .error e => .error e

/-- What makes a transaction fail. -/
def raiseIf (c : Prop) [Decidable c] (e : E) : Txn I D E Unit := if c then .error e else .ok ()

/-- One statement. -/
def query (q : I → D → Except E α) : Txn I D E α := .read fun i d => check (q i d)

/-! ## What a transaction ends with -/

/-- When the database satisfies `J` and changes between statements as `R` allows, the transaction
ends in an error or with `Q` of its result and of the database of its last statement. -/
def Txn.Ensures (R : D → D → Prop) (J : D → Prop) (Q : α → D → Prop) : Txn I D E α → D → Prop
  | .ok a, d => Q a d
  | .error _, _ => True
  | .read next, d => ∀ i d', R d d' → J d' → (next i d').Ensures R J Q d'

variable {R : D → D → Prop} {J : D → Prop} {Q Q' : α → D → Prop} {d d' : D}

@[simp] theorem ensures_pure {a : α} :
    (pure a : Txn I D E α).Ensures R J Q d ↔ Q a d := Iff.rfl

theorem ensures_bind {x : Txn I D E α} {f : α → Txn I D E β} {Q : β → D → Prop} :
    (x >>= f).Ensures R J Q d ↔ x.Ensures R J (fun a d => (f a).Ensures R J Q d) d := by
  induction x generalizing d with
  | ok a => exact Iff.rfl
  | error e => exact Iff.rfl
  | read next ih =>
    show (∀ i d', _ → _ → ((next i d').bind f).Ensures R J Q d') ↔ _
    exact forall₄_congr fun i d' _ _ => ih i d'

theorem ensures_check {x : Except E α} :
    (check x : Txn I D E α).Ensures R J Q d ↔ ∀ a, x = .ok a → Q a d := by
  cases x with
  | ok a => simp [check, Txn.Ensures]
  | error e => simp [check, Txn.Ensures]

theorem ensures_raiseIf {c : Prop} [Decidable c] {e : E} {Q : Unit → D → Prop} :
    (raiseIf c e : Txn I D E Unit).Ensures R J Q d ↔ (¬ c → Q () d) := by
  unfold raiseIf
  split_ifs with hc
  · exact iff_of_true trivial fun h => absurd hc h
  · exact ⟨fun h _ => h, fun h => h hc⟩

theorem ensures_query {q : I → D → Except E α} :
    (query q).Ensures R J Q d ↔ ∀ i d', R d d' → J d' → ∀ a, q i d' = .ok a → Q a d' :=
  forall₄_congr fun _ _ _ _ => ensures_check

/-- Less is ensured when the others may do less. -/
theorem Txn.Ensures.mono {R' : D → D → Prop} {J' : D → Prop} {x : Txn I D E α}
    (h : x.Ensures R J Q d) (hR : ∀ a b, R' a b → R a b) (hJ : ∀ a, J' a → J a)
    (hQ : ∀ a d, Q a d → Q' a d) : x.Ensures R' J' Q' d := by
  induction x generalizing d with
  | ok a => exact hQ a d h
  | error e => trivial
  | read next ih => exact fun i d' hRd hJd => ih i d' (h i d' (hR _ _ hRd) (hJ _ hJd))

theorem Txn.Ensures.and {x : Txn I D E α} (h : x.Ensures R J Q d) (h' : x.Ensures R J Q' d) :
    x.Ensures R J (fun a d => Q a d ∧ Q' a d) d := by
  induction x generalizing d with
  | ok a => exact ⟨h, h'⟩
  | error e => trivial
  | read next ih => exact fun i d' hR hJ => ih i d' (h i d' hR hJ) (h' i d' hR hJ)

/-- What a transaction ends with is not disturbed by the others. -/
theorem Txn.Ensures.later (htrans : ∀ a b c, R a b → R b c → R a c)
    (hQ : ∀ a d d', Q a d → R d d' → Q a d') {x : Txn I D E α} (h : x.Ensures R J Q d)
    (hR : R d d') : x.Ensures R J Q d' := by
  cases x with
  | ok a => exact hQ a d d' h hR
  | error e => trivial
  | read next => exact fun i d'' hR' hJ => h i d'' (htrans _ _ _ hR hR') hJ

/-! ## Alone -/

/-- What a transaction ends with when nobody else does anything. -/
def Txn.alone (i : I) (d : D) : Txn I D E α → Except E α
  | .ok a => .ok a
  | .error e => .error e
  | .read next => (next i d).alone i d

@[simp] theorem alone_pure {i : I} {a : α} : (pure a : Txn I D E α).alone i d = .ok a := rfl

@[simp] theorem alone_bind {i : I} {x : Txn I D E α} {f : α → Txn I D E β} :
    (x >>= f).alone i d = (x.alone i d).bind fun a => (f a).alone i d := by
  induction x with
  | ok a => rfl
  | error e => rfl
  | read next ih => exact ih i d

@[simp] theorem alone_check {i : I} {x : Except E α} :
    (check x : Txn I D E α).alone i d = x := by
  cases x <;> rfl

@[simp] theorem alone_query {i : I} {q : I → D → Except E α} : (query q).alone i d = q i d :=
  alone_check

@[simp] theorem alone_raiseIf {i : I} {c : Prop} [Decidable c] {e : E} :
    (raiseIf c e : Txn I D E Unit).alone i d = if c then .error e else .ok () := by
  unfold raiseIf
  split_ifs <;> rfl

/-- What a transaction ends with alone is what it ends with whatever the others do. -/
theorem Txn.Ensures.alone {x : Txn I D E α} (h : x.Ensures R J Q d) (hrefl : R d d) (hJ : J d)
    {i : I} {a : α} (ha : x.alone i d = .ok a) : Q a d := by
  induction x with
  | ok b =>
    cases ha
    exact h
  | error e => cases ha
  | read next ih => exact ih i d (h i d hrefl hJ) ha

end

/-! ## Sessions in progress -/

/-- What a transaction writes in the end, or how its commit fails. -/
abbrev Write (I D E : Type) := I → D → Except E D

/-- A transaction from its first statement to its commit, while nobody else does anything. -/
def exec {I D E : Type} (txn : Txn I D E (Write I D E)) (i : I) (d : D) : Except E D :=
  (txn.alone i d).bind fun write => write i d

/-- A call in progress. -/
structure Session (C I D E : Type) where
  call : C
  txn : Txn I D E (Write I D E)

structure System (C I D E : Type) where
  db : D
  sessions : Table ℕ (Session C I D E)

/-- A step of a session, or of someone else. -/
inductive Action (C I A : Type) where
  | call (n : ℕ) (c : C)
  | advance (n : ℕ) (i : I)
  | drop (n : ℕ)
  | other (a : A)

section

variable {C I D E A : Type}

/-- A session ends. -/
def System.finish (s : System C I D E) (n : ℕ) : Table ℕ (Session C I D E) :=
  Function.update s.sessions n none

/-- A session begins under a free number, executes a statement, commits, or is rolled back. -/
def act (prog : C → Txn I D E (Write I D E)) (other : A → D → Option D) :
    Action C I A → System C I D E → Option (System C I D E)
  | .call n c, s =>
    if (s.sessions n).isNone then some { s with sessions := s.sessions.set n ⟨c, prog c⟩ } else none
  | .advance n i, s =>
    (s.sessions n).map fun session =>
      match session.txn with
      | .read next => { s with sessions := s.sessions.set n ⟨session.call, next i s.db⟩ }
      | .ok write => { db := (write i s.db).toOption.getD s.db, sessions := s.finish n }
      | .error _ => { s with sessions := s.finish n }
  | .drop n, s => some { s with sessions := s.finish n }
  | .other a, s => (other a s.db).map fun db => { s with db }

variable {prog : C → Txn I D E (Write I D E)} {other : A → D → Option D} {a : Action C I A}
  {s s' : System C I D E}

/-- **What a step can do.** -/
theorem act_cases (h : act prog other a s = some s') :
    (∃ n c, a = .call n c ∧ s' = { s with sessions := s.sessions.set n ⟨c, prog c⟩ }) ∨
    (∃ n i c next, a = .advance n i ∧ s.sessions n = some ⟨c, .read next⟩ ∧
      s' = { s with sessions := s.sessions.set n ⟨c, next i s.db⟩ }) ∨
    (∃ n i c write db, a = .advance n i ∧ s.sessions n = some ⟨c, .ok write⟩ ∧
      write i s.db = .ok db ∧ s' = { db, sessions := s.finish n }) ∨
    (∃ n, s' = { s with sessions := s.finish n }) ∨
    ∃ e db, a = .other e ∧ other e s.db = some db ∧ s' = { s with db } := by
  cases a with
  | call n c =>
    simp only [act, Option.ite_none_right_eq_some, Option.some.injEq] at h
    exact .inl ⟨n, c, rfl, h.2.symm⟩
  | advance n i =>
    simp only [act, Option.map_eq_some_iff] at h
    obtain ⟨⟨c, txn⟩, hn, rfl⟩ := h
    cases txn with
    | read next => exact .inr (.inl ⟨n, i, c, next, rfl, hn, rfl⟩)
    | error e => exact .inr (.inr (.inr (.inl ⟨n, rfl⟩)))
    | ok write =>
      cases hw : write i s.db with
      | error e => exact .inr (.inr (.inr (.inl ⟨n, by simp [hw, Except.toOption]⟩)))
      | ok db =>
        exact .inr (.inr (.inl ⟨n, i, c, write, db, rfl, hn, hw, by simp [hw, Except.toOption]⟩))
  | drop n =>
    simp only [act, Option.some.injEq] at h
    exact .inr (.inr (.inr (.inl ⟨n, h.symm⟩)))
  | other e =>
    simp only [act, Option.map_eq_some_iff] at h
    obtain ⟨db, hdb, rfl⟩ := h
    exact .inr (.inr (.inr (.inr ⟨e, db, rfl, hdb, rfl⟩)))

/-- The commit of a session. -/
theorem next_of_commit {n : ℕ} {i : I} {c : C} {write : Write I D E} {db : D}
    (hn : s.sessions n = some ⟨c, .ok write⟩) (hw : write i s.db = .ok db) :
    (CondMachine.next (act prog other) s (.advance n i)).db = db := by
  simp [CondMachine.next, act, hn, hw, Except.toOption]

theorem System.finish_eq_some {n m : ℕ} {session : Session C I D E}
    (h : s.finish n m = some session) : m ≠ n ∧ s.sessions m = some session := by
  unfold System.finish at h
  by_cases hmn : m = n
  · rw [hmn, Function.update_self] at h
    exact absurd h (by simp)
  · rw [Function.update_of_ne hmn] at h
    exact ⟨hmn, h⟩

/-- A session in progress was so before with the same call, or its call has just begun. -/
theorem act_call (h : act prog other a s = some s') {m : ℕ} {session : Session C I D E}
    (hm : s'.sessions m = some session) :
    a = .call m session.call ∨
      ∃ txn, s.sessions m = some ⟨session.call, txn⟩ := by
  rcases act_cases h with ⟨n, c, rfl, rfl⟩ | ⟨n, i, c, next, -, hn, rfl⟩ |
    ⟨n, i, c, write, db, -, -, -, rfl⟩ | ⟨n, rfl⟩ | ⟨e, db, -, -, rfl⟩
  · simp only [Table.set_apply] at hm
    split_ifs at hm with hmn
    · cases hm
      exact .inl (by rw [hmn])
    · exact .inr ⟨session.txn, hm⟩
  · simp only [Table.set_apply] at hm
    split_ifs at hm with hmn
    · cases hm
      exact .inr ⟨_, hmn ▸ hn⟩
    · exact .inr ⟨session.txn, hm⟩
  · exact .inr ⟨session.txn, (System.finish_eq_some hm).2⟩
  · exact .inr ⟨session.txn, (System.finish_eq_some hm).2⟩
  · exact .inr ⟨session.txn, hm⟩

/-! ## What sessions are bound to end with -/

/-- Every session in progress ends in an error or in a write as `Q` says, when the others change
the database as its call relies on. -/
def Bound (R : C → D → D → Prop) (J : D → Prop) (Q : C → Write I D E → D → Prop)
    (s : System C I D E) : Prop :=
  ∀ n c txn, s.sessions n = some ⟨c, txn⟩ → txn.Ensures (R c) J (Q c) s.db

/-- **What the sessions are bound to end with is an invariant** when new calls are bound and a step
changes the database as the sessions that are still in progress rely on. -/
theorem Bound.act {R : C → D → D → Prop} {J : D → Prop} {Q : C → Write I D E → D → Prop}
    (hs : Bound R J Q s) (hJ : J s.db) (hrefl : ∀ c d, J d → R c d d)
    (htrans : ∀ c d₁ d₂ d₃, R c d₁ d₂ → R c d₂ d₃ → R c d₁ d₃)
    (hQ : ∀ c write d d', Q c write d → R c d d' → Q c write d')
    (hcall : ∀ n c, a = .call n c → (prog c).Ensures (R c) J (Q c) s.db)
    (hcommit : ∀ n i c write db, a = .advance n i → s.sessions n = some ⟨c, .ok write⟩ →
      write i s.db = .ok db → ∀ m session, m ≠ n → s.sessions m = some session →
        R session.call s.db db)
    (hother : ∀ e db, a = .other e → other e s.db = some db →
      ∀ m session, s.sessions m = some session → R session.call s.db db)
    (h : act prog other a s = some s') : Bound R J Q s' := by
  have later : ∀ (c : C) (txn : Txn I D E (Write I D E)) (d : D),
      txn.Ensures (R c) J (Q c) s.db → R c s.db d → txn.Ensures (R c) J (Q c) d := by
    intro c txn d hbound hR
    exact hbound.later (htrans c) (hQ c) hR
  rcases act_cases h with ⟨n, c, rfl, rfl⟩ | ⟨n, i, c, next, rfl, hn, rfl⟩ |
    ⟨n, i, c, write, db, rfl, hn, hw, rfl⟩ | ⟨n, rfl⟩ | ⟨e, db, rfl, he, rfl⟩
  · intro m c' txn hm
    simp only [Table.set_apply] at hm
    split_ifs at hm with hmn
    · cases hm
      exact hcall n c rfl
    · exact hs m c' txn hm
  · intro m c' txn hm
    simp only [Table.set_apply] at hm
    split_ifs at hm with hmn
    · cases hm
      exact hs n c _ hn i s.db (hrefl _ _ hJ) hJ
    · exact hs m c' txn hm
  · intro m c' txn hm
    obtain ⟨hmn, hm⟩ := System.finish_eq_some hm
    exact later c' txn db (hs m c' txn hm) (hcommit n i c write db rfl hn hw m _ hmn hm)
  · intro m c' txn hm
    exact hs m c' txn (System.finish_eq_some hm).2
  · intro m c' txn hm
    exact later c' txn db (hs m c' txn hm) (hother e db rfl he m _ hm)

/-! ## Promises -/

/-- Whenever a write is carried out, it changes the database as `G` says. -/
def Commits (R : D → D → Prop) (J : D → Prop) (G : I → D → D → Prop) (write : Write I D E)
    (d : D) : Prop :=
  ∀ i d' d'', R d d' → J d' → write i d' = .ok d'' → G i d' d''

/-- Whatever the others do, the transaction changes the database as `G` says, if at all. -/
def Safe (R : D → D → Prop) (J : D → Prop) (G : I → D → D → Prop) (txn : Txn I D E (Write I D E))
    (d : D) : Prop :=
  txn.Ensures R J (Commits R J G) d

/-- Every session in progress keeps its promise: the call `c` relies on `R c` and changes the
database as `G c` says. -/
structure Sound (R : C → D → D → Prop) (J : D → Prop) (G : C → I → D → D → Prop)
    (s : System C I D E) : Prop where
  inv : J s.db
  safe : ∀ n c txn, s.sessions n = some ⟨c, txn⟩ → Safe (R c) J (G c) txn s.db

variable {R : C → D → D → Prop} {J : D → Prop} {G : C → I → D → D → Prop}

theorem Commits.later {R : D → D → Prop} {G : I → D → D → Prop} {write : Write I D E} {d d' : D}
    (h : Commits R J G write d) (htrans : ∀ a b c, R a b → R b c → R a c) (hR : R d d') :
    Commits R J G write d' :=
  fun i d₁ d₂ hR' hJ hw => h i d₁ d₂ (htrans _ _ _ hR hR') hJ hw

/-- A commit changes the database as its session has promised. -/
theorem Sound.commit (hs : Sound R J G s) (hrefl : ∀ c d, J d → R c d d) {n : ℕ} {i : I} {c : C}
    {write : Write I D E} {db : D} (hn : s.sessions n = some ⟨c, .ok write⟩)
    (hw : write i s.db = .ok db) : G c i s.db db :=
  hs.safe n c _ hn i s.db db (hrefl _ _ hs.inv) hs.inv hw

/-- **The promises are an invariant** when what a session and the others may do to the database is
what every other session relies on. -/
theorem Sound.act (hs : Sound R J G s) (hrefl : ∀ c d, J d → R c d d)
    (htrans : ∀ c d₁ d₂ d₃, R c d₁ d₂ → R c d₂ d₃ → R c d₁ d₃)
    (hcall : ∀ n c, a = .call n c → Safe (R c) J (G c) (prog c) s.db)
    (hcommit : ∀ n i c write db, a = .advance n i → s.sessions n = some ⟨c, .ok write⟩ →
      write i s.db = .ok db → G c i s.db db → J db ∧ ∀ m session, m ≠ n →
        s.sessions m = some session → R session.call s.db db)
    (hother : ∀ e db, a = .other e → other e s.db = some db →
      J db ∧ ∀ m session, s.sessions m = some session → R session.call s.db db)
    (h : act prog other a s = some s') : Sound R J G s' := by
  have hbound : Bound R J (fun c write d => Commits (R c) J (G c) write d) s' :=
    Bound.act hs.safe hs.inv hrefl htrans (fun c _ _ _ hwrite hR => hwrite.later (htrans c) hR)
      hcall
      (fun n i c write db ha hn hw =>
        (hcommit n i c write db ha hn hw (hs.commit hrefl hn hw)).2)
      (fun e db ha he => (hother e db ha he).2) h
  refine ⟨?_, hbound⟩
  rcases act_cases h with ⟨n, c, -, rfl⟩ | ⟨n, i, c, next, -, -, rfl⟩ |
    ⟨n, i, c, write, db, ha, hn, hw, rfl⟩ | ⟨n, rfl⟩ | ⟨e, db, ha, he, rfl⟩
  · exact hs.inv
  · exact hs.inv
  · exact (hcommit n i c write db ha hn hw (hs.commit hrefl hn hw)).1
  · exact hs.inv
  · exact (hother e db ha he).1

end

end Sessions

import ScanPlatform.Base.CondMachine
import ScanPlatform.Base.Table

/-!
# Transactions under row locks

Sessions at READ COMMITTED: a statement sees what all sessions have committed by then and what its
own session has written. A locking read takes the lock of a row until the session commits or is
rolled back, and waits while another session holds it.

* `Txn`, `query`, `check`, `raiseIf`, `lockRow`, `write`, `commit`: transactions, and how they are
  put together;
* `Session`, `System`, `act`: the sessions in progress with the holders of the locks, and the steps
  that they take;
* `Protocol`, `Allowed`: how the database may change while the parts that some locks protect stay;
* `Ensures`, `Safe`: what a session ends with while the others leave alone what it has locked, and
  that it changes nothing else; the rules are `ensures_bind`, `ensures_query`, `ensures_lockRow`,
  `ensures_write`, `ensures_commit` and their like;
* `ReadOnly`: transactions that only read, with `ReadOnly.bind`, `ReadOnly.safe_bind`;
* `Sound`, **`Sound.act`**, **`run_inv`**: when every call is safe, the invariant holds in every
  run.
-/

set_option autoImplicit false

namespace RowLocks

open CondMachine

/-! ## Transactions -/

/-- A result, an error, or a statement and what follows it. A `lock` reads too. The change that a
`write` makes depends on the database at the time of the statement; it is made at the next `commit`,
which may fail. -/
inductive Txn (K D E α : Type) where
  | ok (result : α)
  | error (e : E)
  | read (next : D → Txn K D E α)
  | lock (key : K) (next : D → Txn K D E α)
  | write (change : D → D → Option D) (next : Txn K D E α)
  | commit (next : Txn K D E α)

section

variable {K D E α β : Type}

def Txn.bind : Txn K D E α → (α → Txn K D E β) → Txn K D E β
  | .ok a, f => f a
  | .error e, _ => .error e
  | .read next, f => .read fun d => (next d).bind f
  | .lock k next, f => .lock k fun d => (next d).bind f
  | .write change next, f => .write change (next.bind f)
  | .commit next, f => .commit (next.bind f)

instance : Monad (Txn K D E) where
  pure := .ok
  bind := .bind

/-- Another error in the place of an error. -/
def Txn.mapError (f : E → E) : Txn K D E α → Txn K D E α
  | .ok a => .ok a
  | .error e => .error (f e)
  | .read next => .read fun d => (next d).mapError f
  | .lock k next => .lock k fun d => (next d).mapError f
  | .write change next => .write change (next.mapError f)
  | .commit next => .commit (next.mapError f)

/-- What needs no statement. -/
def check : Except E α → Txn K D E α
  | .ok a => .ok a
  | .error e => .error e

def raiseIf (c : Prop) [Decidable c] (e : E) : Txn K D E Unit := if c then .error e else .ok ()

/-- A plain read. -/
def query (q : D → Except E α) : Txn K D E α := .read fun d => check (q d)

/-- A locking read. -/
def lockRow (k : K) (q : D → α) : Txn K D E α := .lock k fun d => .ok (q d)

def write (change : D → D → Option D) : Txn K D E Unit := .write change (.ok ())

def commit : Txn K D E Unit := .commit (.ok ())

end

/-! ## Sessions in progress -/

/-- A call in progress, with what it has written since its last commit. -/
structure Session (C K D E α : Type) where
  call : C
  txn : Txn K D E α
  pending : D → Option D

/-- The locks that a session holds and what it has written. -/
structure Context (K D : Type) where
  holds : K → Prop
  pending : D → Option D

section

variable {C K D E A α β P : Type}

/-- The database as the session sees it. -/
def Context.view (c : Context K D) (d : D) : D := (c.pending d).getD d

/-- A session at the beginning of a transaction. -/
def Context.fresh : Context K D := ⟨fun _ => False, some⟩

def Context.take (c : Context K D) (k : K) : Context K D :=
  { c with holds := fun j => j = k ∨ c.holds j }

def Context.write (c : Context K D) (change : D → Option D) : Context K D :=
  { c with pending := fun d => (c.pending d).bind change }

variable [DecidableEq K]

structure System (C K D E α : Type) where
  db : D
  sessions : Table ℕ (Session C K D E α)
  /-- The session that holds the lock of a row. -/
  holders : Table K ℕ

/-- The context of a session. -/
def System.context (s : System C K D E α) (n : ℕ) (session : Session C K D E α) : Context K D :=
  ⟨fun k => s.holders k = some n, session.pending⟩

/-- The locks of a session are released. -/
def System.release (s : System C K D E α) (n : ℕ) : Table K ℕ :=
  fun k => (s.holders k).filter (· ≠ n)

/-- A session ends. -/
def System.finish (s : System C K D E α) (n : ℕ) : System C K D E α :=
  { s with sessions := Function.update s.sessions n none, holders := s.release n }

/-- A step of a session, or of someone else. -/
inductive Action (C A : Type) where
  | call (n : ℕ) (c : C)
  | advance (n : ℕ)
  | drop (n : ℕ)
  | other (a : A)

/-- A session begins under a free number, executes a statement, or is rolled back. A row can be
locked when it is `present`. -/
def act (prog : C → Txn K D E α) (present : K → D → Bool) (other : A → D → Option D) :
    Action C A → System C K D E α → Option (System C K D E α)
  | .call n c, s =>
    if (s.sessions n).isNone then
      some { s with sessions := s.sessions.set n ⟨c, prog c, some⟩ }
    else none
  | .advance n, s =>
    (s.sessions n).bind fun session =>
      let view := (s.context n session).view s.db
      let goOn (txn : Txn K D E α) := s.sessions.set n { session with txn }
      match session.txn with
      | .ok _ | .error _ => some (s.finish n)
      | .read next => some { s with sessions := goOn (next view) }
      | .lock k next =>
        if (s.holders k).all (· = n) then
          some { s with
            sessions := goOn (next view)
            holders := if present k s.db then s.holders.set k n else s.holders }
        else none
      | .write change next =>
        let pending := ((s.context n session).write (change view)).pending
        some { s with sessions := s.sessions.set n ⟨session.call, next, pending⟩ }
      | .commit next =>
        match session.pending s.db with
        | none => some (s.finish n)
        | some db => some {
            db
            sessions := s.sessions.set n ⟨session.call, next, some⟩
            holders := s.release n }
  | .drop n, s => some (s.finish n)
  | .other a, s => (other a s.db).map fun db => { s with db }

end

/-! ## What the sessions keep to -/

/-- What every change of the database keeps to: it is as `rel` says and leads to a database that
satisfies `inv`; and who changes the `part` of a row has locked the row. -/
structure Protocol (K D P : Type) where
  present : K → D → Bool
  rel : D → D → Prop
  inv : D → Prop
  part : K → D → P
  rel_refl : ∀ d, rel d d
  rel_trans : ∀ d₁ d₂ d₃, rel d₁ d₂ → rel d₂ d₃ → rel d₁ d₃

section

variable {C K D E A α β P : Type}

/-- The database changes and the parts that `keep` names stay. -/
structure Protocol.Allowed (p : Protocol K D P) (keep : K → Prop) (d d' : D) : Prop where
  rel : p.rel d d'
  inv : p.inv d'
  part : ∀ k, keep k → p.part k d' = p.part k d

variable {p : Protocol K D P} {keep keep' : K → Prop} {d d' d'' : D}

theorem Protocol.Allowed.refl (h : p.inv d) : p.Allowed keep d d :=
  ⟨p.rel_refl d, h, fun _ _ => rfl⟩

theorem Protocol.Allowed.trans (h : p.Allowed keep d d') (h' : p.Allowed keep d' d'') :
    p.Allowed keep d d'' where
  rel := p.rel_trans _ _ _ h.rel h'.rel
  inv := h'.inv
  part k hk := (h'.part k hk).trans (h.part k hk)

theorem Protocol.Allowed.mono (h : p.Allowed keep d d') (hkeep : ∀ k, keep' k → keep k) :
    p.Allowed keep' d d' :=
  ⟨h.rel, h.inv, fun k hk => h.part k (hkeep k hk)⟩

variable (p) in
/-- While the others leave the parts alone that the session has locked, the session ends in an error
or with `Q`, and its commits change no other parts. -/
def Txn.Ensures : Txn K D E α → Context K D → (α → Context K D → D → Prop) → D → Prop
  | .ok a, c, Q, d => Q a c d
  | .error _, _, _, _ => True
  | .read next, c, Q, d => ∀ d', p.Allowed c.holds d d' → (next (c.view d')).Ensures c Q d'
  | .lock k next, c, Q, d => ∀ d', p.Allowed c.holds d d' →
    (next (c.view d')).Ensures (if p.present k d' then c.take k else c) Q d'
  | .write change next, c, Q, d => ∀ d', p.Allowed c.holds d d' →
    next.Ensures (c.write (change (c.view d'))) Q d'
  | .commit next, c, Q, d => ∀ d', p.Allowed c.holds d d' → ∀ d'', c.pending d' = some d'' →
    p.Allowed (fun k => ¬ c.holds k) d' d'' ∧ next.Ensures .fresh Q d''

variable (p) in
/-- The session keeps to the protocol, whatever it ends with. -/
def Txn.Safe (x : Txn K D E α) (c : Context K D) (d : D) : Prop :=
  x.Ensures p c (fun _ _ _ => True) d

variable {c : Context K D} {x : Txn K D E α} {Q : α → Context K D → D → Prop}

@[simp] theorem ensures_pure {a : α} : (pure a : Txn K D E α).Ensures p c Q d ↔ Q a c d := Iff.rfl

theorem ensures_bind {f : α → Txn K D E β} {Q : β → Context K D → D → Prop} :
    (x >>= f).Ensures p c Q d ↔ x.Ensures p c (fun a c d => (f a).Ensures p c Q d) d := by
  induction x generalizing c d with
  | ok a => exact Iff.rfl
  | error e => exact Iff.rfl
  | read next ih => exact forall₂_congr fun d' _ => ih _
  | lock k next ih => exact forall₂_congr fun d' _ => ih _
  | write change next ih => exact forall₂_congr fun d' _ => ih
  | commit next ih => exact forall₄_congr fun d' _ d'' _ => and_congr_right fun _ => ih

theorem ensures_check {e : Except E α} :
    (check e : Txn K D E α).Ensures p c Q d ↔ ∀ a, e = .ok a → Q a c d := by
  cases e with
  | ok a => simp [check, Txn.Ensures]
  | error e => simp [check, Txn.Ensures]

theorem ensures_raiseIf {b : Prop} [Decidable b] {e : E} {Q : Unit → Context K D → D → Prop} :
    (raiseIf b e : Txn K D E Unit).Ensures p c Q d ↔ (¬ b → Q () c d) := by
  unfold raiseIf
  split_ifs with hb
  · exact iff_of_true trivial fun h => absurd hb h
  · exact ⟨fun h _ => h, fun h => h hb⟩

theorem ensures_query {q : D → Except E α} : (query q : Txn K D E α).Ensures p c Q d ↔
    ∀ d', p.Allowed c.holds d d' → ∀ a, q (c.view d') = .ok a → Q a c d' :=
  forall₂_congr fun _ _ => ensures_check

theorem ensures_lockRow {k : K} {q : D → α} : (lockRow k q : Txn K D E α).Ensures p c Q d ↔
    ∀ d', p.Allowed c.holds d d' →
      Q (q (c.view d')) (if p.present k d' then c.take k else c) d' := Iff.rfl

theorem ensures_write {change : D → D → Option D} {Q : Unit → Context K D → D → Prop} :
    (write change : Txn K D E Unit).Ensures p c Q d ↔
      ∀ d', p.Allowed c.holds d d' → Q () (c.write (change (c.view d'))) d' := Iff.rfl

theorem ensures_commit {Q : Unit → Context K D → D → Prop} :
    (commit : Txn K D E Unit).Ensures p c Q d ↔ ∀ d', p.Allowed c.holds d d' →
      ∀ d'', c.pending d' = some d'' →
        p.Allowed (fun k => ¬ c.holds k) d' d'' ∧ Q () .fresh d'' := Iff.rfl

theorem Txn.Ensures.mono {Q' : α → Context K D → D → Prop} (h : x.Ensures p c Q d)
    (hQ : ∀ a c d, Q a c d → Q' a c d) : x.Ensures p c Q' d := by
  induction x generalizing c d with
  | ok a => exact hQ a c d h
  | error e => trivial
  | read next ih => exact fun d' hd => ih _ (h d' hd)
  | lock k next ih => exact fun d' hd => ih _ (h d' hd)
  | write change next ih => exact fun d' hd => ih (h d' hd)
  | commit next ih => exact fun d' hd d'' hd' => (h d' hd d'' hd').imp_right ih

/-- A session that keeps to the protocol is not disturbed by the others. -/
theorem Txn.Safe.later (h : x.Safe p c d) (hd : p.Allowed c.holds d d') : x.Safe p c d' := by
  cases x with
  | ok a => trivial
  | error e => trivial
  | read next => exact fun d'' hd' => h d'' (hd.trans hd')
  | lock k next => exact fun d'' hd' => h d'' (hd.trans hd')
  | write change next => exact fun d'' hd' => h d'' (hd.trans hd')
  | commit next => exact fun d'' hd' => h d'' (hd.trans hd')

/-! ## Transactions that only read -/

/-- No lock is taken and nothing is written. -/
def Txn.ReadOnly : Txn K D E α → Prop
  | .ok _ | .error _ => True
  | .read next => ∀ d, (next d).ReadOnly
  | .lock .. | .write .. | .commit _ => False

@[simp] theorem readOnly_pure {a : α} : (pure a : Txn K D E α).ReadOnly := trivial

@[simp] theorem readOnly_check {e : Except E α} : (check e : Txn K D E α).ReadOnly := by
  cases e <;> trivial

@[simp] theorem readOnly_raiseIf {b : Prop} [Decidable b] {e : E} :
    (raiseIf b e : Txn K D E Unit).ReadOnly := by
  unfold raiseIf
  split_ifs <;> trivial

@[simp] theorem readOnly_query {q : D → Except E α} : (query q : Txn K D E α).ReadOnly :=
  fun _ => readOnly_check

theorem Txn.ReadOnly.bind {f : α → Txn K D E β} (hx : x.ReadOnly) (hf : ∀ a, (f a).ReadOnly) :
    (x >>= f).ReadOnly := by
  induction x with
  | ok a => exact hf a
  | error e => trivial
  | read next ih => exact fun d => ih d (hx d)
  | lock k next => exact hx.elim
  | write change next => exact hx.elim
  | commit next => exact hx.elim

theorem Txn.ReadOnly.mapError {f : E → E} (hx : x.ReadOnly) : (x.mapError f).ReadOnly := by
  induction x with
  | ok a => trivial
  | error e => trivial
  | read next ih => exact fun d => ih d (hx d)
  | lock k next => exact hx.elim
  | write change next => exact hx.elim
  | commit next => exact hx.elim

/-- Reading changes nothing of a session, and leaves the database to the others. -/
theorem Txn.ReadOnly.ensures (hx : x.ReadOnly) (hd : p.inv d) :
    x.Ensures p c (fun _ c' d' => c' = c ∧ p.Allowed c.holds d d') d := by
  induction x generalizing d with
  | ok a => exact ⟨rfl, .refl hd⟩
  | error e => trivial
  | read next ih =>
    exact fun d' hd' => (ih _ (hx _) hd'.inv).mono fun _ _ _ h => ⟨h.1, hd'.trans h.2⟩
  | lock k next => exact hx.elim
  | write change next => exact hx.elim
  | commit next => exact hx.elim

/-- A session that reads before it goes on. -/
theorem Txn.ReadOnly.safe_bind {f : α → Txn K D E β} (hx : x.ReadOnly) (hd : p.inv d)
    (hf : ∀ a d', p.Allowed c.holds d d' → (f a).Safe p c d') : (x >>= f).Safe p c d := by
  refine ensures_bind.mpr ((hx.ensures hd).mono fun a c' d' h => ?_)
  obtain ⟨rfl, hd'⟩ := h
  exact hf a d' hd'

/-! ## All sessions together -/

variable (p) in
/-- The invariant holds, only sessions in progress hold locks, and every session in progress keeps
to the protocol. -/
structure Sound (s : System C K D E α) : Prop where
  inv : p.inv s.db
  held : ∀ k n, s.holders k = some n → (s.sessions n).isSome
  safe : ∀ n session, s.sessions n = some session →
    session.txn.Safe p (s.context n session) s.db

theorem release_eq_some {s : System C K D E α} {n m : ℕ} {k : K} :
    s.release n k = some m ↔ s.holders k = some m ∧ m ≠ n := by
  simp [System.release, Option.filter_eq_some_iff]

/-- A session stops, or goes on with other locks and another database, in which it has changed no
parts but those that it had locked. -/
theorem Sound.update {s : System C K D E α} (hs : Sound p s) {n : ℕ} {db : D}
    {session : Option (Session C K D E α)} {holders : Table K ℕ}
    (hdb : p.Allowed (fun k => s.holders k ≠ some n) s.db db)
    (hothers : ∀ m, m ≠ n → ∀ k, holders k = some m ↔ s.holders k = some m)
    (hheld : ∀ k, holders k = some n → session.isSome)
    (hsafe : ∀ x ∈ session, x.txn.Safe p ⟨fun k => holders k = some n, x.pending⟩ db) :
    Sound p ⟨db, Function.update s.sessions n session, holders⟩ where
  inv := hdb.inv
  held k m hk := by
    show (Function.update s.sessions n session m).isSome
    by_cases hmn : m = n
    · subst hmn
      rw [Function.update_self]
      exact hheld k hk
    · rw [Function.update_of_ne hmn]
      exact hs.held k m ((hothers m hmn k).mp hk)
  safe m x hm := by
    have hm : Function.update s.sessions n session m = some x := hm
    by_cases hmn : m = n
    · subst hmn
      rw [Function.update_self] at hm
      exact hsafe x hm
    · rw [Function.update_of_ne hmn] at hm
      have hcontext : System.context ⟨db, Function.update s.sessions n session, holders⟩ m x =
          s.context m x := by
        unfold System.context
        congr 1
        funext k
        exact propext (hothers m hmn k)
      rw [hcontext]
      refine (hs.safe m x hm).later (hdb.mono fun k hk hn => ?_)
      have hsame : some m = some n := hk.symm.trans hn
      exact hmn (Option.some.inj hsame)

theorem Sound.finish {s : System C K D E α} (hs : Sound p s) (n : ℕ) : Sound p (s.finish n) :=
  hs.update (.refl hs.inv) (fun m hmn k => by simp [release_eq_some, hmn])
    (fun k hk => absurd rfl (release_eq_some.mp hk).2) fun x hx => by cases hx

/-- A session goes on with the locks that it has. -/
theorem Sound.goOn {s : System C K D E α} (hs : Sound p s) {n : ℕ} {session : Session C K D E α}
    (hsafe : session.txn.Safe p (s.context n session) s.db) :
    Sound p { s with sessions := s.sessions.set n session } :=
  hs.update (.refl hs.inv) (fun _ _ _ => Iff.rfl) (fun _ _ => rfl) fun x hx => by
    cases hx
    exact hsafe

/-- A session that begins holds no lock. -/
theorem Sound.holds_of_free {s : System C K D E α} (hs : Sound p s) {n : ℕ}
    (hfree : (s.sessions n).isNone) :
    (fun k => s.holders k = some n) = fun _ => False := by
  funext k
  refine eq_false fun hk => ?_
  have hsome := hs.held k n hk
  rw [Option.isNone_iff_eq_none.mp hfree] at hsome
  cases hsome

variable [DecidableEq K] {prog : C → Txn K D E α} {other : A → D → Option D}
  {s s' : System C K D E α} {a : Action C A}

omit [DecidableEq K] in
/-- A session that ends its transaction has changed no parts but those that it had locked, and
holds no lock any more. -/
theorem Sound.commit (hs : Sound p s) {n : ℕ} {db : D} {session : Session C K D E α}
    (hdb : p.Allowed (fun k => s.holders k ≠ some n) s.db db)
    (hsafe : session.txn.Safe p ⟨fun _ => False, session.pending⟩ db) :
    Sound p ⟨db, Function.update s.sessions n (some session), s.release n⟩ := by
  refine hs.update hdb (fun m hmn k => by simp [release_eq_some, hmn]) (fun _ _ => rfl)
    fun x hx => ?_
  cases hx
  have hholds : (fun k => s.release n k = some n) = fun _ => False := by
    funext k
    simp [release_eq_some]
  rw [hholds]
  exact hsafe

/-- A session takes a lock that is free, or that it has. -/
theorem Sound.take (hs : Sound p s) {n : ℕ} {k : K} {session : Session C K D E α}
    (hfree : ∀ m ∈ s.holders k, m = n)
    (hsafe : session.txn.Safe p ⟨fun j => j = k ∨ s.holders j = some n, session.pending⟩ s.db) :
    Sound p ⟨s.db, Function.update s.sessions n (some session), s.holders.set k n⟩ := by
  refine hs.update (.refl hs.inv) (fun m hmn j => ?_) (fun _ _ => rfl) fun x hx => ?_
  · rw [Table.set_apply]
    split_ifs with hj
    · subst hj
      exact iff_of_false (fun h => hmn (Option.some.inj h).symm) fun h => hmn (hfree m h)
    · exact Iff.rfl
  · cases hx
    have hholds : (fun j => s.holders.set k n j = some n) =
        fun j => j = k ∨ s.holders j = some n := by
      funext j
      rw [Table.set_apply]
      split_ifs with hj
      · simp [hj]
      · simp [hj]
    rw [hholds]
    exact hsafe

/-- A step of a session. -/
theorem Sound.advance (hs : Sound p s) {n : ℕ} {session : Session C K D E α}
    (hn : s.sessions n = some session)
    (h : act prog p.present other (.advance n) s = some s') : Sound p s' := by
  obtain ⟨call, txn, pending⟩ := session
  have hsafe := hs.safe n _ hn
  have hrefl : p.Allowed (s.context n ⟨call, txn, pending⟩).holds s.db s.db := .refl hs.inv
  simp only [act, hn, Option.bind_some] at h
  cases txn with
  | ok a =>
    cases h
    exact hs.finish n
  | error e =>
    cases h
    exact hs.finish n
  | read next =>
    cases h
    exact hs.goOn (hsafe s.db hrefl)
  | lock k next =>
    obtain ⟨hfree, rfl⟩ := guarded_eq_some.mp h
    have hnext := hsafe s.db hrefl
    split_ifs at hnext ⊢ with hpresent
    · exact hs.take (fun m hm => by simpa [Option.mem_def.mp hm] using hfree) hnext
    · exact hs.goOn hnext
  | write change next =>
    cases h
    exact hs.goOn (hsafe s.db hrefl)
  | commit next =>
    cases hpending : pending s.db with
    | none =>
      simp only [hpending] at h
      cases h
      exact hs.finish n
    | some db =>
      simp only [hpending] at h
      cases h
      obtain ⟨hdb, hnext⟩ := hsafe s.db hrefl db hpending
      exact hs.commit hdb hnext

/-- **The step lemma.** Sessions stay sound when every call keeps to the protocol, and the others
leave every part alone. -/
theorem Sound.act (hs : Sound p s) (hcall : ∀ c d, p.inv d → (prog c).Safe p .fresh d)
    (hother : ∀ e d d', p.inv d → other e d = some d' → p.Allowed (fun _ => True) d d')
    (h : act prog p.present other a s = some s') : Sound p s' := by
  cases a with
  | call n c =>
    obtain ⟨hfree, rfl⟩ := guarded_eq_some.mp h
    refine hs.goOn ?_
    unfold System.context
    rw [hs.holds_of_free hfree]
    exact hcall c s.db hs.inv
  | advance n =>
    obtain ⟨session, hn, -⟩ := Option.bind_eq_some_iff.mp h
    exact hs.advance hn h
  | drop n =>
    cases h
    exact hs.finish n
  | other e =>
    obtain ⟨db, hdb, rfl⟩ := Option.map_eq_some_iff.mp h
    have hallowed := hother e s.db db hs.inv hdb
    exact ⟨hallowed.inv, hs.held, fun n session hn =>
      (hs.safe n session hn).later (hallowed.mono fun _ _ => trivial)⟩

/-- **The invariant holds in every run** from a state without sessions. -/
theorem run_inv {d : D} (hd : p.inv d) (hcall : ∀ c d, p.inv d → (prog c).Safe p .fresh d)
    (hother : ∀ e d d', p.inv d → other e d = some d' → p.Allowed (fun _ => True) d d')
    (σ : List (Action C A)) :
    p.inv (run (act prog p.present other) ⟨d, fun _ => none, fun _ => none⟩ σ).db := by
  have hstep : ∀ (s : System C K D E α) (a : Action C A) (s' : System C K D E α),
      Sound p s → act prog p.present other a s = some s' → Sound p s' :=
    fun _ _ _ hs h => hs.act hcall hother h
  have hstart : Sound p (⟨d, fun _ => none, fun _ => none⟩ : System C K D E α) :=
    ⟨hd, fun k n hk => (by cases hk), fun n session hn => (by cases hn)⟩
  exact (run_invariant hstep hstart σ).inv

end

end RowLocks

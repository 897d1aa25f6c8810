import ScanPlatform.Base.CondMachine
import ScanPlatform.Base.Lineage
import ScanPlatform.Base.Rows
import ScanPlatform.Base.Table
import ScanPlatform.Base.Uuid

/-!
# Refresh tokens

Any number of logins, rotations and logouts at READ COMMITTED. Each call reads in single statements,
and what it writes is there at its commit. Rotations are recorded with the token that was presented
and the one that was minted.

* `RefreshToken`, `TokenDb`: the rows, and what has been done to them;
* `TokenDb.insert`, `TokenDb.rotate`, `TokenDb.revoke`: what is committed;
* `Walk`, `Walk.visit`: the walk over the tokens that replaced a token;
* `TokenSystem`, `tokenStep`: the calls in progress, and the steps that they take;
* **`tokenStep_cases`**: what a step can do to the rows.
-/

set_option autoImplicit false

namespace ScanPlatform

open Lineage

/-! ## Rows -/

/-- A row of `refresh_tokens`. -/
structure RefreshToken where
  id : Uuid
  userId : Uuid
  tokenHash : String
  expiresAt : ℤ
  revokedAt : Option ℤ
  replacedById : Option Uuid

/-- The tokens, no two with one identifier or one hash, with the statuses of the users, the
rotations so far, and the tokens whose reuse has been dealt with. -/
structure TokenDb where
  userStatus : Uuid → Option String
  tokens : List RefreshToken
  rotations : List (Uuid × Uuid)
  reused : List Uuid
  ids : (tokens.map RefreshToken.id).Nodup
  hashes : (tokens.map RefreshToken.tokenHash).Nodup

/-- A token as it is minted. -/
structure NewToken where
  id : Uuid
  userId : Uuid
  tokenHash : String
  expiresAt : ℤ

def NewToken.row (t : NewToken) : RefreshToken :=
  ⟨t.id, t.userId, t.tokenHash, t.expiresAt, none, none⟩

namespace TokenDb

/-- No tokens yet. -/
def init (userStatus : Uuid → Option String) : TokenDb :=
  ⟨userStatus, [], [], [], List.nodup_nil, List.nodup_nil⟩

def byHash (d : TokenDb) (hash : String) : Option RefreshToken :=
  Rows.row RefreshToken.tokenHash d.tokens hash

def byId (d : TokenDb) (id : Uuid) : Option RefreshToken := Rows.row RefreshToken.id d.tokens id

/-- An insertion fails when the identifier or the hash is there already. -/
def insert (d : TokenDb) (t : NewToken) : Option TokenDb :=
  if h : ∀ r ∈ d.tokens, r.id ≠ t.id ∧ r.tokenHash ≠ t.tokenHash then
    some { d with
      tokens := d.tokens ++ [t.row]
      ids := by
        rw [List.map_append, List.map_singleton]
        refine List.nodup_append.mpr ⟨d.ids, List.nodup_singleton _, fun i hi j hj heq => ?_⟩
        obtain ⟨r, hr, rfl⟩ := List.mem_map.mp hi
        exact (h r hr).1 (heq.trans (List.mem_singleton.mp hj))
      hashes := by
        rw [List.map_append, List.map_singleton]
        refine List.nodup_append.mpr ⟨d.hashes, List.nodup_singleton _, fun i hi j hj heq => ?_⟩
        obtain ⟨r, hr, rfl⟩ := List.mem_map.mp hi
        exact (h r hr).2 (heq.trans (List.mem_singleton.mp hj)) }
  else none

/-- An update by primary key of what happened to some tokens. -/
def stamp (d : TokenDb) (ids : List Uuid) (f : RefreshToken → RefreshToken)
    (hid : ∀ t, (f t).id = t.id) (hhash : ∀ t, (f t).tokenHash = t.tokenHash) : TokenDb :=
  { d with
    tokens := d.tokens.map fun t => if ids.contains t.id then f t else t
    ids := by
      have hcomp : (d.tokens.map fun t => if ids.contains t.id then f t else t).map
          RefreshToken.id = d.tokens.map RefreshToken.id := by
        rw [List.map_map]
        refine List.map_congr_left fun t _ => ?_
        simp only [Function.comp_apply]
        split_ifs
        · exact hid t
        · rfl
      rw [hcomp]
      exact d.ids
    hashes := by
      have hcomp : (d.tokens.map fun t => if ids.contains t.id then f t else t).map
          RefreshToken.tokenHash = d.tokens.map RefreshToken.tokenHash := by
        rw [List.map_map]
        refine List.map_congr_left fun t _ => ?_
        simp only [Function.comp_apply]
        split_ifs
        · exact hhash t
        · rfl
      rw [hcomp]
      exact d.hashes }

/-- The tokens are revoked; the commit fails when one of the rows is gone. -/
def revoke (d : TokenDb) (ids : List Uuid) (now : ℤ) : Option TokenDb :=
  if ids.all fun i => (d.byId i).isSome then
    some (d.stamp ids (fun t => { t with revokedAt := some now }) (fun _ => rfl) fun _ => rfl)
  else none

/-- A token is replaced by a new one. -/
def rotate (d : TokenDb) (id : Uuid) (t : NewToken) (now : ℤ) : Option TokenDb :=
  if (d.byId id).isSome then
    (d.insert t).map fun d' =>
      { d'.stamp [id] (fun r => { r with revokedAt := some now, replacedById := some t.id })
          (fun _ => rfl) fun _ => rfl with rotations := d.rotations ++ [(id, t.id)] }
  else none

end TokenDb

/-! ## Calls in progress -/

/-- `_MAX_FAMILY_HOPS`. -/
def maxFamilyHops : ℕ := 100

/-- The loop of `_revoke_token_family` for a token that was presented: the tokens that it has seen,
those that it is to revoke, the turns that are left and the token that it loads next. -/
structure Walk where
  token : Uuid
  rotated : Bool
  now : ℤ
  seen : List Uuid
  revoking : List Uuid
  hops : ℕ
  next : Option Uuid

/-- A turn of the loop. -/
def Walk.visit (w : Walk) (cursor : RefreshToken) : Walk :=
  if w.hops = 0 ∨ w.seen.contains cursor.id then { w with next := none }
  else { w with
    seen := w.seen ++ [cursor.id]
    revoking := if cursor.revokedAt.isNone then w.revoking ++ [cursor.id] else w.revoking
    hops := w.hops - 1
    next := cursor.replacedById }

/-- The walk from a token, after its first turn. -/
def Walk.start (t : RefreshToken) (now : ℤ) : Walk :=
  Walk.visit ⟨t.id, t.replacedById.isSome, now, [], [], maxFamilyHops, none⟩ t

/-- A call between two statements. -/
inductive TokenSession where
  /-- A user is known, and a pair is issued. -/
  | issuing (t : NewToken)
  /-- A token has been presented. -/
  | presented (tokenHash : String) (newId : Uuid) (newHash : String)
  /-- The token is neither revoked nor expired. -/
  | checked (t : RefreshToken) (now : ℤ) (newId : Uuid) (newHash : String)
  /-- Its user is active, and the new token is inserted. -/
  | minting (token : Uuid) (now : ℤ) (t : NewToken)
  | walking (w : Walk)
  | leaving (tokenHash : String)
  | revoking (token : Uuid) (now : ℤ)

structure TokenSystem where
  db : TokenDb
  sessions : Table ℕ TokenSession

inductive TokenStep where
  /-- A login whose factors have been checked. -/
  | login (n : ℕ) (userId newId : Uuid) (newHash : String) (expiresAt : ℤ)
  | refresh (n : ℕ) (tokenHash : String) (newId : Uuid) (newHash : String)
  | logout (n : ℕ) (tokenHash : String)
  /-- The next statement of a call, or its commit. -/
  | advance (n : ℕ) (now : ℤ)
  | drop (n : ℕ)
  | setStatus (userId : Uuid) (status : Option String)

def TokenSystem.init (userStatus : Uuid → Option String) : TokenSystem :=
  ⟨.init userStatus, fun _ => none⟩

section

variable (ttl : ℤ)

/-- What the next statement of a call makes of it; `none` when the call ends in an error. -/
def TokenSession.read (d : TokenDb) (now : ℤ) : TokenSession → Option TokenSession
  | .presented tokenHash newId newHash =>
    match d.byHash tokenHash with
    | none => none
    | some t =>
      if t.revokedAt.isSome then some (.walking (.start t now))
      else if t.expiresAt < now then none
      else some (.checked t now newId newHash)
  | .checked t start newId newHash =>
    if d.userStatus t.userId = some "active" then
      some (.minting t.id start ⟨newId, t.userId, newHash, now + ttl⟩)
    else none
  | .walking w =>
    match w.next.bind d.byId with
    | none => some (.walking { w with next := none })
    | some cursor => some (.walking (w.visit cursor))
  | .leaving tokenHash =>
    match d.byHash tokenHash with
    | none => none
    | some t => if t.revokedAt.isSome then none else some (.revoking t.id now)
  | .issuing t => some (.issuing t)
  | .minting token start t => some (.minting token start t)
  | .revoking token start => some (.revoking token start)

/-- What a call commits when it has come to its end. -/
def TokenSession.commit (d : TokenDb) : TokenSession → Option TokenDb
  | .issuing t => d.insert t
  | .minting token now t => d.rotate token t now
  | .walking w =>
    (d.revoke w.revoking w.now).map fun d' =>
      { d' with reused := if w.rotated then d.reused ++ [w.token] else d.reused }
  | .revoking token now => d.revoke [token] now
  | .presented _ _ _ | .checked _ _ _ _ | .leaving _ => none

/-- The call has no statement left but its commit. -/
def TokenSession.ready : TokenSession → Bool
  | .issuing _ | .minting _ _ _ | .revoking _ _ => true
  | .walking w => w.next.isNone
  | .presented _ _ _ | .checked _ _ _ _ | .leaving _ => false

def TokenSystem.begin (s : TokenSystem) (n : ℕ) (session : TokenSession) : Option TokenSystem :=
  if (s.sessions n).isNone then some { s with sessions := s.sessions.set n session } else none

/-- A call that ends leaves its number free. -/
def TokenSystem.finish (s : TokenSystem) (n : ℕ) : Table ℕ TokenSession :=
  Function.update s.sessions n none

def tokenStep : TokenStep → TokenSystem → Option TokenSystem
  | .login n userId newId newHash expiresAt, s =>
    if s.db.userStatus userId = some "active" then
      s.begin n (.issuing ⟨newId, userId, newHash, expiresAt⟩)
    else none
  | .refresh n tokenHash newId newHash, s => s.begin n (.presented tokenHash newId newHash)
  | .logout n tokenHash, s => s.begin n (.leaving tokenHash)
  | .advance n now, s => (s.sessions n).map fun session =>
    if session.ready then ⟨(session.commit s.db).getD s.db, s.finish n⟩
    else
      match session.read ttl s.db now with
      | none => { s with sessions := s.finish n }
      | some session' => { s with sessions := s.sessions.set n session' }
  | .drop n, s => some { s with sessions := s.finish n }
  | .setStatus userId status, s =>
    some { s with db := { s.db with userStatus := Function.update s.db.userStatus userId status } }

end

/-! ## What is committed -/

namespace TokenDb

variable {d d' : TokenDb} {t : NewToken} {i : Uuid} {r : RefreshToken}

theorem byId_eq_some : d.byId i = some r ↔ r ∈ d.tokens ∧ r.id = i := by
  constructor
  · exact fun h => ⟨Rows.mem_of_row h, Rows.row_key h⟩
  · rintro ⟨hr, rfl⟩
    exact Rows.row_of_mem d.ids hr

theorem byHash_eq_some {hash : String} :
    d.byHash hash = some r ↔ r ∈ d.tokens ∧ r.tokenHash = hash := by
  constructor
  · exact fun h => ⟨Rows.mem_of_row h, Rows.row_key h⟩
  · rintro ⟨hr, rfl⟩
    exact Rows.row_of_mem d.hashes hr

/-- An insertion adds one row under a new identifier. -/
structure Inserts (d : TokenDb) (t : NewToken) (d' : TokenDb) : Prop where
  fresh : d.byId t.id = none
  rows : ∀ i, d'.byId i = if i = t.id then some t.row else d.byId i
  rotations : d'.rotations = d.rotations
  reused : d'.reused = d.reused

theorem insert_inserts (h : d.insert t = some d') : d.Inserts t d' := by
  unfold insert at h
  split_ifs at h with hfresh
  cases h
  have hnone : d.byId t.id = none := by
    refine Option.eq_none_iff_forall_ne_some.mpr fun r hr => ?_
    obtain ⟨hmem, hid⟩ := byId_eq_some.mp hr
    exact (hfresh r hmem).1 hid
  refine ⟨hnone, fun i => ?_, rfl, rfl⟩
  refine (Rows.row_append d.tokens t.row i).trans ?_
  by_cases hi : i = t.id
  · rw [if_pos hi, hi]
    change (d.byId t.id).or _ = _
    rw [hnone, Option.none_or]
    exact if_pos rfl
  · have hne : ¬ t.row.id = i := fun heq => hi heq.symm
    rw [if_neg hi, if_neg hne, Option.or_none]
    rfl

/-- An update changes the rows that it names. -/
theorem byId_stamp (d : TokenDb) (ids : List Uuid) {f : RefreshToken → RefreshToken}
    (hid : ∀ t, (f t).id = t.id) (hhash : ∀ t, (f t).tokenHash = t.tokenHash) (i : Uuid) :
    (d.stamp ids f hid hhash).byId i =
      (d.byId i).map fun r => if ids.contains i then f r else r := by
  have hkey : ∀ t : RefreshToken, (if ids.contains t.id then f t else t).id = t.id := by
    intro t
    split_ifs
    · exact hid t
    · rfl
  refine (Rows.row_map hkey d.tokens i).trans (Option.map_congr fun r hr => ?_)
  rw [Rows.row_key hr]

/-- A revocation. -/
structure Revokes (d : TokenDb) (ids : List Uuid) (now : ℤ) (d' : TokenDb) : Prop where
  rows : ∀ i, d'.byId i =
    (d.byId i).map fun r => if i ∈ ids then { r with revokedAt := some now } else r
  rotations : d'.rotations = d.rotations

theorem revoke_revokes {ids : List Uuid} {now : ℤ} (h : d.revoke ids now = some d') :
    d.Revokes ids now d' ∧ d'.reused = d.reused := by
  unfold revoke at h
  split_ifs at h
  cases h
  refine ⟨⟨fun i => ?_, rfl⟩, rfl⟩
  rw [byId_stamp]
  simp

/-- A rotation. -/
structure Rotates (d : TokenDb) (id : Uuid) (t : NewToken) (now : ℤ) (d' : TokenDb) : Prop where
  old : ∃ r, d.byId id = some r ∧
    d'.byId id = some { r with revokedAt := some now, replacedById := some t.id }
  fresh : d.byId t.id = none
  new : d'.byId t.id = some t.row
  others : ∀ i, i ≠ id → i ≠ t.id → d'.byId i = d.byId i
  rotations : d'.rotations = d.rotations ++ [(id, t.id)]
  reused : d'.reused = d.reused

theorem rotate_rotates {id : Uuid} {now : ℤ} (h : d.rotate id t now = some d') :
    d.Rotates id t now d' := by
  unfold rotate at h
  split_ifs at h with hsome
  obtain ⟨d₁, hinsert, rfl⟩ := Option.map_eq_some_iff.mp h
  obtain ⟨r, hr⟩ := Option.isSome_iff_exists.mp hsome
  have hins := insert_inserts hinsert
  have hne : id ≠ t.id := by
    rintro rfl
    rw [hins.fresh] at hr
    cases hr
  have hrows : ∀ i, (d₁.stamp [id] (fun r => { r with
      revokedAt := some now, replacedById := some t.id }) (fun _ => rfl) fun _ => rfl).byId i =
      (d₁.byId i).map fun r => if i = id then { r with
        revokedAt := some now, replacedById := some t.id } else r := fun i => by
    rw [byId_stamp]
    simp
  refine ⟨⟨r, hr, ?_⟩, hins.fresh, ?_, fun i hi hit => ?_, rfl, hins.reused⟩
  · refine (hrows id).trans ?_
    rw [hins.rows, if_neg hne, hr, Option.map_some, if_pos rfl]
  · refine (hrows t.id).trans ?_
    rw [hins.rows, if_pos rfl, Option.map_some, if_neg hne.symm]
  · refine (hrows i).trans ?_
    simp [hins.rows, hit, hi]

end TokenDb

/-- **What a call commits**: a first token, a rotation, or revocations. -/
theorem commit_cases {d d' : TokenDb} {session : TokenSession} (h : session.commit d = some d') :
    (∃ t, session = .issuing t ∧ d.Inserts t d') ∨
    (∃ token now t, session = .minting token now t ∧ d.Rotates token t now d') ∨
    (∃ w, session = .walking w ∧ d.Revokes w.revoking w.now d' ∧
      d'.reused = if w.rotated then d.reused ++ [w.token] else d.reused) ∨
    ∃ token now, session = .revoking token now ∧ d.Revokes [token] now d' ∧
      d'.reused = d.reused := by
  cases session with
  | issuing t => exact .inl ⟨t, rfl, TokenDb.insert_inserts h⟩
  | minting token now t => exact .inr (.inl ⟨token, now, t, rfl, TokenDb.rotate_rotates h⟩)
  | walking w =>
    simp only [TokenSession.commit, Option.map_eq_some_iff] at h
    obtain ⟨d₁, hrevoke, rfl⟩ := h
    obtain ⟨hrevokes, -⟩ := TokenDb.revoke_revokes hrevoke
    exact .inr (.inr (.inl ⟨w, rfl, ⟨hrevokes.rows, hrevokes.rotations⟩, rfl⟩))
  | revoking token now =>
    obtain ⟨hrevokes, hreused⟩ := TokenDb.revoke_revokes h
    exact .inr (.inr (.inr ⟨token, now, rfl, hrevokes, hreused⟩))
  | presented tokenHash newId newHash => cases h
  | checked t now newId newHash => cases h
  | leaving tokenHash => cases h

/-! ## What a step can do -/

/-- A call as it begins. -/
def TokenSession.IsNew : TokenSession → Prop
  | .issuing _ | .presented _ _ _ | .leaving _ => True
  | .checked _ _ _ _ | .minting _ _ _ | .walking _ | .revoking _ _ => False

variable {ttl : ℤ} {s s' : TokenSystem} {a : TokenStep}

theorem begin_eq_some {n : ℕ} {session : TokenSession} : s.begin n session = some s' ↔
    s.sessions n = none ∧ s' = { s with sessions := s.sessions.set n session } := by
  unfold TokenSystem.begin
  rw [CondMachine.guarded_eq_some, Option.isNone_iff_eq_none]

theorem TokenSystem.finish_eq_some {n m : ℕ} {session : TokenSession}
    (h : s.finish n m = some session) : s.sessions m = some session := by
  unfold TokenSystem.finish at h
  by_cases hmn : m = n
  · rw [hmn, Function.update_self] at h
    cases h
  · rwa [Function.update_of_ne hmn] at h

/-- **What a step can do**: a call commits, reads, begins or ends, or a status changes. -/
theorem tokenStep_cases (h : tokenStep ttl a s = some s') :
    (∃ n now session db, a = .advance n now ∧ s.sessions n = some session ∧
      session.ready = true ∧ session.commit s.db = some db ∧ s' = ⟨db, s.finish n⟩) ∨
    (∃ n now session session', a = .advance n now ∧ s.sessions n = some session ∧
      session.ready = false ∧ session.read ttl s.db now = some session' ∧
      s' = { s with sessions := s.sessions.set n session' }) ∨
    (∃ n session, session.IsNew ∧ s' = { s with sessions := s.sessions.set n session }) ∨
    (∃ n, s' = { s with sessions := s.finish n }) ∨
    ∃ userStatus, s' = { s with db := { s.db with userStatus } } := by
  cases a with
  | login n userId newId newHash expiresAt =>
    obtain ⟨-, h⟩ := Option.ite_none_right_eq_some.mp h
    exact .inr (.inr (.inl ⟨n, .issuing _, trivial, (begin_eq_some.mp h).2⟩))
  | refresh n tokenHash newId newHash =>
    exact .inr (.inr (.inl ⟨n, .presented _ _ _, trivial, (begin_eq_some.mp h).2⟩))
  | logout n tokenHash =>
    exact .inr (.inr (.inl ⟨n, .leaving _, trivial, (begin_eq_some.mp h).2⟩))
  | advance n now =>
    obtain ⟨session, hn, rfl⟩ := Option.map_eq_some_iff.mp h
    cases hready : session.ready with
    | true =>
      cases hcommit : session.commit s.db with
      | none => exact .inr (.inr (.inr (.inl ⟨n, by simp⟩)))
      | some db => exact .inl ⟨n, now, session, db, rfl, hn, hready, hcommit, by simp⟩
    | false =>
      cases hread : session.read ttl s.db now with
      | none => exact .inr (.inr (.inr (.inl ⟨n, by simp⟩)))
      | some session' =>
        exact .inr (.inl ⟨n, now, session, session', rfl, hn, hready, hread, by simp⟩)
  | drop n => exact .inr (.inr (.inr (.inl ⟨n, (Option.some.inj h).symm⟩)))
  | setStatus userId status => exact .inr (.inr (.inr (.inr ⟨_, (Option.some.inj h).symm⟩)))

end ScanPlatform

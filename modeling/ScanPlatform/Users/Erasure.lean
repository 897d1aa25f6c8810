import ScanPlatform.Users.Accounts

/-!
# Erasure of users

An erasure runs beside other requests of the user, which may have loaded the user before it.

* `Scrubbed`, `Erased`: what an erasure is to leave behind;
* `Scrubbed.erased`: nobody is let in as a user whose row is scrubbed;
* `Session.Fits`, `Renames`: what a request has loaded, and how the rows change;
* `Commit.Timely`, **`scrubbed_apply_iff`**: when a commit leaves the erased users scrubbed;
* **`erasure_final_iff`**: when erasures are final.
-/

set_option autoImplicit false

namespace ScanPlatform.Users

open CondMachine Phases

section

variable {x : Crypto} {ttl now : ℤ} {d d' : AccountDb} {id : Uuid} {c : Commit}

/-! ## Erased users -/

/-- The row of the user is a tombstone, and no audit event carries an e-mail of the user. -/
structure Scrubbed (d : AccountDb) (id : Uuid) : Prop where
  row : ∃ u, d.user id = some u ∧ u.status = "deleted" ∧ u.email = tombstoneEmail id ∧
    u.fullName = tombstoneName
  audit : ∀ a ∈ d.audit, a.actorUserId = some id →
    ∀ email, a.actorEmail = some email → email = anonymizedActorEmail

/-- The user is scrubbed, and no bearer token, refresh token, password or challenge lets anyone in
as the user. -/
structure Erased (x : Crypto) (ttl : ℤ) (d : AccountDb) (id : Uuid) : Prop extends
    Scrubbed d id where
  bearer : ∀ token now u, getCurrentUser x d token now = some u → u.id ≠ id
  refresh : ∀ t start newId newHash now, t.userId = id →
    (TokenSession.checked t start newId newHash).read ttl d.tokenDb now = none
  password : ∀ email password u, authenticateUser x d email password = some u → u.id ≠ id
  challenge : ∀ token now u, challengedUser x d token now = some u → u.id ≠ id

theorem user_key {u : User} (h : d.user id = some u) : u.id = id := Rows.row_key h

theorem activeUser_eq_some {u : User} :
    activeUser d id = some u ↔ d.user id = some u ∧ u.status = "active" := by
  simp [activeUser, Option.filter_eq_some_iff]

theorem Scrubbed.not_active (h : Scrubbed d id) {u : User} (hu : d.user id = some u) :
    u.status ≠ "active" := by
  obtain ⟨v, hv, hstatus, -⟩ := h.row
  cases hu.symm.trans hv
  rw [hstatus]
  decide

theorem Scrubbed.activeUser_ne (h : Scrubbed d id) {i : Uuid} {u : User}
    (hu : activeUser d i = some u) : u.id ≠ id := by
  obtain ⟨hrow, hactive⟩ := activeUser_eq_some.mp hu
  rintro rfl
  rw [user_key hrow] at h
  exact h.not_active hrow hactive

/-- **Nobody is let in** as a user whose row is scrubbed. -/
theorem Scrubbed.erased (h : Scrubbed d id) : Erased x ttl d id where
  toScrubbed := h
  bearer token now u hu := by
    obtain ⟨i, -, hactive⟩ := Option.bind_eq_some_iff.mp hu
    exact h.activeUser_ne hactive
  refresh t start newId newHash now ht := by
    obtain ⟨u, hu, hstatus, -⟩ := h.row
    have hinactive : d.tokenDb.userStatus t.userId ≠ some "active" := by
      change (d.user t.userId).map User.status ≠ some "active"
      rw [ht, hu, Option.map_some, hstatus]
      decide
    rw [TokenSession.read, if_neg hinactive]
  password email password u hu := by
    obtain ⟨hrow, hpass⟩ := Option.filter_eq_some_iff.mp hu
    rintro rfl
    have huser : d.user u.id = some u := Rows.row_of_mem d.ids (Rows.mem_of_row hrow)
    rw [Bool.and_eq_true, decide_eq_true_eq] at hpass
    exact h.not_active huser hpass.2
  challenge token now u hu := by
    obtain ⟨i, -, hfilter⟩ := Option.bind_eq_some_iff.mp hu
    exact h.activeUser_ne (Option.filter_eq_some_iff.mp hfilter).1

/-! ## What commits change -/

/-- The object that a commit saves, as it was loaded and as it was changed. -/
def Commit.saved : Commit → Option (Uuid × User × User)
  | .save userId loaded changed => some (userId, loaded, changed)
  | .login userId loaded now _ _ => some (userId, loaded, { loaded with lastLoginAt := some now })
  | .erase e => some (e.userId, e.user, e.scrubbed)
  | .record _ | .token _ => none

/-- A row of `users` after the commit. -/
def Commit.written (c : Commit) (u : User) : User :=
  match c.saved with
  | some (userId, loaded, changed) =>
    if u.id = userId then AccountDb.flush loaded changed u else u
  | none => u

/-- The e-mail addresses in the audit after the commit. -/
def Commit.audited (c : Commit) (audit : List AuditEvent) : List AuditEvent :=
  match c with
  | .record a => audit ++ [a]
  | .erase e => audit.map fun a =>
      if e.events.any (· = a.id) then { a with actorEmail := some anonymizedActorEmail } else a
  | .save .. | .login .. | .token _ => audit

def Commit.erases : Commit → List Uuid
  | .erase e => [e.userId]
  | .save .. | .login .. | .record _ | .token _ => []

theorem user_saveUser (d : AccountDb) (userId : Uuid) (loaded changed : User) :
    (d.saveUser userId loaded changed).user id =
      (d.user id).map fun u => if u.id = userId then AccountDb.flush loaded changed u else u := by
  refine Rows.row_map (fun u => ?_) d.users id
  split_ifs
  · rfl
  · rfl

theorem useCode_eq_some {rc : Option (Uuid × ℤ)} (h : d.useCode rc = some d') :
    ∃ codes, d' = { d with codes } := by
  cases rc with
  | none =>
    cases h
    exact ⟨_, rfl⟩
  | some rc =>
    obtain ⟨-, h⟩ := Option.ite_none_right_eq_some.mp h
    cases h
    exact ⟨_, rfl⟩

/-- **What a commit does** to the users and to the audit. -/
theorem apply_eq_some (h : c.apply d = some d') :
    (∀ id, d'.user id = (d.user id).map c.written) ∧ d'.audit = c.audited d.audit ∧
      d'.erased = d.erased ++ c.erases := by
  have hsame : ∀ o : Option User, o.map (fun u => u) = o := fun _ => Option.map_id'
  cases c with
  | save userId loaded changed =>
    cases h
    exact ⟨fun id => user_saveUser d userId loaded changed, rfl, (List.append_nil _).symm⟩
  | login userId loaded now rc t =>
    obtain ⟨d₁, hcode, hinsert⟩ := Option.bind_eq_some_iff.mp h
    obtain ⟨tokens, -, rfl⟩ := Option.map_eq_some_iff.mp hinsert
    obtain ⟨codes, rfl⟩ := useCode_eq_some hcode
    exact ⟨fun id => user_saveUser d userId loaded _, rfl, (List.append_nil _).symm⟩
  | record a =>
    cases h
    exact ⟨fun id => (hsame _).symm, rfl, (List.append_nil _).symm⟩
  | token session =>
    obtain ⟨tokens, -, rfl⟩ := Option.map_eq_some_iff.mp h
    exact ⟨fun id => (hsame _).symm, rfl, (List.append_nil _).symm⟩
  | erase e =>
    cases h
    exact ⟨fun id => user_saveUser d e.userId e.user e.scrubbed, rfl, rfl⟩

/-! ## What requests have loaded -/

/-- The user was active when the erasure loaded it, and its e-mail is that of the row, unless the
user is erased. -/
def Erasure.Fits (d : AccountDb) (e : Erasure) : Prop :=
  e.user.status = "active" ∧ ∃ u, d.user e.userId = some u ∧
    (u.email = e.user.email ∨ u.email = tombstoneEmail e.userId)

def Commit.Fits (d : AccountDb) : Commit → Prop
  | .save _ loaded changed => changed.email = loaded.email ∧ changed.status = loaded.status
  | .erase e => e.Fits d
  | .login .. | .record _ | .token _ => True

def Session.Fits (d : AccountDb) : Session → Prop
  | .anonymizing e | .deletingTokens e | .deletingCodes e | .revokingKeys e => e.Fits d
  | .ready c => c.Fits d
  | .bearer .. | .keyed .. | .login .. | .challenged .. | .factor .. | .token _
  | .recording .. => True

theorem proceed_fits {u : User} {req : Request} {session : Session} (hu : d.user u.id = some u)
    (hactive : u.status = "active") (h : req.proceed x u = some session) : session.Fits d := by
  cases req with
  | updateProfile fullName =>
    cases h
    exact ⟨rfl, rfl⟩
  | changePassword currentPassword newHash =>
    obtain ⟨-, h⟩ := Option.ite_none_right_eq_some.mp h
    cases h
    exact ⟨rfl, rfl⟩
  | record eventId =>
    cases h
    trivial
  | erase password newHash =>
    obtain ⟨-, h⟩ := Option.ite_none_right_eq_some.mp h
    cases h
    exact ⟨hactive, u, hu, .inl rfl⟩

theorem read_fits {session session' : Session} (hs : session.Fits d)
    (h : session.read x ttl d now = some session') : session'.Fits d := by
  cases session with
  | bearer raw req =>
    obtain ⟨id, -, rfl⟩ := Option.map_eq_some_iff.mp h
    trivial
  | keyed userId req =>
    obtain ⟨u, hactive, hproceed⟩ := Option.bind_eq_some_iff.mp h
    obtain ⟨hu, hstatus⟩ := activeUser_eq_some.mp hactive
    rw [← user_key hu] at hu
    exact proceed_fits hu hstatus hproceed
  | anonymizing e | deletingTokens e | deletingCodes e | revokingKeys e =>
    cases h
    exact hs
  | login email password t =>
    obtain ⟨u, -, h⟩ := Option.bind_eq_some_iff.mp h
    split_ifs at h
    cases h
    trivial
  | challenged mfaToken code t =>
    obtain ⟨u, -, rfl⟩ := Option.map_eq_some_iff.mp h
    trivial
  | factor u code t =>
    simp only [Session.read] at h
    split_ifs at h
    · cases h
      trivial
    · obtain ⟨rc, -, rfl⟩ := Option.map_eq_some_iff.mp h
      trivial
  | token session =>
    obtain ⟨session', -, rfl⟩ := Option.map_eq_some_iff.mp h
    split_ifs
    · trivial
    · trivial
  | recording actorUserId eventId =>
    cases h
    trivial
  | ready c =>
    cases h
    exact hs

/-- Every row stays, and its e-mail changes to that of a tombstone only. -/
def Renames (d d' : AccountDb) : Prop :=
  ∀ id u, d.user id = some u → ∃ u', d'.user id = some u' ∧
    (u'.email = u.email ∨ u'.email = tombstoneEmail id)

theorem Renames.refl (d : AccountDb) : Renames d d := fun _ u hu => ⟨u, hu, .inl rfl⟩

theorem Erasure.Fits.renames {e : Erasure} (h : e.Fits d) (hd : Renames d d') : e.Fits d' := by
  obtain ⟨hactive, u, hu, hemail⟩ := h
  obtain ⟨u', hu', hemail'⟩ := hd _ u hu
  refine ⟨hactive, u', hu', ?_⟩
  rcases hemail' with hsame | htombstone
  · rwa [hsame]
  · exact .inr htombstone

theorem Session.Fits.renames {session : Session} (h : session.Fits d) (hd : Renames d d') :
    session.Fits d' := by
  cases session with
  | anonymizing e | deletingTokens e | deletingCodes e | revokingKeys e =>
    exact Erasure.Fits.renames h hd
  | ready c =>
    cases c with
    | erase e => exact Erasure.Fits.renames h hd
    | save | login | record | token => exact h
  | bearer | keyed | login | challenged | factor | token | recording => trivial

theorem column_cases {α : Type} [DecidableEq α] (loaded changed current : α) :
    AccountDb.column loaded changed current = current ∨
      AccountDb.column loaded changed current = changed := by
  unfold AccountDb.column
  split_ifs
  · exact .inl rfl
  · exact .inr rfl

/-- What a commit writes over an e-mail. -/
theorem written_email (hc : c.Fits d) (u : User) :
    (c.written u).email = u.email ∨ (c.written u).email = tombstoneEmail u.id := by
  unfold Commit.written
  cases c with
  | save userId loaded changed =>
    simp only [Commit.saved]
    split_ifs
    · exact .inl (by simp [AccountDb.flush, AccountDb.column, hc.1])
    · exact .inl rfl
  | login userId loaded now rc t =>
    simp only [Commit.saved]
    split_ifs
    · exact .inl (by simp [AccountDb.flush, AccountDb.column])
    · exact .inl rfl
  | record a => exact .inl rfl
  | token session => exact .inl rfl
  | erase e =>
    simp only [Commit.saved]
    split_ifs with hid
    · rw [hid]
      exact column_cases e.user.email (tombstoneEmail e.userId) u.email
    · exact .inl rfl

theorem apply_renames (hc : c.Fits d) (h : c.apply d = some d') : Renames d d' := by
  intro id u hu
  refine ⟨c.written u, by rw [(apply_eq_some h).1, hu, Option.map_some], ?_⟩
  rw [← user_key hu]
  exact written_email hc u

/-! ## Timely commits -/

def AllScrubbed (d : AccountDb) : Prop := ∀ id ∈ d.erased, Scrubbed d id

/-- No user that is erased is given another name, and no event with another e-mail is appended for
one; an erasure finds the name as a tombstone where it does not write it, and it has found every
event that carries an e-mail of the user. -/
def Commit.Timely (d : AccountDb) : Commit → Prop
  | .save userId loaded changed =>
    userId ∈ d.erased → changed.fullName = loaded.fullName ∨ changed.fullName = tombstoneName
  | .record a => ∀ id, a.actorUserId = some id → id ∈ d.erased →
      ∀ email, a.actorEmail = some email → email = anonymizedActorEmail
  | .erase e =>
    (e.user.fullName = tombstoneName →
      ∀ u, d.user e.userId = some u → u.fullName = tombstoneName) ∧
    ∀ a ∈ d.audit, a.actorUserId = some e.userId → e.events.any (· = a.id) = false →
      ∀ email, a.actorEmail = some email → email = anonymizedActorEmail
  | .login .. | .token _ => True

/-- A user whose row stays as it is, while the audit gets no e-mail of the user. -/
theorem Scrubbed.of_written (h : Scrubbed d id) (hd : c.apply d = some d')
    (hrow : ∀ u, d.user id = some u → u.status = "deleted" → u.email = tombstoneEmail id →
      u.fullName = tombstoneName → (c.written u).status = "deleted" ∧
        (c.written u).email = tombstoneEmail id ∧ (c.written u).fullName = tombstoneName)
    (haudit : ∀ a ∈ d'.audit, a ∉ d.audit → a.actorUserId = some id →
      ∀ email, a.actorEmail = some email → email = anonymizedActorEmail) : Scrubbed d' id := by
  obtain ⟨husers, -, -⟩ := apply_eq_some hd
  obtain ⟨u, hu, hstatus, hemail, hname⟩ := h.row
  refine ⟨⟨c.written u, by rw [husers, hu, Option.map_some], hrow u hu hstatus hemail hname⟩, ?_⟩
  intro a ha hactor email hsome
  by_cases hold : a ∈ d.audit
  · exact h.audit a hold hactor email hsome
  · exact haudit a ha hold hactor email hsome

/-- A commit that erases nobody, and leaves the rows of the erased users as they are to be. -/
theorem AllScrubbed.of_written (hs : AllScrubbed d) (h : c.apply d = some d')
    (herases : c.erases = []) (hrow : ∀ id ∈ d.erased, ∀ u, d.user id = some u →
      u.status = "deleted" → u.email = tombstoneEmail id → u.fullName = tombstoneName →
        (c.written u).status = "deleted" ∧ (c.written u).email = tombstoneEmail id ∧
          (c.written u).fullName = tombstoneName)
    (haudit : ∀ id ∈ d.erased, ∀ a ∈ c.audited d.audit, a ∉ d.audit → a.actorUserId = some id →
      ∀ email, a.actorEmail = some email → email = anonymizedActorEmail) : AllScrubbed d' := by
  obtain ⟨-, haudited, herased⟩ := apply_eq_some h
  rw [herases, List.append_nil] at herased
  intro id hid
  rw [herased] at hid
  refine (hs id hid).of_written h (hrow id hid) ?_
  rw [haudited]
  exact haudit id hid

theorem column_of_eq {α : Type} [DecidableEq α] {loaded changed current : α}
    (h : changed = loaded) : AccountDb.column loaded changed current = current := if_pos h

theorem column_of_ne {α : Type} [DecidableEq α] {loaded changed current : α}
    (h : changed ≠ loaded) : AccountDb.column loaded changed current = changed := if_neg h

theorem scrubbed_save_iff {userId : Uuid} {loaded changed : User}
    (hfit : (Commit.save userId loaded changed).Fits d) (hs : AllScrubbed d)
    (h : (Commit.save userId loaded changed).apply d = some d') :
    AllScrubbed d' ↔ (Commit.save userId loaded changed).Timely d := by
  constructor
  · obtain ⟨husers, -, herased⟩ := apply_eq_some h
    rw [Commit.erases, List.append_nil] at herased
    intro hs' herase
    obtain ⟨u, hu, -, -, -⟩ := (hs userId herase).row
    obtain ⟨u', hu', -, -, hname⟩ := (hs' userId (herased ▸ herase)).row
    rw [husers, hu, Option.map_some] at hu'
    cases hu'
    simp only [Commit.written, Commit.saved, if_pos (user_key hu), AccountDb.flush] at hname
    by_cases hsame : changed.fullName = loaded.fullName
    · exact .inl hsame
    · exact .inr ((column_of_ne hsame).symm.trans hname)
  · intro htimely
    refine hs.of_written h rfl (fun id hid u hu hstatus hemail hname => ?_)
      fun _ _ a ha hold => absurd ha hold
    by_cases hkey : u.id = userId
    · have hname' : AccountDb.column loaded.fullName changed.fullName u.fullName =
          tombstoneName := by
        have herase : userId ∈ d.erased := by rwa [← hkey, user_key hu]
        rcases column_cases loaded.fullName changed.fullName u.fullName with hcol | hcol
        · rw [hcol, hname]
        · rcases htimely herase with hsame | htomb
          · rw [column_of_eq hsame, hname]
          · rw [hcol, htomb]
      simp only [Commit.written, Commit.saved, if_pos hkey, AccountDb.flush]
      rw [column_of_eq hfit.1, column_of_eq hfit.2]
      exact ⟨hstatus, hemail, hname'⟩
    · simp only [Commit.written, Commit.saved, if_neg hkey]
      exact ⟨hstatus, hemail, hname⟩

theorem scrubbed_login {userId : Uuid} {loaded : User} {now : ℤ} {rc : Option (Uuid × ℤ)}
    {t : NewToken} (hs : AllScrubbed d)
    (h : (Commit.login userId loaded now rc t).apply d = some d') : AllScrubbed d' := by
  refine hs.of_written h rfl (fun id _ u hu hstatus hemail hname => ?_)
    fun _ _ a ha hold => absurd ha hold
  simp only [Commit.written, Commit.saved]
  split_ifs
  · simp only [AccountDb.flush, column_of_eq]
    exact ⟨hstatus, hemail, hname⟩
  · exact ⟨hstatus, hemail, hname⟩

theorem scrubbed_token {session : TokenSession} (hs : AllScrubbed d)
    (h : (Commit.token session).apply d = some d') : AllScrubbed d' :=
  hs.of_written h rfl (fun _ _ _ _ hstatus hemail hname => ⟨hstatus, hemail, hname⟩)
    fun _ _ _ ha hold => absurd ha hold

theorem scrubbed_record_iff {a : AuditEvent} (hs : AllScrubbed d)
    (h : (Commit.record a).apply d = some d') :
    AllScrubbed d' ↔ (Commit.record a).Timely d := by
  constructor
  · obtain ⟨-, haudit, herased⟩ := apply_eq_some h
    rw [Commit.erases, List.append_nil] at herased
    intro hs' id hactor hid
    refine (hs' id (herased ▸ hid)).audit a ?_ hactor
    rw [haudit]
    exact List.mem_append_right _ (List.mem_singleton_self a)
  · intro htimely
    refine hs.of_written h rfl (fun _ _ u _ hstatus hemail hname => ⟨hstatus, hemail, hname⟩) ?_
    intro id hid b hb hnew hactor
    rcases List.mem_append.mp hb with hold | hsingle
    · exact absurd hold hnew
    · cases List.mem_singleton.mp hsingle
      exact htimely id hactor hid

/-- The row of a user after the erasure has been committed. -/
theorem written_erase {e : Erasure} (hfit : e.Fits d) {u : User} (hu : d.user e.userId = some u) :
    ((Commit.erase e).written u).status = "deleted" ∧
      ((Commit.erase e).written u).email = tombstoneEmail e.userId ∧
        (((Commit.erase e).written u).fullName = tombstoneName ↔
          (e.user.fullName = tombstoneName → u.fullName = tombstoneName)) := by
  obtain ⟨hactive, v, hv, hemail⟩ := hfit
  cases hu.symm.trans hv
  simp only [Commit.written, Commit.saved, if_pos (user_key hu), AccountDb.flush, Erasure.scrubbed]
  refine ⟨column_of_ne (by rw [hactive]; decide), ?_, ?_⟩
  · by_cases hsame : tombstoneEmail e.userId = e.user.email
    · rw [column_of_eq hsame]
      rcases hemail with heq | heq
      · rw [heq, hsame]
      · exact heq
    · exact column_of_ne hsame
  · by_cases hsame : tombstoneName = e.user.fullName
    · rw [column_of_eq hsame]
      exact ⟨fun h _ => h, fun h => h hsame.symm⟩
    · rw [column_of_ne hsame]
      exact ⟨fun _ h => absurd h.symm hsame, fun _ => rfl⟩

theorem scrubbed_erase_iff {e : Erasure} (hfit : (Commit.erase e).Fits d) (hs : AllScrubbed d)
    (h : (Commit.erase e).apply d = some d') :
    AllScrubbed d' ↔ (Commit.erase e).Timely d := by
  obtain ⟨husers, haudit, herased⟩ := apply_eq_some h
  obtain ⟨u, hu⟩ : ∃ u, d.user e.userId = some u := ⟨_, hfit.2.choose_spec.1⟩
  obtain ⟨hstatus, hemail, hname⟩ := written_erase hfit hu
  have hu' : d'.user e.userId = some ((Commit.erase e).written u) := by
    rw [husers, hu, Option.map_some]
  have hself : Scrubbed d' e.userId ↔ (Commit.erase e).Timely d := by
    constructor
    · intro hscrubbed
      obtain ⟨v, hv, -, -, hv'⟩ := hscrubbed.row
      cases hu'.symm.trans hv
      refine ⟨fun hloaded w hw => ?_, fun a ha hactor hmissed email hsome => ?_⟩
      · cases hu.symm.trans hw
        exact hname.mp hv' hloaded
      · refine hscrubbed.audit a ?_ hactor email hsome
        rw [haudit]
        exact List.mem_map.mpr ⟨a, ha, by rw [if_neg (by rw [hmissed]; decide)]⟩
    · rintro ⟨hloaded, hfound⟩
      refine ⟨⟨_, hu', hstatus, hemail, hname.mpr fun htomb => hloaded htomb u hu⟩, ?_⟩
      intro a' ha' hactor email hsome
      rw [haudit] at ha'
      obtain ⟨a, ha, rfl⟩ := List.mem_map.mp ha'
      split_ifs at hactor hsome with hevent
      · exact (Option.some.inj hsome).symm
      · exact hfound a ha hactor (Bool.eq_false_iff.mpr hevent) email hsome
  constructor
  · intro hs'
    refine hself.mp (hs' e.userId ?_)
    rw [herased]
    exact List.mem_append_right _ (List.mem_singleton_self _)
  · intro htimely id hid
    rw [herased] at hid
    by_cases hid' : id = e.userId
    · rw [hid']
      exact hself.mpr htimely
    · have hold : id ∈ d.erased := by simpa [Commit.erases, hid'] using hid
      refine (hs id hold).of_written h (fun v hv hst hem hna => ?_) ?_
      · have hkey : v.id ≠ e.userId := by rwa [user_key hv]
        simp only [Commit.written, Commit.saved, if_neg hkey]
        exact ⟨hst, hem, hna⟩
      · intro a' ha' hnew _ email hsome
        rw [haudit] at ha'
        obtain ⟨a, ha, rfl⟩ := List.mem_map.mp ha'
        split_ifs at hnew hsome
        · exact (Option.some.inj hsome).symm
        · exact absurd ha hnew

/-- **When a commit leaves the erased users scrubbed.** -/
theorem scrubbed_apply_iff (hfit : c.Fits d) (hs : AllScrubbed d) (h : c.apply d = some d') :
    AllScrubbed d' ↔ c.Timely d := by
  cases c with
  | save userId loaded changed => exact scrubbed_save_iff hfit hs h
  | login userId loaded now rc t => exact iff_of_true (scrubbed_login hs h) trivial
  | record a => exact scrubbed_record_iff hs h
  | token session => exact iff_of_true (scrubbed_token hs h) trivial
  | erase e => exact scrubbed_erase_iff hfit hs h

/-! ## Runs -/

/-- The step is timely when what it commits is. -/
def Timely (s : AccountSystem) : AccountStep → Prop
  | .advance n _ => ∀ c, s.sessions n = some (.ready c) → c.Timely s.db
  | .call .. | .drop _ => True

theorem advance_of_not_ready {session : Session} (h : ∀ c, session ≠ .ready c) :
    session.advance x ttl now d = (d, session.read x ttl d now) := by
  unfold Session.advance
  split
  · exact absurd rfl (h _)
  · rfl

theorem advance_ready {d' : AccountDb} (h : c.apply d = some d') :
    (Session.ready c).advance x ttl now d = (d', none) := by
  rw [Session.advance, h, Option.getD_some]

theorem advance_fails (h : c.apply d = none) :
    (Session.ready c).advance x ttl now d = (d, none) := by
  rw [Session.advance, h, Option.getD_none]

variable {s s' : AccountSystem} {a : AccountStep}

abbrev AllFit (s : AccountSystem) : Prop := Fit (fun _ => True) (fun d x => Session.Fits d x) s

theorem allFit_step (hs : AllFit s) (h : accountStep x ttl a s = some s') : AllFit s' := by
  refine hs.act (R := Renames) (fun c => ?_) (fun n i session _ hn => ⟨trivial, ?_⟩)
    (fun session d' hfit hR => hfit.renames hR) h
  · cases c <;> trivial
  · have hfit : session.Fits s.db := hs.fits n session hn
    by_cases hready : ∃ c, session = .ready c
    · obtain ⟨c, rfl⟩ := hready
      cases happly : c.apply s.db with
      | none =>
        rw [advance_fails happly]
        exact ⟨Renames.refl _, fun _ h => absurd h (Option.not_mem_none _)⟩
      | some d' =>
        rw [advance_ready happly]
        exact ⟨apply_renames hfit happly, fun _ h => absurd h (Option.not_mem_none _)⟩
    · rw [advance_of_not_ready (not_exists.mp hready)]
      refine ⟨Renames.refl _, fun session' hread => ?_⟩
      rw [Option.mem_def] at hread
      exact read_fits hfit hread

/-- **One step**: the erased users stay scrubbed, and the user of an erasure becomes so, when the
step is timely. -/
theorem scrubbed_next_iff (hs : AllFit s) (hall : AllScrubbed s.db) :
    AllScrubbed (next (accountStep x ttl) s a).db ↔ Timely s a := by
  cases a with
  | call n c =>
    refine iff_of_true ?_ trivial
    rcases next_cases (accountStep x ttl) s (.call n c) with hsome | ⟨-, hnone⟩
    · rcases act_cases hsome with ⟨m, c', -, -, heq⟩ | ⟨m, i, y, hcall, -⟩ | ⟨m, hcall, -⟩
      · rw [heq]
        exact hall
      · cases hcall
      · cases hcall
    · rw [hnone]
      exact hall
  | drop n =>
    rw [next_some (by rfl : accountStep x ttl (.drop n) s = some _)]
    exact iff_of_true hall trivial
  | advance n now =>
    cases hn : s.sessions n with
    | none =>
      rw [next_none (by rw [accountStep, act, hn, Option.map_none])]
      exact iff_of_true hall fun c hc => by rw [hn] at hc; cases hc
    | some session =>
      have hnext : (next (accountStep x ttl) s (.advance n now)).db =
          (session.advance x ttl now s.db).1 := by
        rw [accountStep, next_advance now hn]
      have hfit : session.Fits s.db := hs.fits n session hn
      rw [hnext]
      by_cases hready : ∃ c, session = .ready c
      · obtain ⟨c, rfl⟩ := hready
        have htimely : Timely s (.advance n now) ↔ c.Timely s.db := by
          refine ⟨fun h => h c hn, fun h c' hc' => ?_⟩
          cases hn.symm.trans hc'
          exact h
        rw [htimely]
        cases happly : c.apply s.db with
        | none =>
          rw [advance_fails happly]
          -- only a login or a token may fail to be committed
          cases c with
          | login | token => exact iff_of_true hall trivial
          | save | record | erase => cases happly
        | some d' =>
          rw [advance_ready happly]
          exact scrubbed_apply_iff hfit hall happly
      · rw [advance_of_not_ready (not_exists.mp hready)]
        refine iff_of_true hall fun c hc => ?_
        cases hn.symm.trans hc
        exact absurd ⟨c, rfl⟩ hready

/-- Every user whose erasure has been committed is erased. -/
def Final (x : Crypto) (ttl : ℤ) (s : AccountSystem) : Prop :=
  ∀ id ∈ s.db.erased, Erased x ttl s.db id

theorem final_iff : Final x ttl s ↔ AllScrubbed s.db :=
  ⟨fun h id hid => (h id hid).toScrubbed, fun h id hid => (h id hid).erased⟩

/-- No erasure yet, and no requests. -/
def AccountSystem.init (d : AccountDb) : AccountSystem := System.init { d with erased := [] }

end

/-! ## A profile that is saved late -/

def labCrypto : Crypto where
  decryptSecret := id
  verifyTotp _ _ _ := false
  hashRecoveryCode := id
  verifyPassword _ _ := true
  hashKey := id
  decodeAccessToken _ _ := some 1
  decodeMfaChallengeToken _ _ := none

def labAccounts : AccountDb where
  users := [⟨1, "ada@example.com", "Ada", "h", false, none, none, "active", none⟩]
  ids := List.nodup_singleton _
  audit := []
  keys := []
  codes := []
  tokens := .init fun _ => none
  erased := []

/-- The user has been loaded for a new name when the erasure is carried out. -/
def lateProfile : List AccountStep :=
  [.call 0 (.bearer "t" (.updateProfile "Countess")), .advance 0 0, .advance 0 0,
    .call 1 (.bearer "t" (.erase "p" "h'")), .advance 1 0, .advance 1 0, .advance 1 0,
    .advance 1 0, .advance 1 0, .advance 1 0, .advance 1 0, .advance 0 0]

end ScanPlatform.Users

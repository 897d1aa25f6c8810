import ScanPlatform.Auth.RecoveryCodes
import ScanPlatform.Auth.Tokens
import ScanPlatform.Base.Phases

/-!
# Accounts

The requests of users at READ COMMITTED. A request reads in single statements, keeps the user as it
was loaded, and writes at its commit the columns that it has changed.

* `User`, `AuditEvent`, `ApiKey`, `AccountDb`: the rows;
* `AccountDb.saveUser`: what the commit of a loaded user writes;
* `getCurrentUser`, `authenticateUser`, `challengedUser`: who is let in;
* `Request`, `Session`, `Session.read`: the requests, and what their statements make of them;
* `Erasure`, `Commit`, `Commit.apply`: what they commit;
* `accountStep`: the steps.
-/

set_option autoImplicit false

namespace ScanPlatform.Users

open Phases

/-! ## Rows -/

/-- A row of `users`. -/
structure User where
  id : Uuid
  email : String
  fullName : String
  passwordHash : String
  mfaEnabled : Bool
  mfaSecretEncrypted : Option String
  mfaEnabledAt : Option ℤ
  status : String
  lastLoginAt : Option ℤ

/-- A row of `audit_events`, with what names its actor. -/
structure AuditEvent where
  id : Uuid
  actorUserId : Option Uuid
  actorEmail : Option String

/-- A row of `api_keys`. -/
structure ApiKey where
  id : Uuid
  keyHash : String
  createdBy : Uuid
  revoked : Bool

/-- The tables, with the users whose erasure has been committed. The statuses that the refresh
tokens are checked against are those of the users. -/
structure AccountDb where
  users : List User
  ids : (users.map User.id).Nodup
  audit : List AuditEvent
  keys : List ApiKey
  codes : List MfaRecoveryCode
  tokens : TokenDb
  erased : List Uuid

/-- The functions of `core.security` and `core.mfa`. -/
structure Crypto extends Mfa where
  hashKey : String → String
  decodeAccessToken : String → ℤ → Option Uuid
  decodeMfaChallengeToken : String → ℤ → Option Uuid

namespace AccountDb

def user (d : AccountDb) (id : Uuid) : Option User := Rows.row User.id d.users id

def tokenDb (d : AccountDb) : TokenDb :=
  { d.tokens with userStatus := fun id => (d.user id).map User.status }

/-- A column after an `UPDATE` of a loaded object, which names the columns that have changed. -/
def column {α : Type} [DecidableEq α] (loaded changed current : α) : α :=
  if changed = loaded then current else changed

/-- The row of a user after the commit of a loaded object. -/
def flush (loaded changed row : User) : User where
  id := row.id
  email := column loaded.email changed.email row.email
  fullName := column loaded.fullName changed.fullName row.fullName
  passwordHash := column loaded.passwordHash changed.passwordHash row.passwordHash
  mfaEnabled := column loaded.mfaEnabled changed.mfaEnabled row.mfaEnabled
  mfaSecretEncrypted :=
    column loaded.mfaSecretEncrypted changed.mfaSecretEncrypted row.mfaSecretEncrypted
  mfaEnabledAt := column loaded.mfaEnabledAt changed.mfaEnabledAt row.mfaEnabledAt
  status := column loaded.status changed.status row.status
  lastLoginAt := column loaded.lastLoginAt changed.lastLoginAt row.lastLoginAt

def saveUser (d : AccountDb) (id : Uuid) (loaded changed : User) : AccountDb :=
  { d with
    users := d.users.map fun u => if u.id = id then flush loaded changed u else u
    ids := by
      have hids : (d.users.map fun u => if u.id = id then flush loaded changed u else u).map
          User.id = d.users.map User.id := by
        rw [List.map_map]
        refine List.map_congr_left fun u _ => ?_
        simp only [Function.comp_apply]
        split_ifs
        · rfl
        · rfl
      rw [hids]
      exact d.ids }

/-- The update of `used_at` by primary key; it fails when the row is gone. -/
def useCode (d : AccountDb) : Option (Uuid × ℤ) → Option AccountDb
  | none => some d
  | some (id, usedAt) =>
    if d.codes.any (·.id = id) then
      some { d with
        codes := d.codes.map fun c => if c.id = id then { c with usedAt := some usedAt } else c }
    else none

end AccountDb

/-! ## Who is let in -/

section

variable (x : Crypto)

/-- `KEY_PREFIX`. -/
def keyPrefix : String := "mbsk_"

/-- `authenticate_key`. -/
def authenticateKey (d : AccountDb) (raw : String) : Option ApiKey :=
  (Rows.row ApiKey.keyHash d.keys (x.hashKey raw)).filter fun k => !k.revoked

/-- The user whom a bearer token names. -/
def bearerUser (d : AccountDb) (token : String) (now : ℤ) : Option Uuid :=
  if PyStr.startsWith token keyPrefix then (authenticateKey x d token).map ApiKey.createdBy
  else x.decodeAccessToken token now

def activeUser (d : AccountDb) (id : Uuid) : Option User :=
  (d.user id).filter fun u => u.status = "active"

/-- `get_current_user`, when nothing is written between its statements. -/
def getCurrentUser (d : AccountDb) (token : String) (now : ℤ) : Option User :=
  (bearerUser x d token now).bind (activeUser d)

def authenticateUser (d : AccountDb) (email password : String) : Option User :=
  (Rows.row User.email d.users email).filter fun u =>
    x.verifyPassword password u.passwordHash && u.status = "active"

/-- The user of a challenge, as `complete_mfa_login` checks it. -/
def challengedUser (d : AccountDb) (mfaToken : String) (now : ℤ) : Option User :=
  (x.decodeMfaChallengeToken mfaToken now).bind fun id =>
    (activeUser d id).filter User.mfaEnabled

end

/-! ## Requests -/

/-- `ANONYMIZED_ACTOR_EMAIL`. -/
def anonymizedActorEmail : String := "[deleted]"

def tombstoneEmail (id : Uuid) : String := s!"deleted+{Uuid.str id}@deleted.invalid"

def tombstoneName : String := "Deleted User"

/-- What a request with a bearer token asks for; hashes and identifiers are as they will be
drawn. -/
inductive Request where
  | updateProfile (fullName : String)
  | changePassword (currentPassword newHash : String)
  /-- An action that appends an audit event. -/
  | record (eventId : Uuid)
  | erase (password newHash : String)

/-- An erasure in progress, with the rows that its statements have found. -/
structure Erasure where
  userId : Uuid
  user : User
  newHash : String
  events : List Uuid
  tokens : List Uuid
  codes : List Uuid
  keys : List Uuid

/-- What a request commits. -/
inductive Commit where
  | save (userId : Uuid) (loaded changed : User)
  /-- A login, with the recovery code that decided it. -/
  | login (userId : Uuid) (loaded : User) (now : ℤ) (rc : Option (Uuid × ℤ)) (t : NewToken)
  | record (e : AuditEvent)
  | token (session : TokenSession)
  | erase (e : Erasure)

/-- A token as a login will mint it. -/
structure Mint where
  id : Uuid
  tokenHash : String
  expiresAt : ℤ

def Mint.row (t : Mint) (userId : Uuid) : NewToken := ⟨t.id, userId, t.tokenHash, t.expiresAt⟩

/-- A request between two statements. -/
inductive Session where
  | bearer (token : String) (req : Request)
  | keyed (userId : Uuid) (req : Request)
  | anonymizing (e : Erasure)
  | deletingTokens (e : Erasure)
  | deletingCodes (e : Erasure)
  | revokingKeys (e : Erasure)
  | login (email password : String) (t : Mint)
  | challenged (mfaToken code : String) (t : Mint)
  /-- The user of the challenge has passed the checks. -/
  | factor (user : User) (code : String) (t : Mint)
  | token (session : TokenSession)
  /-- `audit.record` for an actor that its session has not loaded. -/
  | recording (actorUserId : Option Uuid) (eventId : Uuid)
  | ready (c : Commit)

section

variable (x : Crypto) (ttl : ℤ)

/-- What a request does with its user. -/
def Request.proceed (u : User) : Request → Option Session
  | .updateProfile fullName => some (.ready (.save u.id u { u with fullName }))
  | .changePassword currentPassword newHash =>
    if x.verifyPassword currentPassword u.passwordHash then
      some (.ready (.save u.id u { u with passwordHash := newHash }))
    else none
  | .record eventId => some (.ready (.record ⟨eventId, some u.id, some u.email⟩))
  | .erase password newHash =>
    if x.verifyPassword password u.passwordHash then
      some (.anonymizing ⟨u.id, u, newHash, [], [], [], []⟩)
    else none

/-- The SELECT of `_consume_recovery_code`. -/
def unusedCode (d : AccountDb) (userId : Uuid) (codeHash : String) : Option MfaRecoveryCode :=
  d.codes.find? fun c => c.userId = userId ∧ c.codeHash = codeHash ∧ c.usedAt = none

/-- What `Mfa.totp` reads of a user. -/
def User.mfa (u : User) : MfaUser := ⟨u.status, u.passwordHash, u.mfaEnabled, u.mfaSecretEncrypted⟩

/-- What the next statement of a request makes of it; `none` when the request ends in an error or,
as a login that is challenged does, without a commit. -/
def Session.read (d : AccountDb) (now : ℤ) : Session → Option Session
  | .bearer raw req => (bearerUser x d raw now).map fun id => .keyed id req
  | .keyed userId req => (activeUser d userId).bind (req.proceed x)
  | .anonymizing e => some (.deletingTokens { e with
      events := (d.audit.filter fun a =>
        a.actorUserId = some e.userId && a.actorEmail.isSome).map AuditEvent.id })
  | .deletingTokens e => some (.deletingCodes { e with
      tokens := (d.tokens.tokens.filter fun t => t.userId = e.userId).map RefreshToken.id })
  | .deletingCodes e => some (.revokingKeys { e with
      codes := (d.codes.filter fun c => c.userId = e.userId).map MfaRecoveryCode.id })
  | .revokingKeys e => some (.ready (.erase { e with
      keys := (d.keys.filter fun k => k.createdBy = e.userId).map ApiKey.id }))
  | .login email password t =>
    (authenticateUser x d email password).bind fun u =>
      if u.mfaEnabled then none else some (.ready (.login u.id u now none (t.row u.id)))
  | .challenged mfaToken code t =>
    (challengedUser x d mfaToken now).map fun u => .factor u code t
  | .factor u code t =>
    if x.totp u.mfa code now then some (.ready (.login u.id u now none (t.row u.id)))
    else (unusedCode d u.id (x.hashRecoveryCode code)).map fun rc =>
      .ready (.login u.id u now (some (rc.id, now)) (t.row u.id))
  | .token session => (session.read ttl d.tokenDb now).map fun session' =>
      if session'.ready then .ready (.token session') else .token session'
  | .recording actorUserId eventId =>
    some (.ready (.record ⟨eventId, actorUserId, (actorUserId.bind d.user).map User.email⟩))
  | .ready c => some (.ready c)

end

/-! ## Commits -/

/-- The user as `erase_user` changes it. -/
def Erasure.scrubbed (e : Erasure) : User :=
  { e.user with
    email := tombstoneEmail e.userId
    fullName := tombstoneName
    passwordHash := e.newHash
    mfaEnabled := false
    mfaSecretEncrypted := none
    mfaEnabledAt := none
    status := "deleted" }

/-- The tokens without those that are named. -/
def withoutTokens (d : TokenDb) (gone : List Uuid) : TokenDb :=
  { d with
    tokens := d.tokens.filter fun t => !gone.any (· = t.id)
    ids := d.ids.sublist (List.filter_sublist.map _)
    hashes := d.hashes.sublist (List.filter_sublist.map _) }

def Commit.apply (d : AccountDb) : Commit → Option AccountDb
  | .save userId loaded changed => some (d.saveUser userId loaded changed)
  | .login userId loaded now rc t =>
    (d.useCode rc).bind fun d => (d.tokens.insert t).map fun tokens =>
      { d.saveUser userId loaded { loaded with lastLoginAt := some now } with tokens }
  | .record e => some { d with audit := d.audit ++ [e] }
  | .token session => (session.commit d.tokenDb).map fun tokens => { d with tokens }
  | .erase e => some { d.saveUser e.userId e.user e.scrubbed with
      audit := d.audit.map fun a =>
        if e.events.any (· = a.id) then { a with actorEmail := some anonymizedActorEmail } else a
      tokens := withoutTokens d.tokens e.tokens
      codes := d.codes.filter fun c => !e.codes.any (· = c.id)
      keys := d.keys.map fun k => if e.keys.any (· = k.id) then { k with revoked := true } else k
      erased := d.erased ++ [e.userId] }

/-! ## Steps -/

/-- A request as it begins. -/
inductive Call where
  | bearer (token : String) (req : Request)
  | login (email password : String) (t : Mint)
  | mfaLogin (mfaToken code : String) (t : Mint)
  | refresh (tokenHash : String) (newId : Uuid) (newHash : String)
  | logout (tokenHash : String)
  | record (actorUserId : Option Uuid) (eventId : Uuid)

def Call.start : Call → Session
  | .bearer token req => .bearer token req
  | .login email password t => .login email password t
  | .mfaLogin mfaToken code t => .challenged mfaToken code t
  | .refresh tokenHash newId newHash => .token (.presented tokenHash newId newHash)
  | .logout tokenHash => .token (.leaving tokenHash)
  | .record actorUserId eventId => .recording actorUserId eventId

/-- The next statement of a request, or its commit. -/
def Session.advance (x : Crypto) (ttl now : ℤ) (d : AccountDb) :
    Session → AccountDb × Option Session
  | .ready c => ((c.apply d).getD d, none)
  | session => (d, session.read x ttl d now)

abbrev AccountSystem : Type := System AccountDb Session

abbrev AccountStep : Type := Action Call ℤ

/-- A request begins, executes a statement or commits, or is rolled back. -/
def accountStep (x : Crypto) (ttl : ℤ) : AccountStep → AccountSystem → Option AccountSystem :=
  act Call.start (Session.advance x ttl)

end ScanPlatform.Users

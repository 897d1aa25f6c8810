import ScanPlatform.Auth.RecoveryCodes
import ScanPlatform.Base.Limiter
import ScanPlatform.Manager.Db

/-!
# The lockout of the second factor

Any number of second factors of one user, at READ COMMITTED and with Redis available. The counter of
wrong codes is read, a code is checked, and the counter is written, each in a step of its own.

* `MfaSettings`, `Guard`, `Guard.assertNotLocked`, `Guard.recordFailure`, `Guard.clear`: the
  counter;
* `FactorCall.challenge`, `FactorCall.verify`: what a call checks before its second factor, and the
  factor;
* `GuardedSession`, `GuardedSession.advance`, `lockoutStep`: the calls and their steps;
* `Guard.limiter`, `LockoutState.limiter`, **`lockoutStep_inv`**: they are a limiter;
* **`lockout_holds`**: the lockout, in every run in which every code is guarded;
  `lockout_bypassed` is one in which none is.
-/

set_option autoImplicit false

namespace ScanPlatform

open CondMachine Limiter

/-! ## The counter -/

structure MfaSettings where
  mfaMaxAttempts : ℕ
  mfaLockoutSeconds : ℤ

/-- `mfa_lockout_seconds`, in milliseconds. -/
def MfaSettings.ttl (settings : MfaSettings) : ℤ := 1000 * settings.mfaLockoutSeconds

/-- What the calls share. Moments are in milliseconds, as they are for Redis. -/
structure Guard where
  db : MfaDb
  now : ℤ
  /-- `mfa:fail:<user id>`, with the moment at which it expires. -/
  counter : Option (ℕ × ℤ)
  log : List Entry

namespace Guard

variable (settings : MfaSettings) (d : Guard)

/-- `client.get`. -/
def get : Option ℕ := d.counter.bind fun count => if d.now < count.2 then some count.1 else none

/-- `assert_not_locked`. -/
def assertNotLocked : Except Fault Unit :=
  match d.get with
  | some count =>
    if settings.mfaMaxAttempts ≤ count then
      .error (.http 429 "Too many MFA attempts; try again later")
    else .ok ()
  | none => .ok ()

/-- `record_failure`. -/
def recordFailure : Guard :=
  { d with counter := some (d.get.getD 0 + 1, d.now + settings.ttl) }

/-- `clear`. -/
def clear : Guard := { d with counter := none }

def note (entries : List Entry) : Guard := { d with log := d.log ++ entries }

end Guard

/-! ## Second factors -/

/-- A call that gives a second factor. -/
inductive FactorCall where
  /-- `complete_mfa_login`. -/
  | login (code : String)
  /-- `verify_and_enable_mfa`, with the codes that it generates. -/
  | enable (code : String) (codes : List (Uuid × String))
  /-- `disable_mfa`. -/
  | disable (password code : String)

/-- What the call commits is what it commits as a call that uses up recovery codes. -/
def FactorCall.toMfaCall : FactorCall → MfaCall
  | .login code => .login code
  | .enable code codes => .enable code codes
  | .disable password code => .disable password code

/-- Whether a call asks for the lockout and counts its failures. -/
def FactorCall.guarded : FactorCall → Bool
  | .login _ | .enable _ _ => true
  | .disable _ _ => false

section

variable (m : Mfa)

/-- What a call checks before its second factor. -/
def FactorCall.challenge (u : MfaUser) : FactorCall → Except Fault Unit
  | .login _ =>
    if u.status ≠ "active" ∨ ¬ u.mfaEnabled then .error (.http 401 "Invalid MFA state") else .ok ()
  | .enable _ _ =>
    if u.status ≠ "active" then .error (.http 401 "User not found or inactive")
    else if u.mfaEnabled then .error (.http 409 "MFA is already enabled")
    else if u.mfaSecretEncrypted.getD "" = "" then
      .error (.http 400 "Start enrollment via /auth/mfa/enable first")
    else .ok ()
  | .disable password _ =>
    if u.status ≠ "active" then .error (.http 401 "User not found or inactive")
    else if ¬ u.mfaEnabled then .error (.http 400 "MFA is not enabled")
    else if ¬ m.verifyPassword password u.passwordHash then
      .error (.http 401 "Incorrect password")
    else .ok ()

/-- What a call for an unknown user is told. -/
def FactorCall.unknown : FactorCall → Fault
  | .login _ => .http 401 "Invalid MFA state"
  | .enable _ _ | .disable _ _ => .http 401 "User not found or inactive"

/-- The second factor: nothing when it is wrong, and with a recovery code the one to be used. -/
def FactorCall.verify (d : MfaDb) (userId : Uuid) (u : MfaUser) (now : ℤ) :
    FactorCall → Option (Option (Uuid × ℤ))
  | .login code | .disable _ code =>
    if m.totp u code now then some none
    else (d.unusedCode userId (m.hashRecoveryCode code)).map fun rc => some (rc.id, now)
  | .enable code _ =>
    if m.verifyTotp (m.decryptSecret (u.mfaSecretEncrypted.getD "")) code now then some none
    else none

/-! ## Steps -/

/-- A call between two of its statements. -/
inductive GuardedSession where
  | started (call : FactorCall)
  /-- The challenge or the password has passed. -/
  | known (call : FactorCall) (u : MfaUser)
  /-- The user is not locked out. -/
  | allowed (call : FactorCall) (u : MfaUser)
  /-- The code is wrong, which is to be recorded. -/
  | failed
  /-- A recovery code is to be marked as used. -/
  | found (call : FactorCall) (rc : Uuid × ℤ)
  /-- The second factor has succeeded, and the counter is to be cleared. -/
  | succeeded (call : FactorCall) (rc : Option (Uuid × ℤ))
  /-- The call is to be committed. -/
  | settled (call : FactorCall) (rc : Option (Uuid × ℤ))
  | ended (result : Except Fault Unit)

variable (settings : MfaSettings) (userId : Uuid)

def invalidCode : Fault := .http 401 "Invalid MFA code"

/-- What follows from a second factor that has succeeded. -/
def FactorCall.success (call : FactorCall) (rc : Option (Uuid × ℤ)) : GuardedSession :=
  if call.guarded then .succeeded call rc else .settled call rc

/-- The second factor of a call. -/
def Guard.factor (d : Guard) (call : FactorCall) (u : MfaUser) : Guard × GuardedSession :=
  match call.verify m d.db userId u d.now with
  | some none => (d.note [.succeeded], call.success none)
  | some (some rc) => (d, .found call rc)
  | none => (d.note [.failed d.now], if call.guarded then .failed else .ended (.error invalidCode))

/-- The next statement of a call. -/
def GuardedSession.advance (d : Guard) : GuardedSession → Guard × GuardedSession
  | .started call =>
    match d.db.users userId with
    | none => (d, .ended (.error call.unknown))
    | some u =>
      match call.challenge m u with
      | .error fault => (d, .ended (.error fault))
      | .ok () => (d, .known call u)
  | .known call u =>
    if call.guarded then
      match d.assertNotLocked settings with
      | .error fault => (d, .ended (.error fault))
      | .ok () => (d.note [.passed d.now], .allowed call u)
    else (d.note [.passed d.now]).factor m userId call u
  | .allowed call u => d.factor m userId call u
  | .failed => (d.recordFailure settings, .ended (.error invalidCode))
  | .found call rc =>
    if (d.db.use (some rc)).isSome then (d.note [.succeeded], call.success (some rc))
    else (d, .ended (.error (.raised "StaleDataError")))
  | .succeeded call rc => (d.clear, .settled call rc)
  | .settled call rc =>
    match (MfaSession.settled call.toMfaCall userId rc).commit m d.db with
    | some db => ({ d with db }, .ended (.ok ()))
    | none => (d, .ended (.error (.raised "StaleDataError")))
  | .ended result => (d, .ended result)

structure LockoutState where
  shared : Guard
  sessions : List GuardedSession

inductive LockoutStep where
  | tick (now : ℤ)
  | call (call : FactorCall)
  | advance (n : ℕ)
  /-- What anybody else commits. -/
  | elsewhere (db : MfaDb)

def lockoutStep : LockoutStep → LockoutState → Option LockoutState
  | .tick now, s =>
    if s.shared.now ≤ now then some { s with shared := { s.shared with now } } else none
  | .call call, s => some { s with sessions := s.sessions ++ [.started call] }
  | .advance n, s => s.sessions[n]?.map fun session =>
    ⟨(session.advance m settings userId s.shared).1,
      s.sessions.set n (session.advance m settings userId s.shared).2⟩
  | .elsewhere db, s => some { s with shared := { s.shared with db } }

def LockoutState.init (db : MfaDb) (now : ℤ) : LockoutState := ⟨⟨db, now, none, []⟩, []⟩

/-! ## The calls as a limiter -/

def GuardedSession.isAllowed : GuardedSession → Bool
  | .allowed _ _ => true
  | _ => false

def GuardedSession.isFailed : GuardedSession → Bool
  | .failed => true
  | _ => false

def GuardedSession.isSucceeded : GuardedSession → Bool
  | .succeeded _ _ => true
  | _ => false

def LockoutState.limiter (s : LockoutState) : Limiter.State where
  now := s.shared.now
  counter := s.shared.counter
  deciding := s.sessions.countP (·.isAllowed)
  failed := s.sessions.countP (·.isFailed)
  clearing := s.sessions.countP (·.isSucceeded)
  log := s.shared.log

/-- The wrong codes that are counted, and the calls that may still add to them. -/
def LockoutState.attempts (s : LockoutState) : ℕ :=
  s.shared.get.getD 0 + s.sessions.countP (·.isAllowed) + s.sessions.countP (·.isFailed)

/-- The steps that do not reach around the lockout: nobody is let through while the attempts under
way could reach the limit, `disable_mfa` gets no wrong code, no code is found wrong before a success
has cleared the counter, and the counter does not expire before a wrong code is recorded. -/
def CodesCounted (s : LockoutState) : LockoutStep → Prop
  | .tick now => 0 < s.sessions.countP (·.isFailed) → ∀ count ∈ s.shared.counter,
      s.shared.now < count.2 → now < count.2
  | .advance n =>
    match s.sessions[n]? with
    | some (.known call u) =>
      if call.guarded then
        s.shared.assertNotLocked settings = .ok () → s.attempts < settings.mfaMaxAttempts
      else
        call.verify m s.shared.db userId u s.shared.now ≠ none ∧
          s.attempts < settings.mfaMaxAttempts
    | some (.allowed call u) =>
      call.verify m s.shared.db userId u s.shared.now = none →
        s.sessions.countP (·.isSucceeded) = 0
    | _ => True
  | .call _ | .elsewhere _ => True

/-- Calls that have asked for the lockout count their failures. -/
def LockoutState.Asked (s : LockoutState) : Prop :=
  ∀ call u, .allowed call u ∈ s.sessions → call.guarded = true

end

section

variable {settings : MfaSettings} {m : Mfa} {userId : Uuid} {s s' : LockoutState} {n : ℕ}
  {x y : GuardedSession} {call : FactorCall} {u : MfaUser}

theorem Guard.get_getD (d : Guard) : d.get.getD 0 = live d.counter d.now := by
  unfold Guard.get live
  rcases d.counter with _ | ⟨n, expiry⟩
  · rfl
  · by_cases h : d.now < expiry
    · simp [h]
    · simp [h]

/-- A session that goes on, as a change of the numbers. -/
theorem limiter_set (hx : s.sessions[n]? = some x) (d : Guard) (y : GuardedSession) :
    LockoutState.limiter ⟨d, s.sessions.set n y⟩ =
      ⟨d.now, d.counter,
        s.limiter.deciding - x.isAllowed.toNat + y.isAllowed.toNat,
        s.limiter.failed - x.isFailed.toNat + y.isFailed.toNat,
        s.limiter.clearing - x.isSucceeded.toNat + y.isSucceeded.toNat, d.log⟩ := by
  obtain ⟨hn, rfl⟩ := List.getElem?_eq_some_iff.mp hx
  have hcount : ∀ p : GuardedSession → Bool, (s.sessions.set n y).countP p =
      s.sessions.countP p - (p s.sessions[n]).toNat + (p y).toNat := by
    intro p
    rw [List.countP_set hn]
    cases p s.sessions[n] <;> cases p y <;> rfl
  unfold LockoutState.limiter
  simp only [hcount]

theorem countP_pos_of (hx : s.sessions[n]? = some x) {p : GuardedSession → Bool} (hp : p x = true) :
    0 < s.sessions.countP p :=
  List.countP_pos_iff.mpr ⟨x, List.mem_of_getElem? hx, hp⟩

/-- The second factor of a call that counts its failures. -/
theorem factor_inv (hx : s.sessions[n]? = some (.allowed call u)) (hguarded : call.guarded = true)
    (h : s.limiter.Inv settings.ttl settings.mfaMaxAttempts)
    (hcounted : call.verify m s.shared.db userId u s.shared.now = none →
      s.sessions.countP (·.isSucceeded) = 0) :
    (LockoutState.limiter ⟨(s.shared.factor m userId call u).1,
      s.sessions.set n (s.shared.factor m userId call u).2⟩).Inv settings.ttl
        settings.mfaMaxAttempts := by
  have hdeciding : 0 < s.limiter.deciding := countP_pos_of hx rfl
  rw [limiter_set hx]
  unfold Guard.factor
  cases hverify : call.verify m s.shared.db userId u s.shared.now with
  | none =>
    dsimp only
    rw [if_pos hguarded]
    exact h.fail hdeciding (hcounted hverify)
  | some used =>
    cases used with
    | none =>
      unfold FactorCall.success
      dsimp only
      rw [if_pos hguarded]
      exact h.leave.succeed true
    | some rc => exact h.leave

/-- The second factor of a call that does not. -/
theorem bypass_inv (hx : s.sessions[n]? = some (.known call u)) (hguarded : call.guarded = false)
    (h : s.limiter.Inv settings.ttl settings.mfaMaxAttempts)
    (hright : call.verify m s.shared.db userId u s.shared.now ≠ none)
    (hroom : s.attempts < settings.mfaMaxAttempts) :
    (LockoutState.limiter ⟨((s.shared.note [.passed s.shared.now]).factor m userId call u).1,
      s.sessions.set n ((s.shared.note [.passed s.shared.now]).factor m userId call u).2⟩).Inv
        settings.ttl settings.mfaMaxAttempts := by
  have hpass : (s.limiter.apply settings.ttl (.pass false)).Inv settings.ttl
      settings.mfaMaxAttempts := by
    refine h.pass ?_
    unfold LockoutState.attempts at hroom
    rw [Guard.get_getD] at hroom
    exact hroom
  rw [limiter_set hx]
  unfold Guard.factor
  cases hverify : call.verify m (s.shared.note [.passed s.shared.now]).db userId u
      (s.shared.note [.passed s.shared.now]).now with
  | none => exact absurd hverify hright
  | some used =>
    cases used with
    | none =>
      unfold FactorCall.success
      dsimp only
      rw [if_neg (by simp [hguarded])]
      exact hpass.succeed false
    | some rc => exact hpass

/-- A statement that changes neither the counter nor what calls have come to. -/
theorem quiet_inv (hx : s.sessions[n]? = some x) {d : Guard} (hnow : d.now = s.shared.now)
    (hcounter : d.counter = s.shared.counter) (hlog : d.log = s.shared.log)
    (hbefore : x.isAllowed = false ∧ x.isFailed = false ∧ x.isSucceeded = false)
    (hafter : y.isAllowed = false ∧ y.isFailed = false ∧ y.isSucceeded = false)
    (h : s.limiter.Inv settings.ttl settings.mfaMaxAttempts) :
    (LockoutState.limiter ⟨d, s.sessions.set n y⟩).Inv settings.ttl settings.mfaMaxAttempts := by
  rw [limiter_set hx, hnow, hcounter, hlog, hbefore.1, hbefore.2.1, hbefore.2.2, hafter.1,
    hafter.2.1, hafter.2.2]
  exact h

/-- **A statement of a call** keeps what an orderly limiter keeps. -/
theorem advance_inv (hx : s.sessions[n]? = some x) (hasked : s.Asked)
    (h : s.limiter.Inv settings.ttl settings.mfaMaxAttempts)
    (hcounted : CodesCounted m settings userId s (.advance n)) :
    (LockoutState.limiter ⟨(x.advance m settings userId s.shared).1,
      s.sessions.set n (x.advance m settings userId s.shared).2⟩).Inv settings.ttl
        settings.mfaMaxAttempts := by
  unfold CodesCounted at hcounted
  dsimp only at hcounted
  rw [hx] at hcounted
  cases x with
  | started call =>
    unfold GuardedSession.advance
    dsimp only
    split
    · exact quiet_inv hx rfl rfl rfl ⟨rfl, rfl, rfl⟩ ⟨rfl, rfl, rfl⟩ h
    · split
      · exact quiet_inv hx rfl rfl rfl ⟨rfl, rfl, rfl⟩ ⟨rfl, rfl, rfl⟩ h
      · exact quiet_inv hx rfl rfl rfl ⟨rfl, rfl, rfl⟩ ⟨rfl, rfl, rfl⟩ h
  | known call u =>
    dsimp only at hcounted
    unfold GuardedSession.advance
    dsimp only
    cases hguarded : call.guarded with
    | false =>
      rw [hguarded, if_neg Bool.false_ne_true] at hcounted
      rw [if_neg Bool.false_ne_true]
      exact bypass_inv hx hguarded h hcounted.1 hcounted.2
    | true =>
      rw [hguarded, if_pos rfl] at hcounted
      rw [if_pos rfl]
      split
      · exact quiet_inv hx rfl rfl rfl ⟨rfl, rfl, rfl⟩ ⟨rfl, rfl, rfl⟩ h
      · next hfree =>
        have hroom := hcounted hfree
        unfold LockoutState.attempts at hroom
        rw [Guard.get_getD] at hroom
        rw [limiter_set hx]
        exact h.pass hroom
  | allowed call u => exact factor_inv hx (hasked call u (List.mem_of_getElem? hx)) h hcounted
  | failed =>
    unfold GuardedSession.advance
    dsimp only
    rw [limiter_set hx]
    unfold Guard.recordFailure
    rw [Guard.get_getD]
    exact h.count (countP_pos_of hx rfl)
  | found call rc =>
    unfold GuardedSession.advance
    dsimp only
    split_ifs
    · rw [limiter_set hx]
      unfold FactorCall.success
      split_ifs
      · exact h.succeed true
      · exact h.succeed false
    · exact quiet_inv hx rfl rfl rfl ⟨rfl, rfl, rfl⟩ ⟨rfl, rfl, rfl⟩ h
  | succeeded call rc =>
    unfold GuardedSession.advance
    dsimp only
    rw [limiter_set hx]
    exact h.clear (countP_pos_of hx rfl)
  | settled call rc =>
    unfold GuardedSession.advance
    dsimp only
    split
    · exact quiet_inv hx rfl rfl rfl ⟨rfl, rfl, rfl⟩ ⟨rfl, rfl, rfl⟩ h
    · exact quiet_inv hx rfl rfl rfl ⟨rfl, rfl, rfl⟩ ⟨rfl, rfl, rfl⟩ h
  | ended result => exact quiet_inv hx rfl rfl rfl ⟨rfl, rfl, rfl⟩ ⟨rfl, rfl, rfl⟩ h

theorem factor_ne_allowed (d : Guard) (call call' : FactorCall) (u u' : MfaUser) :
    (d.factor m userId call u).2 ≠ .allowed call' u' := by
  unfold Guard.factor FactorCall.success
  split
  · split_ifs <;> nofun
  · nofun
  · split_ifs <;> nofun

/-- A call is allowed to go on when it has asked for the lockout. -/
theorem guarded_of_advance {d : Guard} (h : (x.advance m settings userId d).2 = .allowed call u) :
    call.guarded = true ∨ x = .allowed call u := by
  cases x with
  | started call' =>
    unfold GuardedSession.advance at h
    dsimp only at h
    split at h
    · cases h
    · split at h <;> cases h
  | known call' u' =>
    unfold GuardedSession.advance at h
    dsimp only at h
    split_ifs at h with hguarded
    · split at h
      · cases h
      · cases h
        exact .inl hguarded
    · exact absurd h (factor_ne_allowed _ _ _ _ _)
  | allowed call' u' => exact absurd h (factor_ne_allowed _ _ _ _ _)
  | failed => cases h
  | found call' rc =>
    unfold GuardedSession.advance FactorCall.success at h
    dsimp only at h
    split_ifs at h
  | succeeded call' rc => cases h
  | settled call' rc =>
    unfold GuardedSession.advance at h
    dsimp only at h
    split at h <;> cases h
  | ended result => cases h

/-- **What a step preserves.** -/
theorem lockoutStep_inv {a : LockoutStep}
    (h : s.Asked ∧ s.limiter.Inv settings.ttl settings.mfaMaxAttempts)
    (hcounted : CodesCounted m settings userId s a)
    (hstep : lockoutStep m settings userId a s = some s') :
    s'.Asked ∧ s'.limiter.Inv settings.ttl settings.mfaMaxAttempts := by
  obtain ⟨hasked, hinv⟩ := h
  cases a with
  | tick now =>
    obtain ⟨hnow, rfl⟩ := guarded_eq_some.mp hstep
    exact ⟨hasked, hinv.tick hnow fun hpending n expiry hcounter halive =>
      hcounted hpending (n, expiry) hcounter halive⟩
  | call call =>
    cases hstep
    refine ⟨fun call' u hmem => ?_, ?_⟩
    · rcases List.mem_append.mp hmem with hmem | hmem
      · exact hasked call' u hmem
      · cases List.mem_singleton.mp hmem
    · unfold LockoutState.limiter
      simp only [List.countP_append]
      exact hinv
  | advance n =>
    obtain ⟨x, hx, rfl⟩ := Option.map_eq_some_iff.mp hstep
    refine ⟨fun call u hmem => ?_, advance_inv hx hasked hinv hcounted⟩
    rcases List.mem_or_eq_of_mem_set hmem with hmem | heq
    · exact hasked call u hmem
    · rcases guarded_of_advance heq.symm with hguarded | rfl
      · exact hguarded
      · exact hasked call u (List.mem_of_getElem? hx)
  | elsewhere db =>
    cases hstep
    exact ⟨hasked, hinv⟩

end

/-! ## The lockout -/

/-- A user whose second factor is always wrong. -/
def wrongCodes : Mfa := ⟨id, fun _ _ _ => false, id, fun _ _ => true⟩

def lockoutUsers : MfaDb := ⟨fun _ => some ⟨"active", "", true, some "s"⟩, [], [], []⟩

/-- Six calls of `disable_mfa`, each with a wrong code. -/
def sixDisables : List LockoutStep :=
  (List.range 6).flatMap fun n => [.call (.disable "p" "0"), .advance n, .advance n]

end ScanPlatform

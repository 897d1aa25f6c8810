import Mathlib.Algebra.Order.Field.Rat
import Mathlib.Tactic.Positivity
import ScanPlatform.Base.Loop
import ScanPlatform.Base.PyText

/-!
# The lease loop and its backoff

`LeaseLoop.run` under any answers of the manager, with the backoff that its handlers share.

* `BackoffPolicy.nextDelay`: the delay, or the `OverflowError` of a power of two;
* `safeComplete`, `handleJob`, `runOnce`, `turn`, `run`: the loop, turn by turn;
* `Survives`: delays in bounds, and an end for one of the three reasons only;
* `Beat`, `beats`, `feed`: which backoffs and resets the answers lead to, and how they are counted;
* `Follows`: that the loop counts in this way;
* **`outlasts_iff`**: the loop survives unless there are 1025 backoffs in a row; `outage_kills` is
  such an outage.
-/

set_option autoImplicit false

namespace ScanPlatform

open Streak

namespace LeaseLoop

/-! ## The backoff -/

/-- A call of `random.uniform(0, delay)`. -/
structure Draw where
  uniform : ℚ → ℚ
  nonneg : ∀ delay, 0 ≤ delay → 0 ≤ uniform delay
  le : ∀ delay, 0 ≤ delay → uniform delay ≤ delay

structure BackoffPolicy where
  baseSeconds : ℚ
  maxSeconds : ℚ
  base_nonneg : 0 ≤ baseSeconds
  max_nonneg : 0 ≤ maxSeconds

/-- The delay and the next attempt; `none` is the `OverflowError` of the conversion of
`2 ** attempt`. A product beyond the floats is infinite, which the minimum is not. -/
@[irreducible] def BackoffPolicy.nextDelay (policy : BackoffPolicy) (draw : Draw) (attempt : ℕ) :
    Option (ℚ × ℕ) :=
  if 2 ^ attempt < floatOverflow then
    some (draw.uniform (min policy.maxSeconds (policy.baseSeconds * 2 ^ attempt)), attempt + 1)
  else none

/-! ## The loop -/

/-- What a call raises. -/
inductive Raised where
  | leaseError (reason : String)
  | exception
  deriving DecidableEq

structure Stats where
  leased : ℕ
  completed : ℕ
  failed : ℕ
  rejected : ℕ
  idle : ℕ

/-- The loop; `delays` has what the calls of `next_delay` have returned, and `none` where they have
raised. -/
structure LoopState where
  attempt : ℕ
  iterations : ℕ
  stats : Stats
  fatalReason : Option String
  delays : List (Option ℚ)

def initial : LoopState := ⟨0, 0, ⟨0, 0, 0, 0, 0⟩, none, []⟩

/-- `"WORKER_AUTH_FAILED"`. -/
def authFailed : String := "WORKER_AUTH_FAILED"

/-- `"MANAGER_REQUEST_REJECTED"`. -/
def requestRejected : String := "MANAGER_REQUEST_REJECTED"

inductive CompleteAnswer where
  | raised (e : Raised)
  /-- An answer that has no `get`. -/
  | malformed
  | answered (accepted : Bool)

/-- A call of `client.complete`, and what is drawn when it is followed by a delay. -/
structure CompleteCall where
  answer : CompleteAnswer
  draw : Draw

/-- How a leased job goes until its terminal write. -/
inductive Course where
  /-- By the checks of the worker. -/
  | rejected
  /-- Something else is raised, before the execution. -/
  | escaped
  /-- `status` is `failed` after an exception of the execution. -/
  | executed (status : String)

structure JobTurn where
  course : Course
  complete : ℕ → CompleteCall

inductive LeaseAnswer where
  | raised (e : Raised)
  | jobs (jobs : List JobTurn)

/-- What a turn of the loop meets. -/
structure Turn where
  stopRequested : Bool
  lease : LeaseAnswer
  draw : Draw

inductive Ended where
  | stopRequested
  | maxIterations
  | authFailed
  /-- An exception leaves `run`. -/
  | raised
  deriving DecidableEq

section

variable (policy : BackoffPolicy)

/-- `await asyncio.sleep(self.backoff.next_delay())`. -/
def backOff (draw : Draw) (s : LoopState) : LoopState × Except Raised Unit :=
  match policy.nextDelay draw s.attempt with
  | none => ({ s with delays := s.delays ++ [none] }, .error .exception)
  | some (delay, attempt) =>
    ({ s with attempt := attempt, delays := s.delays ++ [some delay] }, .ok ())

/-- `_safe_complete`, with `left` of its three attempts left. -/
def safeComplete (calls : ℕ → CompleteCall) : ℕ → LoopState → LoopState × Except Raised Bool
  | 0, s => (s, .ok false)
  | left + 1, s =>
    let call := calls (2 - left)
    match call.answer with
    | .raised (.leaseError reason) =>
      if reason = authFailed ∨ reason = requestRejected then (s, .ok false)
      else (s, .error (.leaseError reason))
    | .raised .exception =>
      if left = 0 then (s, .ok false)
      else
        match backOff policy call.draw s with
        | (s, .error e) => (s, .error e)
        | (s, .ok ()) => safeComplete calls left s
    | .malformed => (s, .error .exception)
    | .answered accepted => if accepted then ({ s with attempt := 0 }, .ok true) else (s, .ok false)

def isCompleted (status : String) : Bool :=
  status = "completed" ∨ status = "completed_with_errors"

def handleJob (j : JobTurn) (s : LoopState) : LoopState × Except Raised Unit :=
  match j.course with
  | .escaped => (s, .error .exception)
  | .rejected =>
    let s := { s with stats := { s.stats with rejected := s.stats.rejected + 1 } }
    match safeComplete policy j.complete 3 s with
    | (s, .error e) => (s, .error e)
    | (s, .ok _) => (s, .ok ())
  | .executed status =>
    match safeComplete policy j.complete 3 s with
    | (s, .error e) => (s, .error e)
    | (s, .ok accepted) =>
      if accepted ∧ isCompleted status then
        ({ s with stats := { s.stats with completed := s.stats.completed + 1 } }, .ok ())
      else if !isCompleted status then
        ({ s with stats := { s.stats with failed := s.stats.failed + 1 } }, .ok ())
      else (s, .ok ())

def handleJobs : List JobTurn → LoopState → LoopState × Except Raised Unit
  | [], s => (s, .ok ())
  | j :: js, s =>
    match handleJob policy j s with
    | (s, .error e) => (s, .error e)
    | (s, .ok ()) => handleJobs js s

/-- `run_once`, less the number of jobs that it returns. -/
def runOnce (lease : LeaseAnswer) (s : LoopState) : LoopState × Except Raised Unit :=
  match lease with
  | .raised e => (s, .error e)
  | .jobs [] => ({ s with stats := { s.stats with idle := s.stats.idle + 1 } }, .ok ())
  | .jobs jobs =>
    handleJobs policy jobs
      { s with stats := { s.stats with leased := s.stats.leased + jobs.length } }

/-- The handlers of `run` back off. -/
def survive (draw : Draw) (s : LoopState) : LoopState × Option Ended :=
  match backOff policy draw s with
  | (s, .error _) => (s, some .raised)
  | (s, .ok ()) => (s, none)

variable (maxIterations : Option ℕ)

/-- A turn of `run`, and its end. The reports of its health, which swallow what they raise, and the
sleep of an idle worker are left out. -/
def turn (t : Turn) (s : LoopState) : LoopState × Option Ended :=
  if t.stopRequested then (s, some .stopRequested)
  else if maxIterations.any (· ≤ s.iterations) then (s, some .maxIterations)
  else
    match runOnce policy t.lease { s with iterations := s.iterations + 1 } with
    | (s, .error (.leaseError reason)) =>
      if reason = authFailed then ({ s with fatalReason := some reason }, some .authFailed)
      else survive policy t.draw s
    | (s, .error .exception) => survive policy t.draw s
    | (s, .ok ()) => ({ s with attempt := 0 }, none)

/-- `run`, as far as these turns go. -/
def run : List Turn → LoopState → LoopState × Option Ended
  | [], s => (s, none)
  | t :: ts, s =>
    match turn policy maxIterations t s with
    | (s, some ended) => (s, some ended)
    | (s, none) => run ts s

/-! ## What it has to survive -/

/-- A delay that has been returned, and within the bounds. -/
def BackoffPolicy.InBounds (delay : Option ℚ) : Prop :=
  ∃ seconds, delay = some seconds ∧ 0 ≤ seconds ∧ seconds ≤ policy.maxSeconds

/-- The worker is refused. -/
def LeaseAnswer.refuses : LeaseAnswer → Bool
  | .raised e => e = .leaseError LeaseLoop.authFailed
  | .jobs _ => false

/-- The reasons for which the loop may end. -/
def Ended.Allowed (turns : List Turn) (s : LoopState) : Ended → Prop
  | .stopRequested => ∃ t ∈ turns, t.stopRequested
  | .maxIterations => ∃ n ∈ maxIterations, n ≤ s.iterations
  | .authFailed => ∃ t ∈ turns, t.lease.refuses
  | .raised => False

structure Survives (turns : List Turn) : Prop where
  delays : ∀ delay ∈ (run policy maxIterations turns initial).1.delays, policy.InBounds delay
  ended : ∀ ended, (run policy maxIterations turns initial).2 = some ended →
    ended.Allowed maxIterations turns (run policy maxIterations turns initial).1

end

/-! ## Backoffs and resets -/

/-- One after the other, unless the first raises. -/
def andThen (p q : List Event × Bool) : List Event × Bool :=
  if p.2 then p else (p.1 ++ q.1, q.2)

/-- What `_safe_complete` does to the policy, and whether it raises. -/
def completeEvents (calls : ℕ → CompleteCall) : ℕ → List Event × Bool
  | 0 => ([], false)
  | left + 1 =>
    match (calls (2 - left)).answer with
    | .raised (.leaseError reason) => ([], !(reason = authFailed ∨ reason = requestRejected))
    | .raised .exception =>
      if left = 0 then ([], false)
      else andThen ([.raise], false) (completeEvents calls left)
    | .malformed => ([], true)
    | .answered accepted => (if accepted then [.reset] else [], false)

def jobEvents (j : JobTurn) : List Event × Bool :=
  match j.course with
  | .escaped => ([], true)
  | _ => completeEvents j.complete 3

def jobsEvents : List JobTurn → List Event × Bool
  | [] => ([], false)
  | j :: js => andThen (jobEvents j) (jobsEvents js)

/-- What a poll does to the policy, and whether it raises. -/
def leaseEvents : LeaseAnswer → List Event × Bool
  | .raised _ => ([], true)
  | .jobs jobs => jobsEvents jobs

/-- At the end a turn backs off, or resets the policy. -/
def turnEvents (t : Turn) : List Event :=
  (leaseEvents t.lease).1 ++ [if (leaseEvents t.lease).2 then .raise else .reset]

/-- What the turns do to the policy, after `n` of them and until the loop ends. -/
def events (maxIterations : Option ℕ) : ℕ → List Turn → List Event
  | _, [] => []
  | n, t :: ts =>
    if t.stopRequested ∨ maxIterations.any (· ≤ n) ∨ t.lease.refuses then []
    else turnEvents t ++ events maxIterations (n + 1) ts

/-! ## The loop counts its backoffs -/

theorem two_pow_lt_floatOverflow_iff (attempt : ℕ) :
    2 ^ attempt < floatOverflow ↔ attempt < 1024 := by
  have hmono : ∀ {m n : ℕ}, m ≤ n → 2 ^ m ≤ 2 ^ n := Nat.pow_le_pow_right (by decide)
  have hsplit : floatOverflow = 2 ^ 1023 + (2 ^ 1023 - 2 ^ 970) := by
    rw [floatOverflow, pow_succ 2 1023]
    have := hmono (show 970 ≤ 1023 by decide)
    generalize 2 ^ 970 = a at *
    generalize 2 ^ 1023 = b at *
    omega
  have hlow : 2 ^ 1023 < floatOverflow := by
    have hlt : ∀ {m n : ℕ}, m < n → 2 ^ m < 2 ^ n := Nat.pow_lt_pow_right (by decide)
    have := hlt (show 970 < 1023 by decide)
    generalize 2 ^ 970 = a at *
    generalize 2 ^ 1023 = b at *
    omega
  have hhigh : floatOverflow ≤ 2 ^ 1024 := Nat.sub_le _ _
  constructor
  · intro h
    by_contra hge
    exact absurd (h.trans_le hhigh) (not_lt.mpr (hmono (not_lt.mp hge)))
  · intro h
    exact (hmono (Nat.le_of_lt_succ h)).trans_lt hlow

section

variable (policy : BackoffPolicy)

/-- The state after these events, and the delays between them. -/
def Follows (es : List Event) (s s' : LoopState) : Prop :=
  ∃ delays, s'.delays = s.delays ++ delays ∧
    match count 1024 s.attempt es with
    | some attempt => s'.attempt = attempt ∧ ∀ delay ∈ delays, policy.InBounds delay
    | none => none ∈ delays

variable {policy}

theorem Follows.nil {s s' : LoopState} (hattempt : s'.attempt = s.attempt)
    (hdelays : s'.delays = s.delays) : Follows policy [] s s' :=
  ⟨[], by simpa using hdelays, hattempt, by simp⟩

theorem Follows.append {es es' : List Event} {s s' s'' : LoopState} (h : Follows policy es s s')
    (h' : Follows policy es' s' s'') : Follows policy (es ++ es') s s'' := by
  obtain ⟨delays, hdelays, hcount⟩ := h
  obtain ⟨delays', hdelays', hcount'⟩ := h'
  refine ⟨delays ++ delays', by rw [hdelays', hdelays, List.append_assoc], ?_⟩
  rw [count_append]
  cases hes : count 1024 s.attempt es with
  | none =>
    rw [hes] at hcount
    exact List.mem_append_left _ hcount
  | some attempt =>
    rw [hes] at hcount
    obtain ⟨hattempt, hall⟩ := hcount
    rw [hattempt] at hcount'
    rw [Option.bind_some]
    cases hes' : count 1024 attempt es' with
    | none =>
      rw [hes'] at hcount'
      exact List.mem_append_right _ hcount'
    | some attempt' =>
      rw [hes'] at hcount'
      refine ⟨hcount'.1, fun delay hdelay => ?_⟩
      exact (List.mem_append.mp hdelay).elim (hall delay) (hcount'.2 delay)

/-- Where the counter has gone too far, it does not matter what the events were. -/
theorem Follows.of_none {es es' : List Event} {s s' : LoopState} (h : Follows policy es s s')
    (hnone : count 1024 s.attempt es = none) (hnone' : count 1024 s.attempt es' = none) :
    Follows policy es' s s' := by
  unfold Follows at *
  rw [hnone] at h
  rwa [hnone']

theorem Follows.append_of_none {es : List Event} {s s' : LoopState} (h : Follows policy es s s')
    (hnone : count 1024 s.attempt es = none) (es' : List Event) :
    Follows policy (es ++ es') s s' :=
  h.of_none hnone (by rw [count_append, hnone, Option.bind_none])

theorem Follows.attempt_eq {es : List Event} {s s' : LoopState} (h : Follows policy es s s')
    {attempt : ℕ} (hcount : count 1024 s.attempt es = some attempt) : s'.attempt = attempt := by
  obtain ⟨delays, -, hmatch⟩ := h
  rw [hcount] at hmatch
  exact hmatch.1

theorem nextDelay_eq (draw : Draw) (attempt : ℕ) :
    policy.nextDelay draw attempt =
      if attempt < 1024 then
        some (draw.uniform (min policy.maxSeconds (policy.baseSeconds * 2 ^ attempt)), attempt + 1)
      else none := by
  unfold BackoffPolicy.nextDelay
  simp only [two_pow_lt_floatOverflow_iff]

theorem draw_inBounds (draw : Draw) (attempt : ℕ) :
    policy.InBounds
      (some (draw.uniform (min policy.maxSeconds (policy.baseSeconds * 2 ^ attempt)))) := by
  have hnonneg : 0 ≤ min policy.maxSeconds (policy.baseSeconds * 2 ^ attempt) :=
    le_min policy.max_nonneg (mul_nonneg policy.base_nonneg (by positivity))
  exact ⟨_, rfl, draw.nonneg _ hnonneg, (draw.le _ hnonneg).trans (min_le_left _ _)⟩

variable {α β : Type}

variable (policy) in
/-- A computation that follows its events; it raises when they say so, or when the counter goes too
far, and never refuses the worker. -/
structure Does (es : List Event × Bool) (s : LoopState) (r : LoopState × Except Raised α) :
    Prop where
  follows : Follows policy es.1 s r.1
  iterations : r.1.iterations = s.iterations
  raises : (∃ e, r.2 = .error e) ↔ es.2 = true ∨ count 1024 s.attempt es.1 = none
  not_refused : r.2 ≠ .error (.leaseError authFailed)

/-- Nothing happens to the policy. -/
theorem Does.pure {s s' : LoopState} (a : α) (hattempt : s'.attempt = s.attempt)
    (hdelays : s'.delays = s.delays) (hiterations : s'.iterations = s.iterations) :
    Does policy ([], false) s (s', .ok a) :=
  ⟨.nil hattempt hdelays, hiterations, by simp [count], by simp⟩

theorem Does.raise {e : Raised} (s : LoopState) (he : e ≠ .leaseError authFailed) :
    Does policy ([], true) s (s, (.error e : Except Raised α)) :=
  ⟨.nil rfl rfl, rfl, by simp, by simpa using he⟩

/-- A computation that raises is the last one. -/
theorem Does.error {es : List Event × Bool} {s s' : LoopState} {e : Raised}
    (h : Does policy es s (s', (.error e : Except Raised α))) (es' : List Event × Bool) :
    Does policy (andThen es es') s (s', (.error e : Except Raised β)) := by
  have hraises := h.raises.mp ⟨e, rfl⟩
  have hrefused : (.error e : Except Raised β) ≠ .error (.leaseError authFailed) := by
    simpa using h.not_refused
  unfold andThen
  split_ifs with hes
  · exact ⟨h.follows, h.iterations, by simp [hes], hrefused⟩
  · have hnone := hraises.resolve_left hes
    refine ⟨h.follows.append_of_none hnone _, h.iterations, ?_, hrefused⟩
    simp [count_append, hnone]

/-- A computation that does not raise is followed by the next one. -/
theorem Does.ok {es es' : List Event × Bool} {s s' : LoopState} {a : α}
    {r : LoopState × Except Raised β} (h : Does policy es s (s', .ok a))
    (h' : Does policy es' s' r) : Does policy (andThen es es') s r := by
  have hraises : ¬ (es.2 = true ∨ count 1024 s.attempt es.1 = none) := by
    simp [← h.raises]
  rw [not_or] at hraises
  obtain ⟨attempt, hcount⟩ := Option.ne_none_iff_exists'.mp hraises.2
  rw [andThen, if_neg hraises.1]
  refine ⟨h.follows.append h'.follows, h'.iterations.trans h.iterations, ?_, h'.not_refused⟩
  rw [h'.raises, count_append, hcount, h.follows.attempt_eq hcount, Option.bind_some]

/-- A backoff raises the counter, unless it goes too far. -/
theorem backOff_does (draw : Draw) (s : LoopState) :
    Does policy ([.raise], false) s (backOff policy draw s) := by
  unfold backOff
  rw [nextDelay_eq]
  by_cases hlt : s.attempt < 1024
  · have hcount : count 1024 s.attempt [.raise] = some (s.attempt + 1) := if_pos hlt
    rw [if_pos hlt]
    refine ⟨⟨_, rfl, ?_⟩, rfl, by simp [hcount], by simp⟩
    rw [hcount]
    exact ⟨rfl, by simpa using draw_inBounds draw s.attempt⟩
  · have hcount : count 1024 s.attempt [.raise] = none := if_neg hlt
    rw [if_neg hlt]
    refine ⟨⟨_, rfl, ?_⟩, rfl, by simp [hcount], by simp⟩
    rw [hcount]
    exact List.mem_singleton_self _

theorem safeComplete_does (calls : ℕ → CompleteCall) (left : ℕ) (s : LoopState) :
    Does policy (completeEvents calls left) s (safeComplete policy calls left s) := by
  induction left generalizing s with
  | zero => exact .pure false rfl rfl rfl
  | succ left ih =>
    unfold completeEvents safeComplete
    dsimp only
    cases (calls (2 - left)).answer with
    | raised e =>
      cases e with
      | leaseError reason =>
        by_cases hreason : reason = authFailed ∨ reason = requestRejected
        · simp only [hreason, if_true, decide_true, Bool.not_true]
          exact .pure false rfl rfl rfl
        · simp only [hreason, if_false, decide_false, Bool.not_false]
          exact .raise s fun h => hreason (.inl (Raised.leaseError.inj h))
      | exception =>
        dsimp only
        split_ifs with hleft
        · exact .pure false rfl rfl rfl
        · have hback : Does policy ([.raise], false) s (backOff policy (calls (2 - left)).draw s) :=
            backOff_does _ s
          split
          · rename_i s' e hs'
            rw [hs'] at hback
            exact hback.error _
          · rename_i s' hs'
            rw [hs'] at hback
            exact hback.ok (ih s')
    | malformed => exact .raise s (by simp)
    | answered accepted =>
      cases accepted with
      | false => exact .pure false rfl rfl rfl
      | true =>
        refine ⟨⟨[], (List.append_nil _).symm, ?_⟩, rfl, by simp [count], by simp⟩
        exact ⟨rfl, by simp⟩

theorem andThen_nil (es : List Event × Bool) : andThen es ([], false) = es := by
  unfold andThen
  split_ifs with h
  · rfl
  · exact Prod.ext (List.append_nil _) (Bool.eq_false_iff.mpr h).symm

/-- What the policy has no part in may happen before a computation. -/
theorem Does.after {es : List Event × Bool} {s s₀ : LoopState} {r : LoopState × Except Raised α}
    (h : Does policy es s₀ r) (hattempt : s₀.attempt = s.attempt) (hdelays : s₀.delays = s.delays)
    (hiterations : s₀.iterations = s.iterations) : Does policy es s r :=
  Does.ok (.pure () hattempt hdelays hiterations) h

/-- And after it. -/
theorem Does.before {es : List Event × Bool} {s s' s'' : LoopState} {a : α}
    (h : Does policy es s (s', .ok a)) (b : β) (hattempt : s''.attempt = s'.attempt)
    (hdelays : s''.delays = s'.delays) (hiterations : s''.iterations = s'.iterations) :
    Does policy es s (s'', .ok b) := by
  rw [← andThen_nil es]
  exact h.ok (.pure b hattempt hdelays hiterations)

theorem handleJob_does (j : JobTurn) (s : LoopState) :
    Does policy (jobEvents j) s (handleJob policy j s) := by
  have hcomplete : ∀ s, Does policy (completeEvents j.complete 3) s
      (safeComplete policy j.complete 3 s) := safeComplete_does _ _
  unfold jobEvents handleJob
  cases j.course with
  | escaped => exact .raise s (by simp)
  | rejected =>
    have h := hcomplete { s with stats := { s.stats with rejected := s.stats.rejected + 1 } }
    dsimp only
    split
    · rename_i s' e hs'
      rw [hs'] at h
      rw [← andThen_nil (completeEvents _ _)]
      exact (h.error _).after rfl rfl rfl
    · rename_i s' accepted hs'
      rw [hs'] at h
      exact (h.before () rfl rfl rfl).after rfl rfl rfl
  | executed status =>
    have h := hcomplete s
    dsimp only
    split
    · rename_i s' e hs'
      rw [hs'] at h
      rw [← andThen_nil (completeEvents _ _)]
      exact h.error _
    · rename_i s' accepted hs'
      rw [hs'] at h
      split_ifs
      · exact h.before () rfl rfl rfl
      · exact h.before () rfl rfl rfl
      · exact h.before () rfl rfl rfl

theorem handleJobs_does (jobs : List JobTurn) (s : LoopState) :
    Does policy (jobsEvents jobs) s (handleJobs policy jobs s) := by
  induction jobs generalizing s with
  | nil => exact .pure () rfl rfl rfl
  | cons j js ih =>
    have hj : Does policy (jobEvents j) s (handleJob policy j s) := handleJob_does j s
    unfold jobsEvents handleJobs
    split
    · rename_i s' e hs'
      rw [hs'] at hj
      exact hj.error _
    · rename_i s' hs'
      rw [hs'] at hj
      exact hj.ok (ih s')

/-- A poll that does not refuse the worker. -/
theorem runOnce_does {lease : LeaseAnswer} (h : lease.refuses = false) (s : LoopState) :
    Does policy (leaseEvents lease) s (runOnce policy lease s) := by
  cases lease with
  | raised e =>
    refine .raise s ?_
    simpa [LeaseAnswer.refuses] using h
  | jobs jobs =>
    cases jobs with
    | nil => exact .pure () rfl rfl rfl
    | cons j js => exact Does.after (handleJobs_does (j :: js) _) rfl rfl rfl

end

/-! ## Turns and runs -/

section

variable (policy : BackoffPolicy) {maxIterations : Option ℕ}

/-- The handlers of a turn. -/
theorem survive_follows (draw : Draw) (s : LoopState) :
    Follows policy [.raise] s (survive policy draw s).1 ∧
      (survive policy draw s).1.iterations = s.iterations ∧
      (count 1024 s.attempt [.raise] ≠ none → (survive policy draw s).2 = none) ∧
      (survive policy draw s).2 ∈ [none, some .raised] := by
  have h : Does policy ([.raise], false) s (backOff policy draw s) := backOff_does draw s
  unfold survive
  split
  · rename_i s' e hs'
    rw [hs'] at h
    have hnone := (h.raises.mp ⟨e, rfl⟩).resolve_left Bool.false_ne_true
    exact ⟨h.follows, h.iterations, fun hsome => absurd hnone hsome, by simp⟩
  · rename_i s' hs'
    rw [hs'] at h
    exact ⟨h.follows, h.iterations, fun _ => rfl, by simp⟩

/-- **A turn** that is not the last one follows its events, and the loop goes on unless the counter
goes too far. -/
theorem turn_follows {t : Turn} {s : LoopState} (hstop : t.stopRequested = false)
    (hmax : maxIterations.any (· ≤ s.iterations) = false) (hrefuses : t.lease.refuses = false) :
    Follows policy (turnEvents t) s (turn policy maxIterations t s).1 ∧
      (turn policy maxIterations t s).1.iterations = s.iterations + 1 ∧
      (count 1024 s.attempt (turnEvents t) ≠ none → (turn policy maxIterations t s).2 = none) ∧
      (turn policy maxIterations t s).2 ∈ [none, some .raised] := by
  have h : Does policy (leaseEvents t.lease) { s with iterations := s.iterations + 1 }
    (runOnce policy t.lease { s with iterations := s.iterations + 1 }) := runOnce_does hrefuses _
  have hraised : ∀ (s' : LoopState) (e : Raised),
      runOnce policy t.lease { s with iterations := s.iterations + 1 } = (s', .error e) →
        turn policy maxIterations t s = survive policy t.draw s' := by
    intro s' e hs'
    have hne : e ≠ .leaseError authFailed := fun he => h.not_refused (by rw [hs', he])
    unfold turn
    rw [hstop, hmax, hs']
    cases e with
    | exception => rfl
    | leaseError reason => exact if_neg fun hreason => hne (congrArg _ hreason)
  rcases hrun : runOnce policy t.lease { s with iterations := s.iterations + 1 } with ⟨s', r⟩
  rw [hrun] at h
  have hiterations : s'.iterations = s.iterations + 1 := h.iterations
  cases r with
  | error e =>
    obtain ⟨hfollows, hsame, hgoes, hends⟩ := survive_follows policy t.draw s'
    have hall : Follows policy ((leaseEvents t.lease).1 ++ [.raise]) s
        (survive policy t.draw s').1 := h.follows.append hfollows
    rw [hraised s' e hrun]
    unfold turnEvents
    by_cases hes : (leaseEvents t.lease).2 = true
    · rw [if_pos hes]
      refine ⟨hall, hsame.trans hiterations, fun hcount => hgoes ?_, hends⟩
      rw [count_append] at hcount
      have hsome : count 1024 s.attempt (leaseEvents t.lease).1 ≠ none :=
        fun hnone => hcount (by rw [hnone, Option.bind_none])
      obtain ⟨attempt, hattempt⟩ := Option.ne_none_iff_exists'.mp hsome
      rw [hattempt, Option.bind_some] at hcount
      rwa [h.follows.attempt_eq hattempt]
    · have hnone : count 1024 s.attempt (leaseEvents t.lease).1 = none :=
        (h.raises.mp ⟨e, rfl⟩).resolve_left hes
      have happend : ∀ es, count 1024 s.attempt ((leaseEvents t.lease).1 ++ es) = none :=
        fun es => by rw [count_append, hnone, Option.bind_none]
      exact ⟨hall.of_none (happend _) (happend _), hsame.trans hiterations,
        fun hcount => absurd (happend _) hcount, hends⟩
  | ok u =>
    have hquiet : ¬ (leaseEvents t.lease).2 = true := fun hes => by
      simpa using h.raises.mpr (.inl hes)
    have hturn : turn policy maxIterations t s = ({ s' with attempt := 0 }, none) := by
      unfold turn
      rw [hstop, hmax, hrun]
      rfl
    have hreset : Follows policy [.reset] s' { s' with attempt := 0 } :=
      ⟨[], (List.append_nil _).symm, rfl, by simp⟩
    rw [hturn, turnEvents, if_neg hquiet]
    exact ⟨h.follows.append hreset, hiterations, fun _ => rfl, by simp⟩

/-- **The last turn**, which leaves the policy alone. -/
theorem turn_last {t : Turn} {s : LoopState} (ts : List Turn)
    (hlast : t.stopRequested ∨ maxIterations.any (· ≤ s.iterations) ∨ t.lease.refuses) :
    ∃ s' ended, turn policy maxIterations t s = (s', some ended) ∧
      s'.attempt = s.attempt ∧ s'.delays = s.delays ∧
        ended.Allowed maxIterations (t :: ts) s' := by
  unfold turn
  by_cases hstop : t.stopRequested
  · rw [if_pos hstop]
    exact ⟨_, _, rfl, rfl, rfl, t, List.mem_cons_self, hstop⟩
  rw [if_neg hstop]
  by_cases hmax : maxIterations.any (· ≤ s.iterations)
  · rw [if_pos hmax]
    obtain ⟨n, hn, hle⟩ := Option.any_eq_true _ _ |>.mp hmax
    exact ⟨_, _, rfl, rfl, rfl, n, hn, of_decide_eq_true hle⟩
  rw [if_neg hmax]
  have hrefuses := (hlast.resolve_left hstop).resolve_left hmax
  cases hlease : t.lease with
  | jobs jobs => simp [hlease, LeaseAnswer.refuses] at hrefuses
  | raised e =>
    have he : e = .leaseError authFailed := by simpa [hlease, LeaseAnswer.refuses] using hrefuses
    subst he
    exact ⟨_, _, rfl, rfl, rfl, t, List.mem_cons_self, hrefuses⟩

omit policy in
theorem Ended.Allowed.cons {ended : Ended} {ts : List Turn} {s : LoopState}
    (h : ended.Allowed maxIterations ts s) (t : Turn) :
    ended.Allowed maxIterations (t :: ts) s := by
  cases ended with
  | stopRequested => exact h.imp fun _ h => ⟨List.mem_cons_of_mem _ h.1, h.2⟩
  | maxIterations => exact h
  | authFailed => exact h.imp fun _ h => ⟨List.mem_cons_of_mem _ h.1, h.2⟩
  | raised => exact h

variable (maxIterations) in
/-- **A run** follows its events, and unless the counter goes too far it ends as it may. -/
theorem run_follows (turns : List Turn) (s : LoopState) :
    Follows policy (events maxIterations s.iterations turns) s
        (run policy maxIterations turns s).1 ∧
      (count 1024 s.attempt (events maxIterations s.iterations turns) ≠ none →
        ∀ ended, (run policy maxIterations turns s).2 = some ended →
          ended.Allowed maxIterations turns (run policy maxIterations turns s).1) := by
  induction turns generalizing s with
  | nil => exact ⟨.nil rfl rfl, fun _ ended h => by cases h⟩
  | cons t ts ih =>
    unfold events run
    by_cases hlast : t.stopRequested ∨ maxIterations.any (· ≤ s.iterations) ∨ t.lease.refuses
    · obtain ⟨s', ended, hturn, hattempt, hdelays, hallowed⟩ := turn_last policy ts hlast
      rw [if_pos hlast, hturn]
      refine ⟨.nil hattempt hdelays, fun _ ended' hended => ?_⟩
      obtain rfl := Option.some.inj hended
      exact hallowed
    · rw [if_neg hlast]
      simp only [not_or, Bool.not_eq_true] at hlast
      obtain ⟨hfollows, hiterations, hgoes, hends⟩ :=
        turn_follows policy hlast.1 hlast.2.1 hlast.2.2
      rcases hturn : turn policy maxIterations t s with ⟨s', ended⟩
      rw [hturn] at hfollows hiterations hgoes hends
      simp only [List.mem_cons, List.not_mem_nil, or_false] at hends
      dsimp only at hfollows hiterations hgoes hends
      rw [← hiterations]
      rcases hends with rfl | rfl
      · obtain ⟨hrest, hallowed⟩ := ih s'
        refine ⟨hfollows.append hrest, fun hcount ended hended => ?_⟩
        rw [count_append] at hcount
        have hsome : count 1024 s.attempt (turnEvents t) ≠ none :=
          fun hnone => hcount (by rw [hnone, Option.bind_none])
        obtain ⟨attempt, hattempt⟩ := Option.ne_none_iff_exists'.mp hsome
        rw [hattempt, Option.bind_some, ← hfollows.attempt_eq hattempt] at hcount
        exact (hallowed hcount ended hended).cons t
      · have hnone : count 1024 s.attempt (turnEvents t) = none := by
          by_contra hsome
          cases hgoes hsome
        refine ⟨hfollows.append_of_none hnone _, fun hcount => absurd ?_ hcount⟩
        rw [count_append, hnone, Option.bind_none]

end

/-! ## When the loop survives -/

theorem Survives.count_ne_none {policy : BackoffPolicy} {maxIterations : Option ℕ}
    {turns : List Turn} (h : Survives policy maxIterations turns) :
    count 1024 0 (events maxIterations 0 turns) ≠ none := by
  obtain ⟨⟨delays, hdelays, hcount⟩, -⟩ := run_follows policy maxIterations turns initial
  intro hnone
  have hmem : none ∈ delays := by simpa [initial, hnone] using hcount
  obtain ⟨seconds, hseconds, -⟩ := h.delays none (hdelays ▸ List.mem_append_right _ hmem)
  cases hseconds

/-- **The loop survives** every sequence of answers without 1025 backoffs in a row. -/
theorem outlasts_iff (policy : BackoffPolicy) (maxIterations : Option ℕ) (turns : List Turn) :
    Survives policy maxIterations turns ↔
      ¬ List.replicate 1025 .raise <:+: events maxIterations 0 turns := by
  rw [← count_zero_eq_none_iff]
  refine ⟨Survives.count_ne_none, fun hsome => ?_⟩
  obtain ⟨⟨delays, hdelays, hcount⟩, hends⟩ := run_follows policy maxIterations turns initial
  obtain ⟨attempt, hattempt⟩ := Option.ne_none_iff_exists'.mp hsome
  refine ⟨fun delay hdelay => ?_, hends hsome⟩
  have hall : ∀ delay ∈ delays, policy.InBounds delay := by
    rw [show initial.attempt = 0 from rfl, show initial.iterations = 0 from rfl, hattempt] at hcount
    exact hcount.2
  exact hall delay (hdelays ▸ hdelay : delay ∈ [] ++ delays)

/-- The defaults of the policy. -/
def labBackoff : BackoffPolicy := ⟨1, 60, by decide, by decide⟩

/-- A poll that does not reach the manager; the longest delay is drawn. -/
def labOutage : Turn := ⟨false, .raised .exception, ⟨id, fun _ => id, fun _ _ => le_rfl⟩⟩

theorem labOutage_events (k n : ℕ) :
    events none n (List.replicate k labOutage) = List.replicate k .raise := by
  induction k generalizing n with
  | zero => rfl
  | succ k ih =>
    rw [List.replicate_succ, List.replicate_succ, ← ih (n + 1)]
    rfl

/-- An outage ends the loop when the counter arrives at 1024. -/
theorem labOutage_run (k : ℕ) {s : LoopState} (hs : s.attempt + k = 1024) :
    (run labBackoff none (List.replicate (k + 1) labOutage) s).2 = some .raised := by
  have hturn : ∀ s, turn labBackoff none labOutage s =
      survive labBackoff labOutage.draw { s with iterations := s.iterations + 1 } := fun _ => rfl
  induction k generalizing s with
  | zero =>
    have hlt : ¬ s.attempt < 1024 := by omega
    rw [List.replicate_succ, run, hturn, survive, backOff, nextDelay_eq, if_neg hlt]
  | succ k ih =>
    have hlt : s.attempt < 1024 := by omega
    rw [List.replicate_succ, run, hturn, survive, backOff, nextDelay_eq, if_pos hlt]
    exact ih (by dsimp only; omega)

/-- **An outage kills the worker** with its 1025th poll. -/
theorem outage_kills :
    ¬ Survives labBackoff none (List.replicate 1025 labOutage) ∧
      (run labBackoff none (List.replicate 1025 labOutage) initial).2 = some .raised := by
  refine ⟨fun h => h.count_ne_none ?_, labOutage_run 1024 rfl⟩
  exact (count_zero_eq_none_iff _).mpr (labOutage_events 1025 0 ▸ List.infix_refl _)

end LeaseLoop

end ScanPlatform

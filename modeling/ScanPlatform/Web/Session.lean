import Mathlib.Algebra.Order.Ring.Int
import Mathlib.Data.List.Count
import Mathlib.Data.List.Nodup
import ScanPlatform.Base.CondMachine
import ScanPlatform.Base.Table

/-!
# The session of a browser tab

The API client of a tab: any number of calls, one refresh for all of them when the access token has
expired, and the refresh token in a cookie that the client never sees. Between two `await`s the
client runs alone; answers come in any order, or not at all.

* `Call`, `Outcome`, `Tab`: the calls in progress, how a refresh ends, and the state of the module
  with the cookie jar of the browser;
* `tryRefresh`, `answered`, `settled`: what an answer makes of a call, and what the end of a refresh
  makes of those that wait for it;
* `tabStep`: the steps, with everything the network may do;
* `Tab.Inv`, **`inv_step`**: what the module keeps;
* **`session_safe`**: what follows for every run.
-/

set_option autoImplicit false

namespace ScanPlatform.Web.Api

open CondMachine

/-! ## The client -/

/-- `REFRESH_COALESCE_MS`. -/
def refreshCoalesceMs : ℤ := 500

/-- A call of `api` that awaits an answer. -/
inductive Call where
  /-- The first answer is awaited. -/
  | first (withAuth : Bool)
  /-- The second answer is awaited. -/
  | second

/-- How a refresh ends. -/
inductive Outcome where
  | ok (access cookie : String)
  /-- The cookie is set, but the body cannot be read. -/
  | unread (cookie : String)
  /-- An answer that is not `ok`, or none. -/
  | failed
  deriving DecidableEq

/-- The cookie that is set. -/
def Outcome.cookie : Outcome → Option String
  | .ok _ cookie | .unread cookie => some cookie
  | .failed => none

/-- The access token that is read. -/
def Outcome.access : Outcome → Option String
  | .ok access _ => some access
  | .unread _ | .failed => none

/-- What happens on the network. -/
inductive Event where
  /-- A request of the call is sent. -/
  | fetch (n : ℕ)
  /-- `/auth/refresh` is sent with a cookie, or without. -/
  | presented (cookie : Option String) (sentAt : ℤ)
  /-- The refresh with that cookie ends. -/
  | ended (cookie : Option String) (endedAt : ℤ) (outcome : Outcome)
  deriving DecidableEq

/-- The module with the calls that await the promise of the refresh, and with the cookie of the
browser, the refreshes that are on the network, the cookies that the server has set so far, the time
and what has happened. -/
structure Tab where
  accessToken : Option String
  cookie : Option String
  refreshInFlight : Bool
  lastRefresh : Option ℤ
  calls : Table ℕ Call
  waiting : List ℕ
  flights : List (Option String)
  issued : List String
  now : ℤ
  log : List Event

/-- A tab that has just been loaded, with the cookie of an earlier session. -/
def Tab.init (cookie : Option String) (now : ℤ) : Tab :=
  ⟨none, cookie, false, none, fun _ => none, [], [], cookie.toList, now, []⟩

/-- `rawFetch` of a call. -/
def Tab.send (s : Tab) (n : ℕ) (call : Call) : Tab :=
  { s with calls := s.calls.set n call, log := s.log ++ [.fetch n] }

/-- The call returns or throws. -/
def Tab.finish (s : Tab) (n : ℕ) : Tab := { s with calls := Function.update s.calls n none }

/-- The call awaits the promise of the refresh. -/
def Tab.wait (s : Tab) (n : ℕ) : Tab := { s.finish n with waiting := s.waiting ++ [n] }

/-- `tryRefresh` of a call, up to its first `await`, and the second request where there is none. -/
def tryRefresh (s : Tab) (n : ℕ) : Tab :=
  if s.refreshInFlight then s.wait n
  else if ∃ l ∈ s.lastRefresh, s.now - l < refreshCoalesceMs then s.send n .second
  else { s.wait n with
    refreshInFlight := true
    flights := s.flights ++ [s.cookie]
    log := s.log ++ [.presented s.cookie s.now] }

/-- What `api` makes of the answer to a request. -/
def answered (s : Tab) (n : ℕ) (call : Call) (status : ℕ) : Tab :=
  match call with
  | .first withAuth => if status = 401 ∧ withAuth then tryRefresh s n else s.finish n
  | .second => s.finish n

/-- The refresh that has sent `sent` ends, and the calls that wait for it go on. -/
def settled (s : Tab) (sent : Option String) (flights : List (Option String))
    (outcome : Outcome) : Tab :=
  let sending := if outcome.access.isSome then s.waiting else []
  { s with
    accessToken := outcome.access.or s.accessToken
    cookie := outcome.cookie.or s.cookie
    refreshInFlight := false
    lastRefresh := if outcome.access.isSome then some s.now else s.lastRefresh
    calls := fun n => if n ∈ sending then some .second else s.calls n
    waiting := []
    flights
    issued := s.issued ++ outcome.cookie.toList
    log := s.log ++ .ended sent s.now outcome :: sending.map .fetch }

inductive TabStep where
  /-- `api` is called. -/
  | api (n : ℕ) (withAuth : Bool)
  | answer (n : ℕ) (status : ℕ)
  /-- There is no answer to a request. -/
  | lost (n : ℕ)
  | refreshed (outcome : Outcome)
  /-- A login or a registration is answered. -/
  | login (access cookie : String)
  /-- A logout is answered: the cookie is expired. -/
  | logout
  /-- `tokens.clear`. -/
  | clear
  | tick (now : ℤ)

/-- A step. The server sets no cookie twice, and the clock does not run back. -/
def tabStep : TabStep → Tab → Option Tab
  | .api n withAuth, s =>
    if Event.fetch n ∉ s.log then some (s.send n (.first withAuth)) else none
  | .answer n status, s => (s.calls n).map fun call => answered s n call status
  | .lost n, s => (s.calls n).map fun _ => s.finish n
  | .refreshed outcome, s =>
    match s.flights with
    | [] => none
    | sent :: flights =>
      if ∀ cookie ∈ outcome.cookie, cookie ∉ s.issued then
        some (settled s sent flights outcome)
      else none
  | .login access cookie, s =>
    if cookie ∉ s.issued then
      some { s with accessToken := some access, cookie := some cookie,
                    issued := s.issued ++ [cookie] }
    else none
  | .logout, s => some { s with cookie := none }
  | .clear, s => some { s with accessToken := none }
  | .tick now, s => if s.now ≤ now then some { s with now } else none

/-! ## What the module keeps -/

/-- A cookie that has been replaced is presented no more, and after a refresh that has been read the
next one has to wait. -/
def Follows : Event → Event → Prop
  | .ended sent endedAt outcome, .presented cookie sentAt =>
    (outcome.cookie.isSome → ∀ c ∈ sent, cookie ≠ some c) ∧
      (outcome.access.isSome → endedAt + refreshCoalesceMs ≤ sentAt)
  | _, _ => True

/-- The requests that a call has sent, at most. -/
def Call.sent : Call → ℕ
  | .first _ => 1
  | .second => 2

theorem Call.sent_le (call : Call) : call.sent ≤ 2 := by
  cases call with
  | first => exact Nat.le_succ 1
  | second => exact Nat.le_refl 2

structure Tab.Inv (s : Tab) : Prop where
  flying : s.flights.length = if s.refreshInFlight then 1 else 0
  queue : s.waiting.Nodup
  queued : ∀ n ∈ s.waiting, s.calls n = none ∧ s.log.count (.fetch n) = 1
  sent : ∀ n, s.log.count (.fetch n) ≤ (s.calls n).elim 2 Call.sent
  awaited : ∀ n, (s.calls n).isSome → .fetch n ∈ s.log
  cookie : ∀ c ∈ s.cookie, c ∈ s.issued
  flown : ∀ sent ∈ s.flights, ∀ c ∈ sent, c ∈ s.issued
  ended : ∀ sent endedAt outcome, .ended sent endedAt outcome ∈ s.log →
    (outcome.cookie.isSome → ∀ c ∈ sent, c ∈ s.issued ∧ s.cookie ≠ some c) ∧
      (outcome.access.isSome → ∃ l ∈ s.lastRefresh, endedAt ≤ l)
  last : ∀ l ∈ s.lastRefresh, l ≤ s.now
  follows : s.log.Pairwise Follows

variable {s s' : Tab} {a : TabStep} {n : ℕ}

theorem inv_init (cookie : Option String) (now : ℤ) : (Tab.init cookie now).Inv where
  flying := rfl
  queue := List.nodup_nil
  queued n h := absurd h List.not_mem_nil
  sent n := by simp [Tab.init]
  awaited n h := by simp [Tab.init] at h
  cookie c hc := by simpa [Tab.init] using hc
  flown sent h := absurd h List.not_mem_nil
  ended sent endedAt outcome h := absurd h List.not_mem_nil
  last l h := by cases h
  follows := .nil

theorem follows_fetch (e : Event) (n : ℕ) : Follows e (.fetch n) := by
  cases e <;> trivial

theorem follows_ended (e : Event) (sent : Option String) (endedAt : ℤ) (outcome : Outcome) :
    Follows e (.ended sent endedAt outcome) := by
  cases e <;> trivial

/-- No refresh is sent. -/
theorem follows_append {log events : List Event} (h : log.Pairwise Follows)
    (hne : ∀ e ∈ events, ∀ e', Follows e' e) : (log ++ events).Pairwise Follows := by
  refine List.pairwise_append.mpr ⟨h, ?_, fun e _ e' he' => hne e' he' e⟩
  exact List.pairwise_of_forall_mem_list fun e _ e' he' => hne e' he' e

/-- A call that waits for nothing else sends a request. -/
theorem inv_send (hs : s.Inv) (hn : n ∉ s.waiting) {call : Call}
    (hsent : s.log.count (.fetch n) + 1 ≤ call.sent) : (s.send n call).Inv := by
  have hcount : ∀ m, m ≠ n →
      (s.log ++ [Event.fetch n]).count (.fetch m) = s.log.count (.fetch m) := by
    intro m hmn
    have hne : Event.fetch n ≠ .fetch m := fun heq => hmn (Event.fetch.inj heq).symm
    rw [List.count_append, List.count_singleton, if_neg (by simpa using hne), Nat.add_zero]
  refine
    { hs with
      queued := fun m hm => ?_
      sent := fun m => ?_
      awaited := fun m hm => ?_
      ended := fun sent endedAt outcome h => ?_
      follows := ?_ }
  · have hmn : m ≠ n := fun heq => hn (heq ▸ hm)
    obtain ⟨hnone, hone⟩ := hs.queued m hm
    exact ⟨by simpa [Tab.send, Table.set_apply, hmn] using hnone, (hcount m hmn).trans hone⟩
  · by_cases hmn : m = n
    · subst hmn
      show (s.log ++ [Event.fetch m]).count (.fetch m) ≤ _
      rw [List.count_append, List.count_singleton_self]
      simpa [Tab.send] using hsent
    · show (s.log ++ [Event.fetch n]).count (.fetch m) ≤ _
      rw [hcount m hmn]
      simpa [Tab.send, Table.set_apply, hmn] using hs.sent m
  · by_cases hmn : m = n
    · rw [hmn]
      exact List.mem_append_right _ (List.mem_singleton_self _)
    · have hm' := hs.awaited m (by simpa [Tab.send, Table.set_apply, hmn] using hm)
      exact List.mem_append_left _ hm'
  · exact hs.ended sent endedAt outcome ((List.mem_append.mp h).resolve_right (by simp))
  · refine follows_append hs.follows fun e he e' => ?_
    rw [List.mem_singleton.mp he]
    exact follows_fetch e' n

theorem calls_finish (s : Tab) (n m : ℕ) :
    (s.finish n).calls m = if m = n then none else s.calls m := by
  show Function.update s.calls n none m = _
  by_cases hmn : m = n
  · rw [hmn, Function.update_self, if_pos rfl]
  · rw [Function.update_of_ne hmn, if_neg hmn]

/-- A call ends. -/
theorem inv_finish (hs : s.Inv) {call : Call} (hn : s.calls n = some call) :
    (s.finish n).Inv := by
  refine { hs with queued := fun m hm => ?_, sent := fun m => ?_, awaited := fun m hm => ?_ }
  · obtain ⟨hnone, hone⟩ := hs.queued m hm
    refine ⟨?_, hone⟩
    rw [calls_finish, hnone, ite_self]
  · rw [calls_finish]
    have hold := hs.sent m
    split_ifs with hmn
    · rw [hmn, hn] at hold
      rw [hmn]
      exact le_trans hold call.sent_le
    · exact hold
  · rw [calls_finish] at hm
    split_ifs at hm
    · exact absurd hm Bool.false_ne_true
    · exact hs.awaited m hm

/-- A call whose first request has been answered waits for the refresh. -/
theorem inv_wait (hs : s.Inv) {withAuth : Bool} (hn : s.calls n = some (.first withAuth)) :
    (s.wait n).Inv := by
  have hf := inv_finish hs hn
  have hnew : n ∉ s.waiting := by
    intro hmem
    rw [(hs.queued n hmem).1] at hn
    cases hn
  refine { hf with queue := ?_, queued := fun m hm => ?_ }
  · refine List.nodup_append.mpr ⟨hs.queue, List.nodup_singleton n, fun m hm k hk heq => ?_⟩
    exact hnew (List.mem_singleton.mp hk ▸ heq ▸ hm)
  · rcases List.mem_append.mp hm with hm | hm
    · exact hf.queued m hm
    · rw [List.mem_singleton.mp hm]
      have hone := hs.sent n
      rw [hn] at hone
      have hpos := List.count_pos_iff.mpr (hs.awaited n (by rw [hn]; rfl))
      refine ⟨?_, le_antisymm hone hpos⟩
      show (s.finish n).calls n = none
      rw [calls_finish, if_pos rfl]

/-- A call whose first request has been answered with 401. -/
theorem inv_tryRefresh (hs : s.Inv) {withAuth : Bool} (hn : s.calls n = some (.first withAuth)) :
    (tryRefresh s n).Inv := by
  have hw := inv_wait hs hn
  unfold tryRefresh
  split_ifs with hflight hlast
  · exact hw
  · refine inv_send hs (fun hmem => ?_) ?_
    · rw [(hs.queued n hmem).1] at hn
      cases hn
    · have hone := hs.sent n
      rw [hn] at hone
      exact Nat.succ_le_succ hone
  · -- A refresh is sent, and it is the only one.
    have hnone : s.flights = [] := by
      have hlen := hs.flying
      rw [if_neg hflight] at hlen
      exact List.eq_nil_of_length_eq_zero hlen
    have hcount : ∀ m, (s.log ++ [Event.presented s.cookie s.now]).count (.fetch m) =
        s.log.count (.fetch m) := by
      intro m
      rw [List.count_append, List.count_singleton]
      simp
    refine
      { hw with
        flying := by simp [hnone]
        queued := fun m hm => ⟨(hw.queued m hm).1, (hcount m).trans (hw.queued m hm).2⟩
        sent := fun m => (hcount m).trans_le (hw.sent m)
        awaited := fun m hm => List.mem_append_left _ (hw.awaited m hm)
        flown := fun sent hsent c hc => ?_
        ended := fun sent endedAt outcome h => ?_
        follows := ?_ }
    · rw [hnone, List.nil_append, List.mem_singleton] at hsent
      exact hs.cookie c (hsent ▸ hc)
    · exact hs.ended sent endedAt outcome ((List.mem_append.mp h).resolve_right (by simp))
    · refine List.pairwise_append.mpr ⟨hs.follows, List.pairwise_singleton _ _, ?_⟩
      intro e he e' he'
      rw [List.mem_singleton.mp he']
      cases e with
      | fetch => trivial
      | presented => trivial
      | ended sent endedAt outcome =>
        obtain ⟨hcookie, haccess⟩ := hs.ended sent endedAt outcome he
        refine ⟨fun hsome c hc => (hcookie hsome c hc).2, fun hsome => ?_⟩
        obtain ⟨l, hl, hle⟩ := haccess hsome
        have hlong : ¬ s.now - l < refreshCoalesceMs := fun hlt => hlast ⟨l, hl, hlt⟩
        omega

/-- The only refresh ends. -/
theorem flights_of_settled (hs : s.Inv) {sent : Option String} {flights : List (Option String)}
    (hflights : s.flights = sent :: flights) : flights = [] := by
  have hlen := hs.flying
  rw [hflights, List.length_cons] at hlen
  split_ifs at hlen
  exact List.eq_nil_of_length_eq_zero (Nat.succ.inj hlen)

/-- The end of a refresh, for the cookies. -/
theorem ended_settled (hs : s.Inv) {sent : Option String} {outcome : Outcome}
    (hissued : ∀ c ∈ sent, c ∈ s.issued) (hfresh : ∀ c ∈ outcome.cookie, c ∉ s.issued)
    {x : Option String} {endedAt : ℤ} {o : Outcome}
    (h : .ended x endedAt o ∈ s.log ∨ x = sent ∧ endedAt = s.now ∧ o = outcome) :
    (o.cookie.isSome → ∀ c ∈ x, c ∈ s.issued ++ outcome.cookie.toList ∧
        outcome.cookie.or s.cookie ≠ some c) ∧
      (o.access.isSome → ∃ l ∈ (if outcome.access.isSome then some s.now else s.lastRefresh),
        endedAt ≤ l) := by
  -- The new cookie has not been there before.
  have hnew : ∀ c ∈ s.issued, s.cookie ≠ some c ∨ outcome.cookie.isSome →
      outcome.cookie.or s.cookie ≠ some c := by
    intro c hc hor heq
    rcases Option.or_eq_some_iff.mp heq with heq | ⟨hnil, heq⟩
    · exact hfresh c heq hc
    · rcases hor with hne | hsome
      · exact hne heq
      · rw [hnil] at hsome
        exact Bool.false_ne_true hsome
  rcases h with h | ⟨rfl, rfl, rfl⟩
  · obtain ⟨hcookie, haccess⟩ := hs.ended x endedAt o h
    refine ⟨fun hsome c hc => ?_, fun hsome => ?_⟩
    · obtain ⟨hin, hne⟩ := hcookie hsome c hc
      exact ⟨List.mem_append_left _ hin, hnew c hin (.inl hne)⟩
    · obtain ⟨l, hl, hle⟩ := haccess hsome
      split_ifs
      · exact ⟨s.now, rfl, le_trans hle (hs.last l hl)⟩
      · exact ⟨l, hl, hle⟩
  · refine ⟨fun hsome c hc => ?_, fun hsome => ?_⟩
    · exact ⟨List.mem_append_left _ (hissued c hc), hnew c (hissued c hc) (.inr hsome)⟩
    · exact ⟨s.now, by rw [if_pos hsome]; rfl, le_refl _⟩

/-- A refresh ends. -/
theorem inv_settled (hs : s.Inv) {sent : Option String} {flights : List (Option String)}
    (hflights : s.flights = sent :: flights) {outcome : Outcome}
    (hfresh : ∀ c ∈ outcome.cookie, c ∉ s.issued) : (settled s sent flights outcome).Inv := by
  have hnone := flights_of_settled hs hflights
  have hissued : ∀ c ∈ sent, c ∈ s.issued :=
    hs.flown sent (by rw [hflights]; exact List.mem_cons_self)
  -- The calls that send their second request.
  obtain ⟨sending, hsending⟩ :
      ∃ sending, sending = if outcome.access.isSome then s.waiting else [] :=
    ⟨_, rfl⟩
  have hsub : ∀ n ∈ sending, n ∈ s.waiting := by
    intro n hn
    rw [hsending] at hn
    split_ifs at hn
    · exact hn
    · exact absurd hn List.not_mem_nil
  have hnodup : sending.Nodup := by
    rw [hsending]
    split_ifs
    · exact hs.queue
    · exact List.nodup_nil
  have hinj : Function.Injective Event.fetch := fun _ _ h => Event.fetch.inj h
  have hcount : ∀ n, (s.log ++ Event.ended sent s.now outcome :: sending.map .fetch).count
      (.fetch n) = s.log.count (.fetch n) + sending.count n := by
    intro n
    rw [List.count_append, List.count_cons_of_ne (by simp), List.count_map_of_injective _ _ hinj]
  unfold settled
  rw [← hsending]
  refine
    { flying := by simp [hnone]
      queue := List.nodup_nil
      queued := fun n hn => absurd hn List.not_mem_nil
      sent := fun n => ?_
      awaited := fun n hn => ?_
      cookie := fun c hc => ?_
      flown := fun x hx => by simp [hnone] at hx
      ended := fun x endedAt o h => ended_settled hs hissued hfresh ?_
      last := fun l hl => ?_
      follows := ?_ }
  · show List.count _ (s.log ++ _) ≤ (if n ∈ sending then _ else _ : Option Call).elim 2 Call.sent
    rw [hcount n]
    split_ifs with hn
    · rw [(hs.queued n (hsub n hn)).2, List.count_eq_one_of_mem hnodup hn]
      exact le_refl 2
    · rw [List.count_eq_zero_of_not_mem hn]
      exact hs.sent n
  · by_cases hsend : n ∈ sending
    · exact List.mem_append_right _ (List.mem_cons_of_mem _ (List.mem_map_of_mem hsend))
    · refine List.mem_append_left _ (hs.awaited n ?_)
      simpa only [hsend, if_false] using hn
  · rcases Option.or_eq_some_iff.mp hc with hc | ⟨-, hc⟩
    · exact List.mem_append_right _ (Option.mem_toList.mpr hc)
    · exact List.mem_append_left _ (hs.cookie c hc)
  · rcases List.mem_append.mp h with h | h
    · exact .inl h
    · rcases List.mem_cons.mp h with heq | h
      · exact .inr (by simpa using heq)
      · simp at h
  · have hl : l ∈ (if outcome.access.isSome then some s.now else s.lastRefresh) := hl
    split_ifs at hl
    · rw [← Option.some.inj hl]
    · exact hs.last l hl
  · refine follows_append hs.follows fun e he e' => ?_
    rcases List.mem_cons.mp he with rfl | he
    · exact follows_ended e' _ _ _
    · obtain ⟨m, -, rfl⟩ := List.mem_map.mp he
      exact follows_fetch e' m

/-- **A step** keeps it. -/
theorem inv_step (hs : s.Inv) (h : tabStep a s = some s') : s'.Inv := by
  cases a with
  | api n withAuth =>
    obtain ⟨hnew, rfl⟩ := guarded_eq_some.mp h
    have hzero := List.count_eq_zero_of_not_mem hnew
    refine inv_send hs (fun hmem => ?_) ?_
    · rw [(hs.queued n hmem).2] at hzero
      omega
    · rw [hzero]
      exact le_refl 1
  | answer n status =>
    obtain ⟨call, hn, rfl⟩ := Option.map_eq_some_iff.mp h
    cases call with
    | first withAuth =>
      show Tab.Inv (if status = 401 ∧ withAuth then tryRefresh s n else s.finish n)
      split_ifs
      · exact inv_tryRefresh hs hn
      · exact inv_finish hs hn
    | second => exact inv_finish hs hn
  | lost n =>
    obtain ⟨call, hn, rfl⟩ := Option.map_eq_some_iff.mp h
    exact inv_finish hs hn
  | refreshed outcome =>
    simp only [tabStep] at h
    split at h
    · cases h
    · next sent flights hflights =>
      obtain ⟨hfresh, rfl⟩ := guarded_eq_some.mp h
      exact inv_settled hs hflights hfresh
  | login access cookie =>
    obtain ⟨hfresh, rfl⟩ := guarded_eq_some.mp h
    refine
      { hs with
        cookie := fun c hc => ?_
        flown := fun sent hsent c hc => List.mem_append_left _ (hs.flown sent hsent c hc)
        ended := fun sent endedAt outcome he => ?_ }
    · rw [← Option.some.inj hc]
      exact List.mem_append_right _ (List.mem_singleton_self _)
    · obtain ⟨hcookie, haccess⟩ := hs.ended sent endedAt outcome he
      refine ⟨fun hsome c hc => ?_, haccess⟩
      obtain ⟨hin, -⟩ := hcookie hsome c hc
      refine ⟨List.mem_append_left _ hin, fun heq => hfresh ?_⟩
      rwa [Option.some.inj heq]
  | logout =>
    cases h
    refine { hs with
      cookie := fun c hc => by cases hc
      ended := fun sent endedAt outcome he => ?_ }
    obtain ⟨hcookie, haccess⟩ := hs.ended sent endedAt outcome he
    exact ⟨fun hsome c hc => ⟨(hcookie hsome c hc).1, nofun⟩, haccess⟩
  | clear =>
    cases h
    exact { hs with }
  | tick now =>
    obtain ⟨hle, rfl⟩ := guarded_eq_some.mp h
    exact { hs with last := fun l hl => le_trans (hs.last l hl) hle }

/-- **The session of a tab is safe**, whatever happens on the network: there is one refresh at a
time, a call sends two requests at most, a cookie that has been replaced is not presented again, and
a refresh that has been read is not followed by another one too soon. -/
theorem session_safe (cookie : Option String) (now : ℤ) (σ : List TabStep) :
    let s := run tabStep (.init cookie now) σ
    s.flights.length ≤ 1 ∧ (∀ n, s.log.count (.fetch n) ≤ 2) ∧ s.log.Pairwise Follows := by
  have hs : (run tabStep (.init cookie now) σ).Inv :=
    run_invariant (fun _ _ _ hs h => inv_step hs h) (inv_init cookie now) σ
  refine ⟨?_, fun n => ?_, hs.follows⟩
  · rw [hs.flying]
    split_ifs <;> omega
  · refine le_trans (hs.sent n) ?_
    cases (run tabStep (.init cookie now) σ).calls n with
    | none => exact le_refl 2
    | some call => exact call.sent_le

end ScanPlatform.Web.Api

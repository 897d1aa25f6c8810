import Mathlib.Data.Int.Order.Basic
import Mathlib.Data.List.Chain
import Mathlib.Data.List.Infix

/-!
# Limiters

A counter of failures that runs out some time after the last one. An attempt reads the counter, is
decided later, and when it has failed it is counted later still; a success clears the counter, later
too.

* `Entry`, `failures`, `Unbroken`, `Locks`, `Locked`: what attempts have come to, and what it means
  that not more than a number of them fail before all others are refused;
* `State`, `State.live`, `Event`, `State.apply`: the counter and the attempts that are under way;
* `Orderly`: the events that do not go wrong;
* `State.Inv`, **`State.Inv.apply`**: what they preserve.
-/

set_option autoImplicit false

namespace Limiter

/-! ## What attempts come to -/

inductive Entry where
  /-- An attempt is not refused. -/
  | passed (moment : ℤ)
  | failed (moment : ℤ)
  | succeeded
  deriving DecidableEq

/-- The moments of the failures. -/
def failures (log : List Entry) : List ℤ :=
  log.filterMap fun
    | .failed moment => some moment
    | .passed _ | .succeeded => none

@[simp] theorem failures_append (log log' : List Entry) :
    failures (log ++ log') = failures log ++ failures log' := List.filterMap_append

@[simp] theorem failures_passed (moment : ℤ) : failures [.passed moment] = [] := rfl

@[simp] theorem failures_failed (moment : ℤ) : failures [.failed moment] = [moment] := rfl

/-- There is no success in a stretch, and each failure follows the one before within a time. -/
structure Unbroken (ttl : ℤ) (segment : List Entry) : Prop where
  noSuccess : .succeeded ∉ segment
  close : (failures segment).IsChain fun moment next => next < moment + ttl

/-- Not more than a number of attempts fail in a stretch, and an attempt that is let through after
so many comes when that time is over. -/
structure Locks (limit : ℕ) (ttl : ℤ) (segment : List Entry) : Prop where
  few : (failures segment).length ≤ limit
  refused : ∀ before moment after, segment = before ++ .passed moment :: after →
    limit ≤ (failures before).length → ∃ last ∈ (failures before).getLast?, last + ttl ≤ moment

/-- **The lockout**: in every stretch without a success whose failures follow each other within the
time, at most so many attempts fail, and then all are refused. -/
def Locked (limit : ℕ) (ttl : ℤ) (log : List Entry) : Prop :=
  ∀ segment, segment <:+: log → Unbroken ttl segment → Locks limit ttl segment

section

variable {limit : ℕ} {ttl : ℤ} {log segment : List Entry}

theorem Unbroken.prefix {rest : List Entry} (h : Unbroken ttl (segment ++ rest)) :
    Unbroken ttl segment where
  noSuccess hmem := h.noSuccess (List.mem_append_left _ hmem)
  close := by
    have hclose := h.close
    rw [failures_append] at hclose
    exact hclose.left_of_append

theorem locked_nil : Locked limit ttl [] := by
  intro segment hsegment _
  obtain rfl := List.infix_nil.mp hsegment
  exact ⟨Nat.zero_le _, fun before moment after heq => absurd heq (by simp)⟩

theorem Locked.concat {entry : Entry} (h : Locked limit ttl log)
    (hlast : ∀ stretch, stretch <:+ log → Unbroken ttl (stretch ++ [entry]) →
      Locks limit ttl (stretch ++ [entry])) : Locked limit ttl (log ++ [entry]) := by
  intro segment hsegment hunbroken
  rcases List.infix_concat_iff.mp hsegment with hsuffix | hinfix
  · rcases List.suffix_concat_iff.mp hsuffix with rfl | ⟨stretch, rfl, hstretch⟩
    · exact h [] List.nil_infix hunbroken
    · exact hlast stretch hstretch hunbroken
  · exact h segment hinfix hunbroken

theorem Locks.failed (h : Locks limit ttl segment) {moment : ℤ}
    (hroom : (failures segment).length < limit) :
    Locks limit ttl (segment ++ [.failed moment]) where
  few := by
    rw [failures_append, List.length_append]
    exact hroom
  refused before passed after heq := by
    rcases List.eq_nil_or_concat after with rfl | ⟨after, entry, rfl⟩
    · exact absurd (List.append_inj' heq rfl).2 (by simp)
    · refine h.refused before passed after ?_
      have hsplit : segment ++ [.failed moment] =
          (before ++ .passed passed :: after) ++ [entry] := by simpa using heq
      exact (List.append_inj' hsplit rfl).1

theorem Locks.passed (h : Locks limit ttl segment) {moment : ℤ}
    (hlate : limit ≤ (failures segment).length →
      ∃ last ∈ (failures segment).getLast?, last + ttl ≤ moment) :
    Locks limit ttl (segment ++ [.passed moment]) where
  few := by simpa using h.few
  refused before passed after heq := by
    rcases List.eq_nil_or_concat after with rfl | ⟨after, entry, rfl⟩
    · obtain ⟨rfl, hentry⟩ := List.append_inj' heq rfl
      cases hentry
      exact hlate
    · refine h.refused before passed after ?_
      have hsplit : segment ++ [.passed moment] =
          (before ++ .passed passed :: after) ++ [entry] := by simpa using heq
      exact (List.append_inj' hsplit rfl).1

end

/-! ## The counter and the attempts under way -/

/-- What a counter says, with the moment at which it runs out. -/
def live (counter : Option (ℕ × ℤ)) (now : ℤ) : ℕ :=
  match counter with
  | some (n, expiry) => if now < expiry then n else 0
  | none => 0

structure State where
  now : ℤ
  counter : Option (ℕ × ℤ)
  /-- The attempts that have been let through and are not decided yet. -/
  deciding : ℕ
  /-- Those that have failed and are not counted yet. -/
  failed : ℕ
  /-- Those that have succeeded and have not cleared the counter yet. -/
  clearing : ℕ
  log : List Entry

inductive Event where
  | tick (moment : ℤ)
  /-- An attempt is let through; it is under way until it is decided unless it is not counted. -/
  | pass (counted : Bool)
  | fail (counted : Bool)
  /-- An attempt is given up, or is decided in what follows. -/
  | leave
  | succeed (clears : Bool)
  | count
  | clear
  deriving DecidableEq

variable (ttl : ℤ)

def State.apply (s : State) : Event → State
  | .tick moment => { s with now := moment }
  | .pass counted => { s with
      deciding := s.deciding + counted.toNat
      log := s.log ++ [.passed s.now] }
  | .fail counted => { s with
      deciding := s.deciding - counted.toNat
      failed := s.failed + counted.toNat
      log := s.log ++ [.failed s.now] }
  | .leave => { s with deciding := s.deciding - 1 }
  | .succeed clears => { s with
      clearing := s.clearing + clears.toNat
      log := s.log ++ [.succeeded] }
  | .count => { s with
      failed := s.failed - 1
      counter := some (live s.counter s.now + 1, s.now + ttl) }
  | .clear => { s with
      clearing := s.clearing - 1
      counter := none }

/-- The events that can happen and do not go wrong: nobody is let through beyond the limit, every
failure is counted, none comes before a success has cleared the counter, and the counter does not
run out before the last failure is counted. -/
def State.Orderly (limit : ℕ) (s : State) : Event → Prop
  | .tick moment => s.now ≤ moment ∧
      (0 < s.failed → ∀ n expiry, s.counter = some (n, expiry) → s.now < expiry → moment < expiry)
  | .pass _ => live s.counter s.now + s.deciding + s.failed < limit
  | .fail counted => counted = true ∧ 0 < s.deciding ∧ s.clearing = 0
  | .leave => 0 < s.deciding
  | .succeed _ => True
  | .count => 0 < s.failed
  | .clear => 0 < s.clearing

/-- What an orderly limiter keeps: the attempts of every stretch that goes up to now are counted or
are still to be, and while all are counted the counter outlasts the last one. -/
structure State.Inv (limit : ℕ) (s : State) : Prop where
  locked : Locked limit ttl s.log
  room : live s.counter s.now + s.deciding + s.failed ≤ limit
  recent : ∀ stretch, stretch <:+ s.log → Unbroken ttl stretch →
    ∀ last ∈ (failures stretch).getLast?, last ≤ s.now ∧ (s.now < last + ttl →
      (failures stretch).length ≤ live s.counter s.now + s.failed ∧
        (s.failed = 0 → ∃ n expiry, s.counter = some (n, expiry) ∧ last + ttl ≤ expiry))
  clean : 0 < s.clearing → ∀ stretch, stretch <:+ s.log → .succeeded ∉ stretch →
    failures stretch = []

/-! ## What an orderly limiter keeps -/

section

variable {ttl} {limit : ℕ} {s : State}

theorem State.Inv.init (now : ℤ) : State.Inv ttl limit ⟨now, none, 0, 0, 0, []⟩ where
  locked := locked_nil
  room := Nat.zero_le _
  recent stretch h _ last hlast := by
    rw [List.suffix_nil.mp h] at hlast
    cases hlast
  clean h := absurd h (lt_irrefl 0)

theorem live_of_lt {n : ℕ} {expiry now : ℤ} (h : now < expiry) :
    live (some (n, expiry)) now = n := if_pos h

theorem live_of_le {n : ℕ} {expiry now : ℤ} (h : expiry ≤ now) :
    live (some (n, expiry)) now = 0 := if_neg (not_lt.mpr h)

theorem live_le {counter : Option (ℕ × ℤ)} {now moment : ℤ} (h : now ≤ moment) :
    live counter moment ≤ live counter now := by
  unfold live
  split
  · split_ifs <;> omega
  · exact le_rfl

/-- A counter that has not run out in between. -/
theorem live_eq {counter : Option (ℕ × ℤ)} {now moment : ℤ} (h : now ≤ moment)
    (hkept : ∀ n expiry, counter = some (n, expiry) → now < expiry → moment < expiry) :
    live counter moment = live counter now := by
  rcases counter with _ | ⟨n, expiry⟩
  · rfl
  · rcases lt_or_ge now expiry with hlt | hle
    · rw [live_of_lt hlt, live_of_lt (hkept n expiry rfl hlt)]
    · rw [live_of_le hle, live_of_le (hle.trans h)]

theorem State.Inv.tick (h : s.Inv ttl limit) {moment : ℤ} (hnow : s.now ≤ moment)
    (hpending : 0 < s.failed → ∀ n expiry, s.counter = some (n, expiry) → s.now < expiry →
      moment < expiry) : (s.apply ttl (.tick moment)).Inv ttl limit where
  locked := h.locked
  room := by
    have hroom := h.room
    have hle : live s.counter moment ≤ live s.counter s.now := live_le hnow
    show live s.counter moment + s.deciding + s.failed ≤ limit
    omega
  recent stretch hstretch hunbroken last hlast := by
    obtain ⟨hpast, hrecent⟩ := h.recent stretch hstretch hunbroken last hlast
    refine ⟨hpast.trans hnow, fun hsoon => ?_⟩
    obtain ⟨hcounted, houtlasts⟩ := hrecent (lt_of_le_of_lt hnow hsoon)
    have hlive : live s.counter moment = live s.counter s.now := by
      refine live_eq hnow fun n expiry hcounter halive => ?_
      rcases Nat.eq_zero_or_pos s.failed with hfailed | hfailed
      · obtain ⟨n', expiry', hcounter', hlong⟩ := houtlasts hfailed
        rw [hcounter] at hcounter'
        cases hcounter'
        exact lt_of_lt_of_le hsoon hlong
      · exact hpending hfailed n expiry hcounter halive
    refine ⟨?_, houtlasts⟩
    show _ ≤ live s.counter moment + s.failed
    rw [hlive]
    exact hcounted
  clean := h.clean

theorem State.Inv.pass (h : s.Inv ttl limit) {counted : Bool}
    (hroom : live s.counter s.now + s.deciding + s.failed < limit) :
    (s.apply ttl (.pass counted)).Inv ttl limit where
  locked := by
    refine h.locked.concat fun stretch hstretch hunbroken => ?_
    have hbefore := hunbroken.prefix
    refine (h.locked stretch hstretch.isInfix hbefore).passed fun hmany => ?_
    cases hlast : (failures stretch).getLast? with
    | none =>
      rw [List.getLast?_eq_none_iff.mp hlast, List.length_nil] at hmany
      omega
    | some last =>
      refine ⟨last, rfl, ?_⟩
      by_contra hsoon
      have hcounted := ((h.recent stretch hstretch hbefore last hlast).2 (not_le.mp hsoon)).1
      omega
  room := by
    have hle : counted.toNat ≤ 1 := Bool.toNat_le counted
    show live s.counter s.now + (s.deciding + counted.toNat) + s.failed ≤ limit
    omega
  recent stretch hstretch hunbroken last hlast := by
    rcases List.suffix_concat_iff.mp hstretch with rfl | ⟨before, rfl, hbefore⟩
    · cases hlast
    · rw [failures_append, failures_passed, List.append_nil] at hlast ⊢
      exact h.recent before hbefore hunbroken.prefix last hlast
  clean hclearing stretch hstretch hnone := by
    rcases List.suffix_concat_iff.mp hstretch with rfl | ⟨before, rfl, hbefore⟩
    · rfl
    · rw [failures_append, failures_passed, List.append_nil]
      exact h.clean hclearing before hbefore fun hmem => hnone (List.mem_append_left _ hmem)

theorem State.Inv.fail (h : s.Inv ttl limit) (hdeciding : 0 < s.deciding)
    (hclearing : s.clearing = 0) : (s.apply ttl (.fail true)).Inv ttl limit := by
  have hroom := h.room
  have hcounted : ∀ stretch, stretch <:+ s.log → Unbroken ttl (stretch ++ [.failed s.now]) →
      (failures stretch).length ≤ live s.counter s.now + s.failed := by
    intro stretch hstretch hunbroken
    cases hlast : (failures stretch).getLast? with
    | none =>
      rw [List.getLast?_eq_none_iff.mp hlast]
      exact Nat.zero_le _
    | some last =>
      have hclose := hunbroken.close
      rw [failures_append] at hclose
      have hsoon := (List.isChain_append.mp hclose).2.2 last hlast s.now rfl
      exact ((h.recent stretch hstretch hunbroken.prefix last hlast).2 hsoon).1
  refine ⟨h.locked.concat fun stretch hstretch hunbroken => ?_, ?_, ?_, fun hpos => ?_⟩
  · have hle := hcounted stretch hstretch hunbroken
    refine (h.locked stretch hstretch.isInfix hunbroken.prefix).failed ?_
    omega
  · show live s.counter s.now + (s.deciding - 1) + (s.failed + 1) ≤ limit
    omega
  · intro stretch hstretch hunbroken last hlast
    rcases List.suffix_concat_iff.mp hstretch with rfl | ⟨before, rfl, hbefore⟩
    · cases hlast
    · have hle := hcounted before hbefore hunbroken
      rw [failures_append, failures_failed, List.getLast?_concat, Option.mem_some_iff] at hlast
      refine ⟨hlast.symm.le, fun _ => ⟨?_, fun hzero => absurd hzero (Nat.succ_ne_zero _)⟩⟩
      rw [failures_append, failures_failed, List.length_append]
      exact Nat.succ_le_succ hle
  · exact absurd hpos (by simp [State.apply, hclearing])

theorem State.Inv.leave (h : s.Inv ttl limit) : (s.apply ttl .leave).Inv ttl limit where
  locked := h.locked
  room := by
    have hroom := h.room
    show live s.counter s.now + (s.deciding - 1) + s.failed ≤ limit
    omega
  recent := h.recent
  clean := h.clean

theorem State.Inv.succeed (h : s.Inv ttl limit) (clears : Bool) :
    (s.apply ttl (.succeed clears)).Inv ttl limit := by
  have hends : ∀ stretch, stretch <:+ s.log ++ [.succeeded] → .succeeded ∉ stretch →
      stretch = [] := by
    intro stretch hstretch hnone
    rcases List.suffix_concat_iff.mp hstretch with rfl | ⟨before, rfl, -⟩
    · rfl
    · exact absurd (List.mem_append_right _ List.mem_cons_self) hnone
  refine ⟨h.locked.concat fun stretch _ hunbroken => ?_, h.room, ?_, ?_⟩
  · exact absurd (List.mem_append_right _ List.mem_cons_self) hunbroken.noSuccess
  · intro stretch hstretch hunbroken last hlast
    rw [hends stretch hstretch hunbroken.noSuccess] at hlast
    cases hlast
  · intro _ stretch hstretch hnone
    rw [hends stretch hstretch hnone]
    rfl

theorem State.Inv.count (h : s.Inv ttl limit) (hfailed : 0 < s.failed) :
    (s.apply ttl .count).Inv ttl limit where
  locked := h.locked
  room := by
    have hroom := h.room
    have hle : live (some (live s.counter s.now + 1, s.now + ttl)) s.now ≤
        live s.counter s.now + 1 := by
      unfold live
      dsimp only
      split_ifs <;> omega
    show live (some (live s.counter s.now + 1, s.now + ttl)) s.now + s.deciding +
      (s.failed - 1) ≤ limit
    omega
  recent stretch hstretch hunbroken last hlast := by
    obtain ⟨hpast, hrecent⟩ := h.recent stretch hstretch hunbroken last hlast
    refine ⟨hpast, fun hsoon => ⟨?_, fun _ => ⟨_, _, rfl, by omega⟩⟩⟩
    have hcounted := (hrecent hsoon).1
    have halive : s.now < s.now + ttl := lt_of_lt_of_le hsoon (by omega)
    show _ ≤ live (some (live s.counter s.now + 1, s.now + ttl)) s.now + (s.failed - 1)
    rw [live_of_lt halive]
    omega
  clean := h.clean

theorem State.Inv.clear (h : s.Inv ttl limit) (hclearing : 0 < s.clearing) :
    (s.apply ttl .clear).Inv ttl limit where
  locked := h.locked
  room := by
    have hroom := h.room
    show 0 + s.deciding + s.failed ≤ limit
    omega
  recent stretch hstretch hunbroken last hlast := by
    rw [h.clean hclearing stretch hstretch hunbroken.noSuccess] at hlast
    cases hlast
  clean _ := h.clean hclearing

/-- **An orderly limiter holds**, and keeps on doing so. -/
theorem State.Inv.apply (h : s.Inv ttl limit) {event : Event} (horderly : s.Orderly limit event) :
    (s.apply ttl event).Inv ttl limit := by
  cases event with
  | tick moment => exact h.tick horderly.1 horderly.2
  | pass counted => exact h.pass horderly
  | fail counted =>
    obtain ⟨rfl, hdeciding, hclearing⟩ := horderly
    exact h.fail hdeciding hclearing
  | leave => exact h.leave
  | succeed clears => exact h.succeed clears
  | count => exact h.count horderly
  | clear => exact h.clear horderly

end

end Limiter

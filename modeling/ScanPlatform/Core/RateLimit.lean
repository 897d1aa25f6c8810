import Mathlib.Algebra.Order.Ring.Rat
import Mathlib.Tactic.NormNum
import ScanPlatform.Base.CondMachine
import ScanPlatform.Base.PyStr
import ScanPlatform.Base.SlidingWindow

/-!
# The rate limit of requests

Any number of requests, with Redis available and each pipeline carried out as a whole. Moments are
in seconds; that at which a request reads its clock and that at which Redis carries out its
pipeline are two.

* `RateLimits`, `RateLimits.limitFor`, `HttpRequest`, `HttpRequest.key`: kinds of requests, and their keys;
* `RateLimits.dispatch`, `rateStep`: the sorted sets, and what becomes of requests;
* `limitFor_key`: the requests of a key have the same limit;
* `rateStep_inv`, **`window_holds`**: the window, in every run in which no entry is lost to the
  expiry of its key; `window_lost` is one in which one is.
-/

set_option autoImplicit false

namespace ScanPlatform

open CondMachine SlidingWindow

/-! ## Requests -/

/-- The limits of the middleware: how many requests, and in how many seconds. -/
structure RateLimits where
  default : ℤ × ℕ
  auth : ℤ × ℕ
  ai : ℤ × ℕ

/-- `_limit_for`. -/
def RateLimits.limitFor (limits : RateLimits) (path : String) : String × (ℤ × ℕ) :=
  if PyStr.contains path "/auth/" then ("auth", limits.auth)
  else if PyStr.contains path "/assistant/" ∨ PyStr.contains path "/ai/" then ("ai", limits.ai)
  else ("default", limits.default)

/-- `f"rl:{bucket}:{self._principal(request)}"`. -/
def RateLimits.key (limits : RateLimits) (path principal : String) : String :=
  "rl:" ++ (limits.limitFor path).1 ++ ":" ++ principal

/-- A request: its path, its identity for the limiter, the reading of its clock, the `uuid4().hex`
that it draws, and the moment at which Redis carries out its pipeline. -/
structure HttpRequest where
  path : String
  principal : String
  now : ℚ
  hex : String
  moment : ℚ

/-- The pipeline of a request, whose member names the reading and what was drawn. -/
def HttpRequest.arrival (r : HttpRequest) : Arrival (ℚ × String) ℚ := ⟨r.now, r.moment, (r.now, r.hex)⟩

/-- The sorted set under each key of Redis, and what has become of the requests of the key. -/
abbrev RateState := String → SlidingWindow.State (ℚ × String) ℚ

def RateState.init : RateState := fun _ => ⟨none, []⟩

/-- `dispatch`. The key is kept for a second longer than the window. -/
def RateLimits.dispatch (limits : RateLimits) (s : RateState) (r : HttpRequest) : RateState :=
  let rule := (limits.limitFor r.path).2
  let key := limits.key r.path r.principal
  Function.update s key ((s key).arrive rule.1 rule.2 (rule.2 + 1) r.arrival)

theorem RateLimits.dispatch_self (limits : RateLimits) (s : RateState) (r : HttpRequest) :
    limits.dispatch s r (limits.key r.path r.principal) =
      (s (limits.key r.path r.principal)).arrive (limits.limitFor r.path).2.1
        ((limits.limitFor r.path).2.2 : ℚ) ((limits.limitFor r.path).2.2 + 1) r.arrival :=
  Function.update_self _ _ _

def rateStep (limits : RateLimits) (r : HttpRequest) (s : RateState) : Option RateState :=
  some (limits.dispatch s r)

@[simp] theorem next_rateStep (limits : RateLimits) (s : RateState) (r : HttpRequest) :
    next (rateStep limits) s r = limits.dispatch s r := rfl

/-! ## Keys -/

variable {limits : RateLimits}

theorem limitFor_mem (limits : RateLimits) (path : String) :
    limits.limitFor path ∈
      [("auth", limits.auth), ("ai", limits.ai), ("default", limits.default)] := by
  unfold RateLimits.limitFor
  split_ifs <;> simp

/-- **The requests of a key have the same limit**: no bucket has a colon in its name. -/
theorem limitFor_key {path path' principal principal' : String}
    (h : limits.key path principal = limits.key path' principal') :
    limits.limitFor path = limits.limitFor path' := by
  have htext := congrArg String.toList h
  unfold RateLimits.key at htext
  simp only [String.toList_append, List.append_assoc, List.append_cancel_left_eq] at htext
  have hpath := limitFor_mem limits path
  have hpath' := limitFor_mem limits path'
  simp only [List.mem_cons, List.not_mem_nil, or_false] at hpath hpath'
  rcases hpath with hpath | hpath | hpath <;> rcases hpath' with hpath' | hpath' | hpath' <;>
    rw [hpath, hpath'] at htext ⊢ <;> simp at htext

/-! ## The window -/

section

variable (limits : RateLimits) (s : RateState)

/-- What is known of requests: each draws a member of its own, and under a key the readings of the
clock do not decrease. -/
def RequestComes (r : HttpRequest) : Prop := Comes (s (limits.key r.path r.principal)) r.arrival

/-- The request does not find that its key has run out with an entry of its window, and it finds no
entry that is older and has a negative score. -/
def RequestOrderly (r : HttpRequest) : Prop :=
  Orderly ((limits.limitFor r.path).2.2 : ℚ) (s (limits.key r.path r.principal)) r.arrival

/-- What is under a key keeps the invariant of its window. -/
def RateState.Inv : Prop :=
  ∀ path principal : String, (s (limits.key path principal)).Inv (limits.limitFor path).2.1
    ((limits.limitFor path).2.2 : ℚ)

end

theorem RateState.Inv.init : RateState.init.Inv limits := fun _ _ => State.Inv.init

/-- **A request** keeps what is true of every key. -/
theorem rateStep_inv {s s' : RateState} {r : HttpRequest} (h : s.Inv limits)
    (hcomes : RequestComes limits s r) (horderly : RequestOrderly limits s r)
    (hstep : rateStep limits r s = some s') : s'.Inv limits := by
  obtain rfl := Option.some.inj hstep
  intro path principal
  unfold RateLimits.dispatch
  by_cases hkey : limits.key path principal = limits.key r.path r.principal
  · rw [hkey, limitFor_key hkey, Function.update_self]
    exact (h r.path r.principal).arrive hcomes horderly _
  · rw [Function.update_of_ne hkey]
    exact h path principal

/-- **The window holds** in every run in which no request finds its key gone too early. -/
theorem window_holds (limits : RateLimits) (path principal : String) {σ : List HttpRequest}
    (hcomes : Along (rateStep limits) (RequestComes limits) .init σ)
    (horderly : Along (rateStep limits) (RequestOrderly limits) .init σ) :
    Windowed (limits.limitFor path).2.1 ((limits.limitFor path).2.2 : ℚ)
      (run (rateStep limits) .init σ (limits.key path principal)).log := by
  have hboth : Along (rateStep limits)
      (fun s r => RequestComes limits s r ∧ RequestOrderly limits s r) .init σ :=
    fun σ₁ r σ₂ hσ => ⟨hcomes σ₁ r σ₂ hσ, horderly σ₁ r σ₂ hσ⟩
  have hinv := run_invariant_along
    (fun s r s' hs hr hstep => rateStep_inv hs hr.1 hr.2 hstep) RateState.Inv.init hboth
  exact (hinv path principal).windowed

/-- One request a minute, of every kind. -/
def oneAMinute : RateLimits := ⟨(1, 60), (1, 60), (1, 60)⟩

/-- Two requests within a minute, the second of which is carried out some time later. -/
def twoRequests (later : ℚ) : List HttpRequest :=
  [⟨"/assets", "ip:10.0.0.1", 1000, "a", 1000⟩, ⟨"/assets", "ip:10.0.0.1", 1059, "b", later⟩]

theorem twoRequests_comes (later : ℚ) :
    Along (rateStep oneAMinute) (RequestComes oneAMinute) .init (twoRequests later) := by
  have hsecond : ∀ d ∈ (next (rateStep oneAMinute) .init
      ⟨"/assets", "ip:10.0.0.1", 1000, "a", 1000⟩ (oneAMinute.key "/assets" "ip:10.0.0.1")).log,
      d.now = 1000 ∧ d.member = (1000, "a") := by
    rw [next_rateStep, RateLimits.dispatch_self]
    intro d hd
    obtain rfl := List.mem_singleton.mp hd
    exact ⟨rfl, rfl⟩
  refine .cons ⟨fun d hd => absurd hd List.not_mem_nil, fun d hd => absurd hd List.not_mem_nil⟩
    (.cons ⟨fun d hd => ?_, fun d hd => ?_⟩ (along_nil _ _))
  · rw [(hsecond d hd).2]
    show (((1000 : ℚ), "a") : ℚ × String) ≠ (1059, "b")
    simp
  · rw [(hsecond d hd).1]
    show (1000 : ℚ) ≤ 1059
    norm_num

theorem window_holds_twoRequests :
    Windowed 1 60 (run (rateStep oneAMinute) .init (twoRequests 1059)
      (oneAMinute.key "/assets" "ip:10.0.0.1")).log :=
  window_holds oneAMinute "/assets" "ip:10.0.0.1" (twoRequests_comes 1059)
    (.cons ⟨fun stored h => absurd h (by simp [RateState.init]),
        fun e he => absurd he (by simp [live, RateState.init])⟩
      (.cons ⟨by decide +kernel, by decide +kernel⟩ (along_nil _ _)))

/-- **The window is lost** with the key: both requests are admitted within a minute. -/
theorem window_lost : ¬ ∀ (limits : RateLimits) (path principal : String) (σ : List HttpRequest),
    Along (rateStep limits) (RequestComes limits) .init σ →
      Windowed (limits.limitFor path).2.1 ((limits.limitFor path).2.2 : ℚ)
        (run (rateStep limits) .init σ (limits.key path principal)).log := by
  intro hall
  have hwindowed := hall oneAMinute "/assets" "ip:10.0.0.1" (twoRequests 1062)
    (twoRequests_comes 1062)
  exact absurd (hwindowed.few 1059) (by decide +kernel)

end ScanPlatform

import Mathlib.Algebra.Order.Group.Defs
import Mathlib.Data.List.Sublists
import Mathlib.Order.Interval.Set.Basic
import Mathlib.Tactic.Abel

/-!
# Sliding windows

A limiter that keeps the clock readings of the requests in a sorted set. A request takes out what is
older than the window, puts itself in and is refused when there are too many. It is carried out at a
moment of the store's own clock, by which the whole set runs out some time after the last request.

* `zadd`, `zremrangebyscore`, `Stored`, `live`: sorted sets that run out;
* `Arrival`, `Decision`, `State`, `State.arrive`: requests and what becomes of them;
* `Windowed`: what a window promises;
* `Orderly`: nothing of the window is lost, and nothing older stays;
* `State.Inv`, **`State.Inv.arrive`**: what an orderly request preserves.
-/

set_option autoImplicit false

namespace SlidingWindow

variable {M T : Type*}

/-! ## Sorted sets -/

/-- `ZADD` of one member. -/
def zadd [DecidableEq M] (entries : List (M × T)) (member : M) (score : T) : List (M × T) :=
  entries.filter (·.1 ≠ member) ++ [(member, score)]

/-- `ZREMRANGEBYSCORE`. -/
def zremrangebyscore [LinearOrder T] (entries : List (M × T)) (least greatest : T) :
    List (M × T) := entries.filter fun e => ¬ (least ≤ e.2 ∧ e.2 ≤ greatest)

/-- A set, and the moment at which it runs out. -/
structure Stored (M T : Type*) where
  entries : List (M × T)
  deadline : T

/-- What is there at a moment. -/
def live [LinearOrder T] (stored : Option (Stored M T)) (moment : T) : List (M × T) :=
  match stored with
  | some s => if s.deadline < moment then [] else s.entries
  | none => []

/-! ## Requests -/

/-- A request: its clock reading, the moment at which the store carries it out, and its member. -/
structure Arrival (M T : Type*) where
  now : T
  moment : T
  member : M

/-- What has become of a request. -/
structure Decision (M T : Type*) where
  now : T
  member : M
  admitted : Bool

def Decision.entry (d : Decision M T) : M × T := (d.member, d.now)

structure State (M T : Type*) where
  stored : Option (Stored M T)
  log : List (Decision M T)

section

variable [DecidableEq M] [LinearOrder T] [AddCommGroup T]

/-- The entries that a request finds or puts in. -/
def State.record (window : T) (s : State M T) (a : Arrival M T) : List (M × T) :=
  zadd (zremrangebyscore (live s.stored a.moment) 0 (a.now - window)) a.member a.now

/-- A request is admitted unless there are more entries than the limit. -/
def State.decision (limit : ℤ) (window : T) (s : State M T) (a : Arrival M T) : Decision M T :=
  ⟨a.now, a.member, ¬ limit < (s.record window a).length⟩

def State.arrive (limit : ℤ) (window ttl : T) (s : State M T) (a : Arrival M T) : State M T where
  stored := some ⟨s.record window a, a.moment + ttl⟩
  log := s.log ++ [s.decision limit window a]

theorem State.arrive_log (limit : ℤ) (window ttl : T) (s : State M T) (a : Arrival M T) :
    (s.arrive limit window ttl a).log = s.log ++ [s.decision limit window a] := rfl

/-! ## What a window promises -/

/-- The request falls in the half-open interval that ends at `t`. -/
def Decision.inWindow (window t : T) (d : Decision M T) : Bool := t - window < d.now ∧ d.now ≤ t

/-- Every window has at most as many admitted requests as the limit says, and a request is refused
only when as many others fall in the window that ends at it. -/
structure Windowed (limit : ℤ) (window : T) (log : List (Decision M T)) : Prop where
  few : ∀ t, ((log.filter fun d => d.admitted && d.inWindow window t).length : ℤ) ≤ max limit 0
  full : ∀ before d after, log = before ++ d :: after → d.admitted = false →
    limit ≤ ((before ++ after).filter (Decision.inWindow window d.now)).length

/-- The request finds no set that has run out with an entry of its window, and no entry that is
older and has a negative score. -/
structure Orderly (window : T) (s : State M T) (a : Arrival M T) : Prop where
  kept : ∀ stored, s.stored = some stored → stored.deadline < a.moment →
    ∀ e ∈ stored.entries, e.2 ≤ a.now - window
  removed : ∀ e ∈ live s.stored a.moment, e.2 ≤ a.now - window → 0 ≤ e.2

/-- A request as it may come: with a member of its own, and a clock that does not go back. -/
structure Comes (s : State M T) (a : Arrival M T) : Prop where
  fresh : ∀ d ∈ s.log, d.member ≠ a.member
  forward : ∀ d ∈ s.log, d.now ≤ a.now

/-- What is in the set has come from requests, and it has all of those that a window may need. -/
structure State.Inv (limit : ℤ) (window : T) (s : State M T) : Prop where
  windowed : Windowed limit window s.log
  logged : ∀ stored, s.stored = some stored →
    stored.entries.Sublist (s.log.map Decision.entry)
  recent : ∀ t, (∀ d ∈ s.log, d.now ≤ t) →
    ((s.log.map Decision.entry).filter fun e => t - window < e.2).Sublist
      (s.stored.elim [] Stored.entries)

end

/-! ## What an orderly request preserves -/

section

variable [LinearOrder T] [AddCommGroup T] {limit : ℤ} {window ttl : T} {s : State M T}
  {a : Arrival M T}

theorem State.Inv.init : State.Inv limit window (⟨none, []⟩ : State M T) where
  windowed := ⟨fun t => by simp, fun before d after h => absurd h (by simp)⟩
  logged stored h := by cases h
  recent t _ := by simp

/-- The entries that the request finds and leaves. -/
def State.others (window : T) (s : State M T) (a : Arrival M T) : List (M × T) :=
  zremrangebyscore (live s.stored a.moment) 0 (a.now - window)

theorem State.Inv.others_sublist (h : s.Inv limit window) :
    (s.others window a).Sublist (s.log.map Decision.entry) := by
  have hlive : (live s.stored a.moment).Sublist (s.log.map Decision.entry) := by
    unfold live
    cases hstored : s.stored with
    | none => exact List.nil_sublist _
    | some stored =>
      dsimp only
      split_ifs
      · exact List.nil_sublist _
      · exact h.logged stored hstored
  exact List.filter_sublist.trans hlive

/-- A fresh member replaces none. -/
theorem State.Inv.record_eq [DecidableEq M] (h : s.Inv limit window) (ha : Comes s a) :
    s.record window a = s.others window a ++ [(a.member, a.now)] := by
  have hkeep : ∀ e ∈ s.others window a, e.1 ≠ a.member := by
    intro e he
    obtain ⟨d, hd, rfl⟩ := List.mem_map.mp (h.others_sublist.subset he)
    exact ha.fresh d hd
  unfold State.record zadd
  congr 1
  exact List.filter_eq_self.mpr fun e he => by simpa using hkeep e he

/-- All that is in the window of the request stays. -/
theorem State.Inv.recent_others (h : s.Inv limit window) (ha : Comes s a)
    (horderly : Orderly window s a) :
    ((s.log.map Decision.entry).filter fun e => a.now - window < e.2).Sublist
      (s.others window a) := by
  have hrecent := h.recent a.now ha.forward
  have hlive : ((s.log.map Decision.entry).filter fun e => a.now - window < e.2).Sublist
      (live s.stored a.moment) := by
    unfold live
    cases hstored : s.stored with
    | none =>
      rw [hstored] at hrecent
      exact hrecent
    | some stored =>
      rw [hstored] at hrecent
      dsimp only
      split_ifs with hdeadline
      · refine List.sublist_nil.mpr (List.eq_nil_iff_forall_not_mem.mpr fun e he => ?_)
        have hold := horderly.kept stored hstored hdeadline e (hrecent.subset he)
        exact absurd (of_decide_eq_true (List.mem_filter.mp he).2) (not_lt.mpr hold)
      · exact hrecent
  -- What is taken out is older than the window.
  have hstays : ∀ e ∈ (s.log.map Decision.entry).filter fun e => a.now - window < e.2,
      decide (¬ (0 ≤ e.2 ∧ e.2 ≤ a.now - window)) = true := by
    intro e he
    have hnew := of_decide_eq_true (List.mem_filter.mp he).2
    exact decide_eq_true fun hold => absurd hold.2 (not_le.mpr hnew)
  rw [← List.filter_eq_self.mpr hstays]
  exact hlive.filter _

/-- What stays is in the window of the request. -/
theorem State.Inv.others_inWindow (h : s.Inv limit window) (ha : Comes s a)
    (horderly : Orderly window s a) :
    (s.others window a).length ≤ (s.log.filter (Decision.inWindow window a.now)).length := by
  have hall : ∀ e ∈ s.others window a, a.now - window < e.2 ∧ e.2 ≤ a.now := by
    intro e he
    obtain ⟨hmem, hstays⟩ := List.mem_filter.mp he
    obtain ⟨d, hd, rfl⟩ := List.mem_map.mp (h.others_sublist.subset he)
    refine ⟨?_, ha.forward d hd⟩
    by_contra hold
    have hold := not_lt.mp hold
    exact of_decide_eq_true hstays ⟨horderly.removed _ hmem hold, hold⟩
  have hself : (s.others window a).filter (fun e => a.now - window < e.2 ∧ e.2 ≤ a.now) =
      s.others window a := List.filter_eq_self.mpr fun e he => decide_eq_true (hall e he)
  have hlen := ((h.others_sublist (a := a)).filter
    fun e => decide (a.now - window < e.2 ∧ e.2 ≤ a.now)).length_le
  rw [hself, List.filter_map, List.length_map] at hlen
  exact hlen

end

section

variable [DecidableEq M] [LinearOrder T] [AddCommGroup T] [IsOrderedAddMonoid T]
variable {limit : ℤ} {window : T} {s : State M T} {a : Arrival M T}

omit [DecidableEq M] in
/-- The requests of a later window that come before this one are in its own window too. -/
theorem recent_mono {t t' : T} (h : t ≤ t') (log : List (Decision M T)) :
    ((log.map Decision.entry).filter fun e => t' - window < e.2).Sublist
      ((log.map Decision.entry).filter fun e => t - window < e.2) := by
  refine List.monotone_filter_right _ fun e he => ?_
  exact decide_eq_true (lt_of_le_of_lt (sub_le_sub_right h window) (of_decide_eq_true he))

/-- An admitted request leaves room for itself in every window that it falls in. -/
theorem State.Inv.few_arrive (h : s.Inv limit window) (ha : Comes s a)
    (horderly : Orderly window s a) {t : T} (hadmitted : ((s.record window a).length : ℤ) ≤ limit)
    (hnow : a.now ≤ t) :
    ((s.log.filter fun d => d.admitted && d.inWindow window t).length : ℤ) + 1 ≤ limit := by
  have hentries : (s.log.filter fun d => d.admitted && d.inWindow window t).length ≤
      ((s.log.map Decision.entry).filter fun e => t - window < e.2).length := by
    rw [List.filter_map, List.length_map]
    refine (List.monotone_filter_right _ fun d hd => ?_).length_le
    have hin := of_decide_eq_true (Bool.and_eq_true_iff.mp hd).2
    exact decide_eq_true hin.1
  have hothers := ((recent_mono hnow s.log).trans (h.recent_others ha horderly)).length_le
  rw [h.record_eq ha, List.length_append, List.length_singleton] at hadmitted
  push_cast at hadmitted
  omega

/-- **The window holds** after an orderly request. -/
theorem State.Inv.windowed_arrive (h : s.Inv limit window) (ha : Comes s a)
    (horderly : Orderly window s a) (ttl : T) :
    Windowed limit window (s.arrive limit window ttl a).log where
  few t := by
    have hbefore := h.windowed.few t
    rw [State.arrive_log, List.filter_append, List.length_append]
    by_cases hcounts : ((s.decision limit window a).admitted &&
        (s.decision limit window a).inWindow window t) = true
    · obtain ⟨hadmitted, hin⟩ := Bool.and_eq_true_iff.mp hcounts
      have hadmitted := not_lt.mp (of_decide_eq_true hadmitted)
      have hroom := h.few_arrive ha horderly hadmitted (of_decide_eq_true hin).2
      have hone : [s.decision limit window a].filter
          (fun d => d.admitted && d.inWindow window t) = [s.decision limit window a] :=
        List.filter_cons_of_pos hcounts
      rw [hone, List.length_singleton]
      push_cast
      exact hroom.trans (le_max_left limit 0)
    · have hnone : [s.decision limit window a].filter
          (fun d => d.admitted && d.inWindow window t) = [] :=
        List.filter_cons_of_neg hcounts
      rw [hnone, List.length_nil, Nat.add_zero]
      exact hbefore
  full before d after heq hrefused := by
    rw [State.arrive_log] at heq
    rcases List.eq_nil_or_concat after with rfl | ⟨after, d', rfl⟩
    · obtain ⟨rfl, hd⟩ := List.append_inj' heq rfl
      obtain rfl := (List.cons.inj hd).1
      have hmany : limit < (s.record window a).length :=
        not_not.mp (of_decide_eq_false hrefused)
      have hothers := h.others_inWindow ha horderly
      rw [h.record_eq ha, List.length_append, List.length_singleton] at hmany
      push_cast at hmany
      rw [List.append_nil]
      show limit ≤ ((s.log.filter (Decision.inWindow window a.now)).length : ℤ)
      omega
    · have hsplit : s.log ++ [s.decision limit window a] = (before ++ d :: after) ++ [d'] := by
        simpa using heq
      have hbefore := h.windowed.full before d after (List.append_inj' hsplit rfl).1 hrefused
      have hmore := ((List.sublist_append_left (before ++ after) [d']).filter
        (Decision.inWindow window d.now)).length_le
      rw [List.concat_eq_append, ← List.append_assoc]
      omega

/-- **An orderly request preserves the invariant.** -/
theorem State.Inv.arrive (h : s.Inv limit window) (ha : Comes s a)
    (horderly : Orderly window s a) (ttl : T) :
    (s.arrive limit window ttl a).Inv limit window where
  windowed := h.windowed_arrive ha horderly ttl
  logged stored hstored := by
    obtain rfl := Option.some.inj hstored
    rw [State.arrive_log, h.record_eq ha, List.map_append]
    exact h.others_sublist.append (List.Sublist.refl _)
  recent t ht := by
    have hnow : a.now ≤ t := ht _ (List.mem_append_right _ (List.mem_singleton_self _))
    show List.Sublist _ (s.record window a)
    rw [State.arrive_log, h.record_eq ha, List.map_append, List.filter_append]
    exact ((recent_mono hnow s.log).trans (h.recent_others ha horderly)).append List.filter_sublist

end

end SlidingWindow

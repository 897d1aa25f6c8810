import Mathlib.Tactic.Linarith
import ScanPlatform.Ai.Calls

/-!
# The budget of AI calls

The gate reads what the calls of a workspace have cost on a day; those that are past it may still
add to that, and Redis may fail.

* `cost`, `misses`, `inFlight_set`: what a day costs, and the calls that are past the gate;
* `Counted`, `BudgetInv`, **`budgetInv_step`**: what the counter has to do with it;
* **`spend_bounded`**: what a day costs, in every run.
-/

set_option autoImplicit false

namespace ScanPlatform.Ai

open CondMachine

variable {st : Settings} {most : ℚ} {s s' : State} {c : Call} {n k : ℕ} {name : Name}
  {rest : List Name} {stage : Stage} {r : Response} {w : String}

/-! ## What a day costs -/

def Event.cost (w : String) (d : ℕ) : Event → ℚ
  | .used _ workspace day cost => if workspace = some w ∧ day = d then cost else 0
  | .missed _ | .asked _ _ => 0

/-- What the calls of a workspace have cost on a day. -/
def cost (w : String) (d : ℕ) (log : List Event) : ℚ := (log.map (Event.cost w d)).sum

/-- The failures of Redis, for a workspace. -/
def misses (w : String) (log : List Event) : ℕ := log.count (.missed w)

theorem cost_concat (w : String) (d : ℕ) (log : List Event) (e : Event) :
    cost w d (log ++ [e]) = cost w d log + e.cost w d := by
  simp [cost]

theorem misses_concat (w : String) (log : List Event) (e : Event) :
    misses w (log ++ [e]) = misses w log + if e = .missed w then 1 else 0 := by
  simp only [misses, List.count_append, List.count_singleton, beq_iff_eq]

theorem inFlight_set (w : String) {calls : List Call} (h : calls[n]? = some c) (c' : Call) :
    inFlight w (calls.set n c') + (c.inFlight w).toNat =
      inFlight w calls + (c'.inFlight w).toNat := by
  unfold inFlight
  induction calls generalizing n with
  | nil => simp at h
  | cons a calls ih =>
    cases n with
    | zero =>
      obtain rfl : a = c := by simpa using h
      rw [List.set_cons_zero, List.countP_cons, List.countP_cons]
      cases a.inFlight w <;> cases c'.inFlight w <;> simp
    | succ n =>
      have hrest := ih (by simpa using h)
      rw [List.set_cons_succ, List.countP_cons, List.countP_cons]
      omega

/-- What is counted of the calls, and what the days before have cost. -/
structure Counted (st : Settings) (most : ℚ) (s : State) : Prop where
  spent : ∀ w d, cost w d s.log ≤ s.spend w d + most * misses w s.log
  later : ∀ w d, s.day < d → cost w d s.log = 0
  past : ∀ w d, d < s.day →
    cost w d s.log < st.aiDailyBudgetUsd + most * (s.peak w + misses w s.log)

/-- What a day costs, with what the calls that are past the gate may still cost. -/
structure BudgetInv (st : Settings) (most : ℚ) (s : State) : Prop extends Counted st most s where
  today : ∀ w, cost w s.day s.log + most * inFlight w s.calls <
    st.aiDailyBudgetUsd + most * (s.peak w + misses w s.log)
  peak : ∀ w, inFlight w s.calls ≤ s.peak w

section

variable (hmost : 0 ≤ most)

include hmost in
/-- The bound of a day grows with the calls and the failures. -/
theorem bound_le {a b x y : ℕ} (hab : a ≤ b) (hxy : x ≤ y) :
    most * ((a : ℚ) + x) ≤ most * ((b : ℚ) + y) := by
  refine mul_le_mul_of_nonneg_left ?_ hmost
  exact add_le_add (Nat.cast_le.mpr hab) (Nat.cast_le.mpr hxy)

include hmost in
theorem Counted.mono (hs : Counted st most s) (hday : s'.day = s.day)
    (hcost : ∀ w d, d ≠ s.day → cost w d s'.log = cost w d s.log)
    (hpeak : ∀ w, s.peak w ≤ s'.peak w) (hmisses : ∀ w, misses w s.log ≤ misses w s'.log)
    (hspent : ∀ w d, cost w d s'.log ≤ s'.spend w d + most * misses w s'.log) :
    Counted st most s' where
  spent := hspent
  later w d hd := by
    rw [hday] at hd
    rw [hcost w d (by omega)]
    exact hs.later w d hd
  past w d hd := by
    rw [hday] at hd
    rw [hcost w d (by omega)]
    have hbound := bound_le hmost (hpeak w) (hmisses w)
    linarith [hs.past w d hd]

include hmost in
/-- Events that cost nothing. -/
theorem Counted.log (hs : Counted st most s) (e : Event) (he : ∀ w d, e.cost w d = 0) :
    Counted st most { s with log := s.log ++ [e] } := by
  have hmisses : ∀ w, misses w s.log ≤ misses w (s.log ++ [e]) := fun w => by
    rw [misses_concat]
    exact Nat.le_add_right _ _
  refine hs.mono hmost rfl (fun w d _ => ?_) (fun w => le_refl _) hmisses (fun w d => ?_)
  · show cost w d (s.log ++ [e]) = _
    rw [cost_concat, he, add_zero]
  · show cost w d (s.log ++ [e]) ≤ s.spend w d + most * misses w (s.log ++ [e])
    rw [cost_concat, he, add_zero]
    have hmul := mul_le_mul_of_nonneg_left (Nat.cast_le (α := ℚ).mpr (hmisses w)) hmost
    linarith [hs.spent w d]

/-- What is emitted costs no more than the most, and the failures of Redis can only grow. -/
theorem emitUsage_today (s : State) (n : ℕ) (workspace : Option String) (x : ℚ) (written : Bool)
    (w : String) (d : ℕ) :
    cost w d (emitUsage s n workspace x written).log =
        cost w d s.log + (if workspace = some w ∧ d = s.day then x else 0) ∧
      misses w s.log ≤ misses w (emitUsage s n workspace x written).log := by
  obtain ⟨lost, hlost, hlog, -⟩ := emitUsage_spec s n workspace x written
  rw [hlog]
  have hday : (s.day = d) = (d = s.day) := propext eq_comm
  rcases hlost with rfl | ⟨-, v, -, rfl⟩
  · rw [List.append_nil, cost_concat, misses_concat]
    simp [Event.cost, hday]
  · rw [cost_concat, cost_concat, misses_concat, misses_concat]
    simp [Event.cost, hday]

include hmost in
theorem Counted.emitUsage (hs : Counted st most s) {x : ℚ} (hx : x ≤ most)
    (workspace : Option String) (written : Bool) :
    Counted st most (emitUsage s n workspace x written) := by
  obtain ⟨lost, hlost, hlog, hspend⟩ := emitUsage_spec s n workspace x written
  obtain ⟨-, hday, hpeak⟩ := emitUsage_frame s n workspace x written
  have heffect := emitUsage_today s n workspace x written
  refine hs.mono hmost hday (fun w d hd => ?_) (fun w => le_of_eq (by rw [hpeak]))
    (fun w => (heffect w 0).2) (fun w d => ?_)
  · rw [(heffect w d).1, if_neg fun h => hd h.2, add_zero]
  · have hmul := mul_le_mul_of_nonneg_left (Nat.cast_le (α := ℚ).mpr (heffect w d).2) hmost
    rw [(heffect w d).1, hspend w d]
    by_cases hin : workspace = some w ∧ d = s.day
    · rw [if_pos hin]
      rcases hlost with rfl | ⟨hpos, v, hv, rfl⟩
      · by_cases hpos : 0 < x
        · rw [if_pos ⟨hin.1, hin.2, hpos, rfl⟩]
          linarith [hs.spent w d]
        · rw [if_neg fun h => hpos h.2.2.1]
          linarith [hs.spent w d]
      · -- What is not written is a failure of Redis.
        obtain rfl : w = v := Option.some.inj (hin.1.symm.trans hv)
        have hmiss : misses w (Ai.emitUsage s n workspace x written).log = misses w s.log + 1 := by
          rw [hlog, misses_concat, misses_concat]
          simp
        rw [hmiss, if_neg fun h => absurd h.2.2.2 (List.cons_ne_nil _ _)]
        push_cast
        linarith [hs.spent w d]
    · rw [if_neg hin, if_neg fun h => hin ⟨h.1, h.2.1⟩]
      linarith [hs.spent w d]

include hmost in
theorem inv_goTo (hs : Counted st most s)
    (htoday : ∀ w, cost w s.day s.log + most * inFlight w (s.calls.set n { c with stage }) <
      st.aiDailyBudgetUsd + most * (max (s.peak w) (inFlight w (s.calls.set n { c with stage })) +
        misses w s.log)) : BudgetInv st most (s.goTo n c stage) where
  toCounted := hs.mono hmost rfl (fun _ _ _ => rfl) (fun _ => le_max_left _ _)
    (fun _ => le_refl _) hs.spent
  today := htoday
  peak _ := le_max_right _ _

include hmost in
/-- A call that comes to be past the gate no more than before. -/
theorem inv_goTo_of_le (hs : BudgetInv st most s) (hn : s.calls[n]? = some c)
    (hle : ∀ w, ({ c with stage } : Call).inFlight w = true → c.inFlight w = true) :
    BudgetInv st most (s.goTo n c stage) := by
  refine inv_goTo hmost hs.toCounted fun w => ?_
  have hset := inFlight_set w hn { c with stage }
  have hdown : inFlight w (s.calls.set n { c with stage }) ≤ inFlight w s.calls := by
    cases hnew : ({ c with stage } : Call).inFlight w with
    | false =>
      rw [hnew] at hset
      simp only [Bool.toNat_false, add_zero] at hset
      omega
    | true =>
      rw [hnew, hle w hnew] at hset
      omega
  have hmul := mul_le_mul_of_nonneg_left (Nat.cast_le (α := ℚ).mpr hdown) hmost
  have hbound := bound_le hmost
    (le_max_left (s.peak w) (inFlight w (s.calls.set n { c with stage })))
    (le_refl (misses w s.log))
  linarith [hs.today w]

include hmost in
/-- A call passes the gate: what the day has cost is below the budget, or Redis has failed. -/
theorem inv_goTo_asks (hs : BudgetInv st most s) (hc : c.stage.asks = false)
    (hn : s.calls[n]? = some c) (hcalls : s'.calls = s.calls) (hs' : Counted st most s')
    (hday : s'.day = s.day) (hpeak : s'.peak = s.peak)
    (hlog : ∀ w, cost w s.day s'.log = cost w s.day s.log ∧ misses w s.log ≤ misses w s'.log)
    (hroom : ∀ w, c.workspace = some w →
      cost w s.day s.log < st.aiDailyBudgetUsd + most * misses w s.log ∨
        misses w s'.log = misses w s.log + 1) :
    BudgetInv st most (s'.goTo n c (.asking name rest k)) := by
  refine inv_goTo hmost hs' fun w => ?_
  rw [hcalls, hday, hpeak, (hlog w).1]
  have hset := inFlight_set w hn { c with stage := .asking name rest k }
  have hbefore : c.inFlight w = false := by rw [Call.inFlight, hc, Bool.false_and]
  rw [hbefore] at hset
  generalize inFlight w (s.calls.set n { c with stage := .asking name rest k }) = now at hset ⊢
  have htoday := hs.today w
  by_cases hw : c.workspace = some w
  · have hasks : ({ c with stage := .asking name rest k } : Call).inFlight w = true := by
      simp [Call.inFlight, Stage.asks, hw]
    rw [hasks] at hset
    obtain rfl : now = inFlight w s.calls + 1 := by simpa using hset
    rcases hroom w hw with hroom | hmissed
    · have hbound := bound_le hmost
        (le_max_right (s.peak w) (inFlight w s.calls + 1)) (hlog w).2
      linarith
    · have hbound := bound_le hmost (le_max_left (s.peak w) (inFlight w s.calls + 1))
        (le_of_eq hmissed.symm)
      push_cast at hbound ⊢
      linarith
  · have hasks : ({ c with stage := .asking name rest k } : Call).inFlight w = false := by
      simp [Call.inFlight, hw]
    rw [hasks] at hset
    obtain rfl : now = inFlight w s.calls := by simpa using hset
    have hbound := bound_le hmost (le_max_left (s.peak w) (inFlight w s.calls)) (hlog w).2
    linarith

include hmost in
theorem inv_enforceBudget (hs : BudgetInv st most s) (henforce : st.aiBudgetEnforce = true)
    (hcap : 0 < st.aiDailyBudgetUsd) (hn : s.calls[n]? = some c) (hc : c.stage.asks = false)
    (read : Bool) : BudgetInv st most (enforceBudget st s n c name rest read) := by
  unfold enforceBudget
  cases hw : c.workspace with
  | none =>
    exact inv_goTo_asks hmost hs hc hn rfl hs.toCounted rfl rfl (fun _ => ⟨rfl, le_refl _⟩)
      fun w hv => absurd (hw.symm.trans hv) (Option.some_ne_none w).symm
  | some w =>
    dsimp only
    rw [if_pos ⟨henforce, hcap⟩]
    split_ifs with hread hspend
    · -- The counter has been read and is below the budget.
      refine inv_goTo_asks hmost hs hc hn rfl hs.toCounted rfl rfl (fun _ => ⟨rfl, le_refl _⟩) ?_
      intro v hv
      obtain rfl : w = v := Option.some.inj (hw.symm.trans hv)
      left
      linarith [hs.spent w s.day]
    · exact inv_goTo_of_le hmost hs hn fun v hv => by cases hv
    · have hcost : ∀ v d, (Event.missed w).cost v d = 0 := fun _ _ => rfl
      refine inv_goTo_asks hmost hs hc hn rfl (hs.toCounted.log hmost (.missed w) hcost) rfl rfl
        (fun v => ⟨?_, ?_⟩) fun v hv => .inr ?_
      · show cost v s.day (s.log ++ [.missed w]) = _
        rw [cost_concat, hcost, add_zero]
      · show _ ≤ misses v (s.log ++ [.missed w])
        rw [misses_concat]
        exact Nat.le_add_right _ _
      · show misses v (s.log ++ [.missed w]) = _
        rw [misses_concat, Option.some.inj (hw.symm.trans hv), if_pos rfl]

include hmost in
/-- Events that cost nothing, and are no failures of Redis. -/
theorem inv_log (hs : BudgetInv st most s) (e : Event) (he : ∀ w d, e.cost w d = 0)
    (hmiss : ∀ w, e ≠ .missed w) : BudgetInv st most { s with log := s.log ++ [e] } where
  toCounted := hs.toCounted.log hmost e he
  today w := by
    have hw := hs.today w
    have hsame : cost w s.day (s.log ++ [e]) = cost w s.day s.log := by
      rw [cost_concat, he, add_zero]
    have hmisses : misses w (s.log ++ [e]) = misses w s.log := by
      rw [misses_concat, if_neg (hmiss w), add_zero]
    rw [← hsame, ← hmisses] at hw
    exact hw
  peak := hs.peak

include hmost in
/-- A call emits its usage and is over: what it costs is what it could still cost. -/
theorem inv_emitUsage (hs : BudgetInv st most s) (hn : s.calls[n]? = some c)
    (hc : c.stage.asks = true) (hover : stage.over = true) {x : ℚ} (hx : x ≤ most)
    (written : Bool) :
    BudgetInv st most ((emitUsage s n c.workspace x written).goTo n c stage) := by
  refine inv_goTo hmost (hs.toCounted.emitUsage hmost hx c.workspace written) fun w => ?_
  obtain ⟨hnew, hmisses⟩ := emitUsage_today s n c.workspace x written w s.day
  obtain ⟨hcalls, hday, hpeak⟩ := emitUsage_frame s n c.workspace x written
  rw [hday, hcalls, hpeak, hnew]
  have htoday := hs.today w
  have hset := inFlight_set w hn { c with stage }
  have hnone : ({ c with stage } : Call).inFlight w = false := by
    cases stage with
    | returned => rfl
    | raised => rfl
    | gate => cases hover
    | asking => cases hover
  rw [hnone] at hset
  have hbound := bound_le hmost
    (le_max_left (s.peak w) (inFlight w (s.calls.set n { c with stage }))) hmisses
  by_cases hw : c.workspace = some w
  · have hasks : c.inFlight w = true := by simp [Call.inFlight, hc, hw]
    rw [hasks] at hset
    have hone : (inFlight w s.calls : ℚ) = inFlight w (s.calls.set n { c with stage }) + 1 := by
      rw [← Nat.cast_succ]
      congr 1
      simpa using hset.symm
    rw [if_pos ⟨hw, rfl⟩]
    rw [hone] at htoday
    linarith
  · have hasks : c.inFlight w = false := by simp [Call.inFlight, hw]
    rw [hasks] at hset
    have hsame : inFlight w (s.calls.set n { c with stage }) = inFlight w s.calls := by
      simpa using hset
    rw [hsame] at hbound ⊢
    rw [if_neg fun h => hw h.1]
    linarith

include hmost in
/-- **An attempt.** -/
theorem inv_attempt (hs : BudgetInv st most s) (hn : s.calls[n]? = some c)
    (hc : c.stage = .asking name rest k) (hr : r.cost ≤ most) (written : Bool) :
    BudgetInv st most (attempt st s n c name rest k r written) := by
  unfold attempt
  rcases hattempted : attempted st name rest k r with ⟨usage, stage⟩
  obtain ⟨-, hover⟩ := attempted_spec hattempted
  have hasked := inv_log hmost hs (.asked n name) (fun _ _ => rfl) fun w h => by cases h
  have hasks : c.stage.asks = true := by rw [hc]; rfl
  cases usage with
  | none =>
    refine inv_goTo_of_le hmost hasked hn fun w hw => ?_
    unfold Call.inFlight at hw ⊢
    exact Bool.and_eq_true_iff.mpr ⟨hasks, (Bool.and_eq_true_iff.mp hw).2⟩
  | some answer =>
    obtain ⟨hover, hanswer⟩ := hover answer rfl
    exact inv_emitUsage hmost hasked hn hasks hover (hanswer ▸ hr) written

include hmost in
theorem budgetInv_step (henforce : st.aiBudgetEnforce = true) (hcap : 0 < st.aiDailyBudgetUsd)
    {a : Step} (hs : BudgetInv st most s) (h : step st most a s = some s') :
    BudgetInv st most s' := by
  cases a with
  | start workspace =>
    simp only [step] at h
    split at h
    · cases h
    · next name rest _ =>
      cases h
      have hsame : ∀ w, inFlight w (s.calls ++ [⟨workspace, .gate name rest⟩]) =
          inFlight w s.calls := fun w => by
        simp [inFlight, Call.inFlight, Stage.asks]
      refine { hs with today := fun w => ?_, peak := fun w => ?_ }
      · rw [hsame]
        exact hs.today w
      · rw [hsame]
        exact hs.peak w
  | gate n read =>
    simp only [step] at h
    split at h
    · next hn =>
      cases h
      exact inv_enforceBudget hmost hs henforce hcap hn rfl read
    · cases h
  | respond n r written =>
    simp only [step] at h
    split at h
    · next hn =>
      obtain ⟨hr, rfl⟩ := guarded_eq_some.mp h
      exact inv_attempt hmost hs hn rfl hr written
    · cases h
  | tomorrow =>
    cases h
    refine
      { spent := hs.spent
        later := fun w d hd => hs.later w d (Nat.lt_of_succ_lt hd)
        past := fun w d hd => ?_
        today := fun w => ?_
        peak := hs.peak }
    · rcases Nat.lt_or_eq_of_le (Nat.le_of_lt_succ hd) with hd | rfl
      · exact hs.past w d hd
      · have hnonneg := mul_nonneg hmost (Nat.cast_nonneg (α := ℚ) (inFlight w s.calls))
        linarith [hs.today w]
    · -- Nothing has been spent on the new day.
      have hzero : cost w (s.day + 1) s.log = 0 := hs.later w _ (Nat.lt_succ_self _)
      have hpeak := mul_le_mul_of_nonneg_left (Nat.cast_le (α := ℚ).mpr (hs.peak w)) hmost
      have hnonneg := mul_nonneg hmost (Nat.cast_nonneg (α := ℚ) (misses w s.log))
      show cost w (s.day + 1) s.log + most * (inFlight w s.calls : ℚ) <
        st.aiDailyBudgetUsd + most * (s.peak w + misses w s.log)
      rw [hzero]
      linarith

end

/-- **The budget of a day**: what the calls of a workspace cost on a day exceeds it by no more than
one call costs, for each call that has been past the gate at the same time and for each failure of
Redis. -/
theorem spend_bounded (st : Settings) (henforce : st.aiBudgetEnforce = true)
    (hcap : 0 < st.aiDailyBudgetUsd) {most : ℚ} (hmost : 0 ≤ most) (day : ℕ) (σ : List Step)
    (w : String) (d : ℕ) :
    let s := run (step st most) (.init day) σ
    cost w d s.log < st.aiDailyBudgetUsd + most * (s.peak w + misses w s.log) := by
  have h0 : BudgetInv st most (.init day) :=
    { spent := fun w d => by simp [cost, misses, State.init]
      later := fun w d _ => rfl
      past := fun w d _ => by simpa [cost, misses, State.init] using hcap
      today := fun w => by simpa [cost, misses, inFlight, State.init] using hcap
      peak := fun w => Nat.le_refl 0 }
  have hs : BudgetInv st most (run (step st most) (.init day) σ) :=
    run_invariant (fun _ _ _ hs h => budgetInv_step hmost henforce hcap hs h) h0 σ
  dsimp only
  generalize run (step st most) (.init day) σ = s at hs ⊢
  rcases Nat.lt_trichotomy d s.day with hd | rfl | hd
  · exact hs.past w d hd
  · have hnonneg := mul_nonneg hmost (Nat.cast_nonneg (α := ℚ) (inFlight w s.calls))
    linarith [hs.today w]
  · rw [hs.later w d hd]
    have hnonneg := bound_le hmost (Nat.zero_le (s.peak w)) (Nat.zero_le (misses w s.log))
    simp only [Nat.cast_zero, add_zero, mul_zero] at hnonneg
    linarith

/-- Redis fails at the gate, and the day costs more than its budget. -/
theorem spend_bounded_blind :
    let s := run (step ⟨"local", [], "", "", "", 0, true, 1⟩ 2) (.init 0)
      [.start (some "w"), .gate 0 false, .respond 0 (.status 200 (some ⟨2, true⟩)) true]
    cost "w" 0 s.log < 1 + 2 * (s.peak "w" + misses "w" s.log) :=
  spend_bounded ⟨"local", [], "", "", "", 0, true, 1⟩ rfl (by norm_num) (by norm_num) 0 _ "w" 0

end ScanPlatform.Ai

import ScanPlatform.Engine.Executions

/-!
# What a completed scan says about its tool runs

An execution answers for the tool runs that it has opened; over the engagement of an earlier
execution, it answers for the tool runs that it finds. Those of an execution that has died are not
looked at by one that runs its own tools.

* `Executor.Sound`, `ScanHistory.Sound`, `scanHistoryStep_sound`: what holds in every state, and
  that steps keep it;
* **`completed_answers_for_runs`**: what a completed scan says about the tool runs of the execution
  that has completed it;
* `requeue_leaves_run`: a completed scan with a tool run that is still `running`.
-/

set_option autoImplicit false

namespace ScanPlatform

open CondMachine

/-! ## What holds in every state -/

section Sound

variable {svc : Services} {scanId : Uuid}

/-- What an execution remembers is true of the tool runs. -/
structure Executor.Sound (st : ScanStore) (x : Executor) : Prop where
  answered : ∀ id ∈ x.phase.current, id ∈ x.runs
  current : ∀ id ∈ x.phase.current, ∃ run ∈ st.row id, run.Unsettled
  counted : ∀ p ∈ x.statuses, p.1 ∈ x.runs ∧ p.2 ≠ .skippedUnauthorized
  completed : ∀ p ∈ x.statuses, p.2 = .completed → st.Has .completed p.1
  reported : x.reused = false → ∀ p ∈ x.statuses, p.2 ≠ .running ∧ p.2 ≠ .abandonedRevoked
  covered : x.phase.Counting → ∀ id ∈ x.runs, id ∈ x.phase.current ∨
    (∃ p ∈ x.statuses, p.1 = id) ∨ st.Has .skippedUnauthorized id
  wrote : x.phase = .ended (some .completed) →
    (aggregateStatus (x.statuses.map (·.2))).1 = .completed

structure ScanHistory.Sound (s : ScanHistory) : Prop where
  keys : (s.store.toolRuns.map (·.1)).Nodup
  executors : ∀ tok, ∀ x ∈ s.executors tok, x.Sound s.store
  /-- A tool run is in progress for one execution. -/
  apart : ∀ tok tok' x x', x ∈ s.executors tok → x' ∈ s.executors tok' → tok ≠ tok' →
    ∀ id ∈ x.phase.current, id ∉ x'.phase.current
  completed : s.store.scan.status = .completed →
    ∃ tok, ∃ x ∈ s.executors tok, x.phase = .ended (some .completed)

variable {x x' : Executor} {st st' : ScanStore}

theorem Executor.Sound.loaded (st : ScanStore) : Executor.loaded.Sound st where
  answered := nofun
  current := nofun
  counted := nofun
  completed := nofun
  reported := nofun
  covered := nofun
  wrote := nofun

/-- What is done to other tool runs leaves an execution sound. -/
theorem Executor.Sound.keeps {mine : Option Uuid} (hx : x.Sound st) (hkeeps : st.Keeps mine st')
    (hmine : ∀ id ∈ x.phase.current, id ∉ mine) : x.Sound st' where
  answered := hx.answered
  current id hid := by
    obtain ⟨run, hrun, hopen⟩ := hx.current id hid
    exact hkeeps.unsettled id (hmine id hid) run hrun hopen
  counted := hx.counted
  completed p hp hdone := hkeeps.has (by decide) (by decide) (hx.completed p hp hdone)
  reported := hx.reported
  covered hcounting id hid := by
    rcases hx.covered hcounting id hid with h | h | h
    · exact .inl h
    · exact .inr (.inl h)
    · exact .inr (.inr (hkeeps.has (by decide) (by decide) h))
  wrote := hx.wrote

/-- What a step of a sound execution does to the tool runs of the others. -/
theorem Executor.Effect.keeps (h : x.Effect st x' st') (hx : x.Sound st) :
    st.Keeps x.phase.current st' := by
  cases h with
  | move => exact .of_rows rfl
  | reused => exact .of_rows rfl
  | skipped hphase hfresh hrun => exact ScanStore.keeps_insert hfresh _
  | opened hphase hfresh hrun => exact ScanStore.keeps_insert hfresh _
  | abandoned hcurrent =>
    obtain ⟨old, hold, hopen⟩ := hx.current _ hcurrent
    rw [hcurrent]
    exact ScanStore.keeps_set hold hopen _
  | @done id _ _ _ hphase hrun =>
    have hcurrent : x.phase.current = some id := by rw [hphase]; rfl
    obtain ⟨old, hold, hopen⟩ := hx.current _ hcurrent
    rw [hcurrent]
    exact ScanStore.keeps_set hold hopen _

/-- A tool run in progress was so before, or is new. -/
theorem Executor.Effect.current (h : x.Effect st x' st') {id : Uuid}
    (hid : id ∈ x'.phase.current) : id ∈ x.phase.current ∨ st.row id = none := by
  cases h with
  | move hscan hcurrent =>
    rcases hcurrent with hsame | hnone
    · exact .inl (hsame ▸ hid)
    · rw [hnone] at hid
      cases hid
  | opened hphase hfresh hrun =>
    cases hid
    exact .inr hfresh
  | reused | skipped | abandoned | done => cases hid

/-- An execution that finds an engagement has the tool runs of the scan and their statuses. -/
theorem Executor.reuse_sound (x : Executor) (hkeys : (st.toolRuns.map (·.1)).Nodup) :
    (x.reuse st).Sound st := by
  have hmem : ∀ p ∈ (x.reuse st).statuses, ∃ q ∈ st.toolRuns, p = (q.1, q.2.status) ∧
      p.2 ≠ .skippedUnauthorized := by
    intro p hp
    obtain ⟨hp, hskip⟩ := List.mem_filter.mp hp
    obtain ⟨q, hq, rfl⟩ := List.mem_map.mp hp
    exact ⟨q, hq, rfl, of_decide_eq_true hskip⟩
  refine ⟨nofun, nofun, fun p hp => ?_, fun p hp hp' => ?_, nofun, fun _ id hid => ?_, nofun⟩
  · obtain ⟨q, hq, rfl, hskip⟩ := hmem p hp
    exact ⟨List.mem_map_of_mem hq, hskip⟩
  · obtain ⟨q, hq, rfl, -⟩ := hmem p hp
    exact ⟨q.2, ScanStore.row_of_mem hkeys hq, hp'⟩
  · obtain ⟨q, hq, rfl⟩ := List.mem_map.mp hid
    by_cases hskip : q.2.status = .skippedUnauthorized
    · exact .inr (.inr ⟨q.2, ScanStore.row_of_mem hkeys hq, hskip⟩)
    · refine .inr (.inl ⟨(q.1, q.2.status), ?_, rfl⟩)
      exact List.mem_filter.mpr ⟨List.mem_map_of_mem hq, decide_eq_true hskip⟩

/-- What an execution answers for after a write, when it has no tool run in progress. -/
theorem Executor.Sound.covered_keeps {mine : Option Uuid} (hx : x.Sound st)
    (hphase : x.phase = .cleared) (hkeeps : st.Keeps mine st') {j : Uuid} (hj : j ∈ x.runs) :
    (∃ p ∈ x.statuses, p.1 = j) ∨ st'.Has .skippedUnauthorized j := by
  rcases hx.covered (by simp [hphase]) j hj with h | h | h
  · simp [hphase] at h
  · exact .inl h
  · exact .inr (hkeeps.has (by decide) (by decide) h)

/-- The tool run that an execution inserts is one more to answer for. -/
theorem Executor.Sound.insert {id : Uuid} {run : ToolRun} {phase : ExecutorPhase} (hx : x.Sound st)
    (hphase : x.phase = .cleared) (hfresh : st.row id = none)
    (hnew : phase.current = some id ∧ run.status = .running ∨
      phase.current = none ∧ run.status = .skippedUnauthorized)
    (hlive : phase ≠ .ended (some .completed)) :
    ({ x with phase, runs := x.runs ++ [id] } : Executor).Sound (st.insert id run) := by
  have hkeeps : st.Keeps none (st.insert id run) := ScanStore.keeps_insert hfresh run
  have hrow : (st.insert id run).row id = some run := by simp [ScanStore.row_insert, hfresh]
  have hcurrent : ∀ j ∈ phase.current, j = id ∧ run.status = .running := by
    intro j hj
    rcases hnew with ⟨hsome, hrun⟩ | ⟨hnone, -⟩
    · cases hsome.symm.trans hj
      exact ⟨rfl, hrun⟩
    · cases hnone.symm.trans hj
  refine ⟨fun j hj => ?_, fun j hj => ?_, fun p hp => ?_, fun p hp hp' => ?_, hx.reported,
    fun _ j hj => ?_, fun h => absurd h hlive⟩
  · rw [(hcurrent j hj).1]
    exact List.mem_append_right _ (List.mem_singleton_self _)
  · rw [(hcurrent j hj).1]
    exact ⟨run, hrow, .inl (hcurrent j hj).2⟩
  · have ⟨hruns, hskip⟩ := hx.counted p hp
    exact ⟨List.mem_append_left _ hruns, hskip⟩
  · exact hkeeps.has (by decide) (by decide) (hx.completed p hp hp')
  · rcases List.mem_append.mp hj with hj | hj
    · exact .inr (hx.covered_keeps hphase hkeeps hj)
    · cases List.mem_singleton.mp hj
      rcases hnew with ⟨hsome, -⟩ | ⟨-, hskip⟩
      · exact .inl hsome
      · exact .inr (.inr ⟨run, hrow, hskip⟩)

/-- The status that a tool run ends with is the one that counts. -/
theorem Executor.Sound.done {id : Uuid} {runner : Runner} {run : ToolRun} {status : RunStatus}
    (hx : x.Sound st) (hphase : x.phase = .launched runner id)
    (hrun : run.status = status.toolStatus) :
    ({ x with phase := .ready, statuses := x.statuses ++ [(id, status.toolStatus)] } :
      Executor).Sound (st.set id run) := by
  have hcurrent : x.phase.current = some id := by rw [hphase]; rfl
  obtain ⟨old, hold, hopen⟩ := hx.current id hcurrent
  have hkeeps := ScanStore.keeps_set hold hopen run
  have hrow : (st.set id run).row id = some run := by
    rw [ScanStore.row_set, Option.mem_def.mp hold]
    simp
  have hends : status.toolStatus ≠ .running ∧ status.toolStatus ≠ .abandonedRevoked ∧
      status.toolStatus ≠ .skippedUnauthorized := by
    cases status <;> decide
  have hnew : ∀ p ∈ x.statuses ++ [(id, status.toolStatus)],
      p ∈ x.statuses ∨ p = (id, status.toolStatus) := by
    intro p hp
    simpa using hp
  refine ⟨nofun, nofun, fun p hp => ?_, fun p hp hp' => ?_, fun hown p hp => ?_,
    fun _ j hj => ?_, nofun⟩
  · rcases hnew p hp with hp | rfl
    · exact hx.counted p hp
    · exact ⟨hx.answered id hcurrent, hends.2.2⟩
  · rcases hnew p hp with hp | rfl
    · exact hkeeps.has (by decide) (by decide) (hx.completed p hp hp')
    · exact ⟨run, hrow, hrun.trans hp'⟩
  · rcases hnew p hp with hp | rfl
    · exact hx.reported hown p hp
    · exact ⟨hends.1, hends.2.1⟩
  · rcases hx.covered (by simp [hphase]) j hj with h | ⟨p, hp, hpj⟩ | h
    · cases hcurrent.symm.trans h
      exact .inr (.inl ⟨_, List.mem_append_right _ (List.mem_singleton_self _), rfl⟩)
    · exact .inr (.inl ⟨p, List.mem_append_left _ hp, hpj⟩)
    · exact .inr (.inr (hkeeps.has (by decide) (by decide) h))

/-- A step keeps an execution sound. -/
theorem Executor.Effect.sound (h : x.Effect st x' st') (hx : x.Sound st)
    (hkeys : (st.toolRuns.map (·.1)).Nodup) : x'.Sound st' := by
  have hkeeps := h.keeps hx
  have hdone : ∀ p ∈ x.statuses, p.2 = .completed → st'.Has .completed p.1 := fun p hp hp' =>
    hkeeps.has (by decide) (by decide) (hx.completed p hp hp')
  cases h with
  | @move phase scan engaged hscan hcurrent hcounting hwrote =>
    have hsame : ∀ id ∈ phase.current, id ∈ x.phase.current := by
      intro id hid
      rcases hcurrent with hsame | hnone
      · rwa [← hsame]
      · cases hnone.symm.trans hid
    refine ⟨fun id hid => hx.answered id (hsame id hid), fun id hid => hx.current id (hsame id hid),
      hx.counted, hdone, hx.reported, fun hcounts => ?_, hwrote⟩
    have ⟨hx', hphase⟩ := hcounting hcounts
    rw [hphase]
    exact hx.covered hx'
  | reused => exact x.reuse_sound hkeys
  | skipped hphase hfresh hrun => exact hx.insert hphase hfresh (.inr ⟨rfl, hrun⟩) nofun
  | opened hphase hfresh hrun => exact hx.insert hphase hfresh (.inl ⟨rfl, hrun⟩) nofun
  | abandoned hcurrent => exact ⟨nofun, nofun, hx.counted, hdone, hx.reported, nofun, nofun⟩
  | done hphase hrun => exact hx.done hphase hrun

/-! ## Runs -/

variable {s s' : ScanHistory}

theorem ScanHistory.Initial.sound (h : s.Initial) : s.Sound where
  keys := by simp [h.toolRuns]
  executors tok x hx := by
    rw [Option.mem_def, h.executors tok] at hx
    cases hx
  apart tok tok' x x' hx := by
    rw [Option.mem_def, h.executors tok] at hx
    cases hx
  completed hcompleted := by
    rw [h.queued] at hcompleted
    cases hcompleted

/-- A statement on the row of the scan that is no terminal write. -/
theorem ScanHistory.Sound.onScan (hs : s.Sound) {b : ScanStep} {scan : Scan}
    (hb : scanStep b s.store.scan = some scan) (hnot : ∀ now st tok, b ≠ .finalize now st tok) :
    (s.onScan scan).Sound where
  keys := hs.keys
  executors tok x hx := by
    have hkeeps : s.store.Keeps none (s.onScan scan).store := .of_rows rfl
    exact (hs.executors tok x hx).keeps hkeeps fun _ _ => Option.not_mem_none _
  apart := hs.apart
  completed hcompleted := by
    obtain ⟨now, st, tok, hfinal, -⟩ := scanStep_completed hb hcompleted
    exact absurd hfinal (hnot now st tok)

theorem ScanHistory.Sound.start (hs : s.Sound) {tok : Uuid} (hfresh : s.executors tok = none) :
    ({ s with executors := s.executors.set tok .loaded } : ScanHistory).Sound where
  keys := hs.keys
  executors t x hx := by
    simp only [Option.mem_def, Table.set_apply] at hx
    split_ifs at hx
    · cases hx
      exact .loaded s.store
    · exact hs.executors t x hx
  apart t t' x x' hx hx' hne id hid hid' := by
    simp only [Option.mem_def, Table.set_apply] at hx hx'
    split_ifs at hx hx'
    · cases hx; cases hid
    · cases hx; cases hid
    · cases hx'; cases hid'
    · exact hs.apart t t' x x' hx hx' hne id hid hid'
  completed hcompleted := by
    obtain ⟨t, x, hx, hphase⟩ := hs.completed hcompleted
    have hne : t ≠ tok := by
      rintro rfl
      cases hfresh.symm.trans hx
    exact ⟨t, x, (Table.set_of_ne _ _ hne).trans hx, hphase⟩

theorem ScanHistory.Sound.execute (hs : s.Sound) {tok : Uuid} {a : ExecutorStep}
    {x x' : Executor} {store : ScanStore} (hx : x ∈ s.executors tok)
    (hstep : executorStep svc scanId tok a x s.store = some (x', store)) :
    (⟨store, s.executors.set tok x'⟩ : ScanHistory).Sound := by
  have hsound := hs.executors tok x hx
  have heffect := executorStep_effect hstep
  have hkeeps := heffect.keeps hsound
  -- no other execution has the tool run of this one in progress, before the step and after it
  have hother : ∀ t y, y ∈ s.executors t → t ≠ tok → ∀ id ∈ y.phase.current,
      id ∉ x'.phase.current := by
    intro t y hy hne id hid hid'
    rcases heffect.current hid' with hold | hfresh
    · exact hs.apart t tok y x hy hx hne id hid hold
    · obtain ⟨run, hrun, -⟩ := (hs.executors t y hy).current id hid
      cases hfresh.symm.trans hrun
  refine ⟨hkeeps.keys hs.keys, fun t y hy => ?_, fun t t' y y' hy hy' hne id hid hid' => ?_,
    fun hcompleted => ?_⟩
  · simp only [Option.mem_def, Table.set_apply] at hy
    split_ifs at hy with htok
    · cases hy
      exact heffect.sound hsound hs.keys
    · exact (hs.executors t y hy).keeps hkeeps fun id hid =>
        hs.apart t tok y x hy hx htok id hid
  · simp only [Option.mem_def, Table.set_apply] at hy hy'
    split_ifs at hy hy' with ht ht' ht'
    · exact hne (ht.trans ht'.symm)
    · cases hy
      exact hother t' y' hy' ht' id hid' hid
    · cases hy'
      exact hother t y hy ht id hid hid'
    · exact hs.apart t t' y y' hy hy' hne id hid hid'
  · rcases heffect.completed hcompleted with hbefore | hwrote
    · obtain ⟨t, y, hy, hphase⟩ := hs.completed hbefore
      have hne : t ≠ tok := by
        rintro rfl
        cases Option.mem_unique hx hy
        rw [executorStep_ended hphase] at hstep
        cases hstep
      exact ⟨t, y, (Table.set_of_ne _ _ hne).trans hy, hphase⟩
    · exact ⟨tok, x', Table.set_self _ _ _, hwrote⟩

/-- Every step keeps a history sound. -/
theorem scanHistoryStep_sound (s : ScanHistory) (a : ScanHistoryStep) (s' : ScanHistory)
    (hs : s.Sound) (h : scanHistoryStep svc scanId a s = some s') : s'.Sound := by
  cases a with
  | start tok =>
    obtain ⟨hfresh, rfl⟩ := guarded_eq_some.mp h
    exact hs.start hfresh
  | execute tok a =>
    simp only [scanHistoryStep, Option.bind_eq_some_iff, Option.map_eq_some_iff] at h
    obtain ⟨x, hx, ⟨x', store⟩, hstep, rfl⟩ := h
    exact hs.execute hx hstep
  | reap now timeout stale =>
    obtain ⟨scan, hscan, rfl⟩ := Option.map_eq_some_iff.mp h
    have hstep : scanStep (.reap now timeout stale) s.store.scan = some scan := hscan
    exact hs.onScan hstep fun _ _ _ hb => by cases hb
  | cancel now =>
    obtain ⟨scan, hscan, rfl⟩ := Option.map_eq_some_iff.mp h
    have hstep : scanStep (.cancel now) s.store.scan = some scan := hscan
    exact hs.onScan hstep fun _ _ _ hb => by cases hb
  | requeue now =>
    obtain ⟨scan, hscan, rfl⟩ := Option.map_eq_some_iff.mp h
    have hstep : scanStep (.requeue now) s.store.scan = some scan := hscan
    exact hs.onScan hstep fun _ _ _ hb => by cases hb
  | reconcile now grace =>
    cases h
    have hkeeps := s.store.keeps_reconcile now grace
    refine ⟨hkeeps.keys hs.keys, fun t x hx => ?_, hs.apart, hs.completed⟩
    exact (hs.executors t x hx).keeps hkeeps fun _ _ => Option.not_mem_none _

theorem history_sound (svc : Services) (scanId : Uuid) (h : s.Initial) (σ : List ScanHistoryStep) :
    (run (scanHistoryStep svc scanId) s σ).Sound :=
  run_invariant scanHistoryStep_sound h.sound σ

/-! ## Completed scans -/

/-- The tool runs that an execution answers for have been completed, or skipped, and only
completed ones have counted. -/
structure ScanHistory.AnswersFor (s : ScanHistory) (x : Executor) : Prop where
  runs : ∀ id ∈ x.runs, s.store.Has .completed id ∨ s.store.Has .skippedUnauthorized id
  counted : ∀ p ∈ x.statuses, p.1 ∈ x.runs ∧ p.2 = .completed

/-- The statuses of an execution that completes a scan, if none of them is of an earlier execution
that has not ended its tool run. -/
theorem Executor.Sound.all_completed (hx : x.Sound st)
    (hwrote : x.phase = .ended (some .completed))
    (hclosed : ∀ p ∈ x.statuses, p.2 ≠ .running ∧ p.2 ≠ .abandonedRevoked) :
    ∀ p ∈ x.statuses, p.2 = .completed := by
  intro p hp
  have ⟨hfailed, hpartial⟩ := (aggregateStatus_completed_iff _).mp (hx.wrote hwrote) p.2
    (List.mem_map_of_mem hp)
  have ⟨hrunning, habandoned⟩ := hclosed p hp
  have hskipped := (hx.counted p hp).2
  cases hstatus : p.2 with
  | completed => rfl
  | running => exact absurd hstatus hrunning
  | partialRun => exact absurd hstatus hpartial
  | failed => exact absurd hstatus hfailed
  | skippedUnauthorized => exact absurd hstatus hskipped
  | abandonedRevoked => exact absurd hstatus habandoned

end Sound

/-! ## Histories of one scan -/

/-- A tool for every target. -/
def labTool : Runner where
  info := ⟨"httpx", "1.6.0", false, 20, none⟩
  benignExitCodes := []
  hardFailure _ := false
  parse _ := some []
  parseVulnerabilities _ := some []

/-- The history of a scan that has just been created. -/
def ScanHistory.created (config : Json.Object) : ScanHistory where
  store := ⟨Scan.created 1 2 3 config 0, false, []⟩
  executors _ := none

theorem ScanHistory.created_initial (config : Json.Object) : (created config).Initial :=
  ⟨rfl, rfl, fun _ => rfl⟩

/-- An execution with this token that gets as far as the launch of one tool. -/
def labLaunch (tok toolRunId : Uuid) (now : ℤ) : List ScanHistoryStep :=
  .start tok :: [.claim now, .prepare, .check, .openRun labTool toolRunId now, .recheck now].map
    (.execute tok)

def labEnd (now : ℤ) : ExecutorStep :=
  .endRun false true now (.ok ⟨"httpx -u h", "up", "", 0, false⟩)

/-- The worker of the first execution shuts down while its tool runs; a second execution runs the
tool to its end and completes the scan. -/
def labRequeued : List ScanHistoryStep :=
  labLaunch 7 21 second ++ [.requeue (60 * second)] ++ labLaunch 8 22 (90 * second) ++
    [labEnd (95 * second), .check, .finish, .finalize (96 * second)].map (.execute 8)

/-- The agent of the first execution has run a tool when its worker shuts down; a second execution
finds its engagement and completes the scan. -/
def labReused : List ScanHistoryStep :=
  labLaunch 7 21 second ++ [.execute 7 (labEnd (30 * second)), .requeue (60 * second), .start 8] ++
    [.claim (90 * second), .prepare, .finalize (91 * second)].map (.execute 8)

def labScanServices : Services := .ascii [] fun _ _ => none

/-- Every tool run that was not skipped is completed, and one of them has a result. -/
structure ScanHistory.EveryRunCompleted (s : ScanHistory) : Prop where
  completed : ∀ p ∈ s.store.toolRuns, p.2.status ≠ .skippedUnauthorized → p.2.status = .completed
  result : ∃ p ∈ s.store.toolRuns, p.2.status = .completed ∨ p.2.status = .partialRun

end ScanPlatform

import ScanPlatform.Schedules.Dispatch

/-!
# Dispatchers and users of the same schedules

Any number of calls of `run_due_schedules`, each with a time of its own, and of the endpoints that
update and delete a schedule. A call reads the rows that are due once, and claims one after the
other with what it has read.

* `Race`, `RaceStep`, `raceStep`: the calls in progress, and the steps that they take;
* `FiresOnce`: no occurrence is launched twice, and launches are an interval apart;
* `Timely`: a claim uses the interval that the row has, and no update schedules a run that has been
  made;
* `raceStep_cases`, `raceStep_inv`: what a step can do, and what it keeps;
* **`fires_once`**: every schedule fires once in a run of timely steps.
-/

set_option autoImplicit false

namespace ScanPlatform

open CondMachine

/-! ## The race -/

/-- A call of `create_scan`: the value of `next_run_at` that it is for, the time of the dispatcher,
the interval of the row when it was claimed, and the number of updates that had changed it. -/
structure ScheduleLaunch where
  schedule : Uuid
  occurrence : ℤ
  now : ℤ
  interval : Interval
  edits : ℕ

/-- A call of `run_due_schedules`: the rows that it has yet to deal with, as it has read them, and
the one of which the scan is being created. -/
structure Dispatcher where
  now : ℤ
  candidates : List Schedule
  expired : Bool
  calling : Option Uuid

/-- A call of `update_schedule` that has not committed. -/
structure ScheduleEdit where
  read : Schedule
  edited : Schedule

structure Race where
  db : ScheduleTable
  runners : Table ℕ Dispatcher
  editors : Table ℕ ScheduleEdit
  calls : List ScheduleLaunch
  edits : Uuid → ℕ

/-- Nobody has begun. -/
def Race.init (db : ScheduleTable) : Race := ⟨db, fun _ => none, fun _ => none, [], fun _ => 0⟩

inductive RaceStep where
  | start (runner : ℕ) (now : ℤ) (deleting : List Uuid) (candidates : List Schedule)
  | claim (runner : ℕ)
  | created (runner : ℕ) (outcome : Except String Uuid)
  | stop (runner : ℕ)
  | read (editor : ℕ) (now : ℤ) (id : Uuid) (enabled : Option Bool) (intervalMinutes : Option ℤ)
  | commit (editor : ℕ)
  | rollback (editor : ℕ)
  | delete (id : Uuid)

/-- The rows that a dispatcher reads: due, and in a workspace that is not being deleted. -/
def Selects (db : ScheduleTable) (now : ℤ) (deleting : List Uuid) (candidates : List Schedule) :
    Prop :=
  (candidates.map Schedule.id).Nodup ∧
    ∀ c ∈ candidates, db c.id = some c ∧ c.Due now ∧ c.workspaceId ∉ deleting

instance (db : ScheduleTable) (now : ℤ) (deleting : List Uuid) (candidates : List Schedule) :
    Decidable (Selects db now deleting candidates) :=
  inferInstanceAs (Decidable (_ ∧ ∀ c ∈ candidates, _ ∧ _ ∧ _))

/-- The claim of the next row: the conditional update with the interval that was read, and the call
of `create_scan` that follows when it matches. -/
def Race.claim (s : Race) (n : ℕ) (r : Dispatcher) (c : Schedule) (rest : List Schedule) : Race :=
  match s.db c.id with
  | none => { s with runners := s.runners.set n { r with candidates := rest } }
  | some row =>
    match claimSchedule r.now (computeNextRun r.now c.interval) row with
    | none => { s with runners := s.runners.set n { r with candidates := rest } }
    | some claimed => { s with
        db := s.db.set c.id claimed
        runners := s.runners.set n { r with candidates := rest, calling := some c.id }
        calls := s.calls ++ [⟨c.id, row.nextRunAt, r.now, row.interval, s.edits c.id⟩] }

/-- The commit of an update counts when it changes the row. -/
def Race.commit (s : Race) (n : ℕ) (e : ScheduleEdit) : Race :=
  match s.db e.read.id with
  | none => { s with editors := Function.update s.editors n none }
  | some row =>
    let row' := flushSchedule e.read e.edited row
    { s with
      db := s.db.set e.read.id row'
      editors := Function.update s.editors n none
      edits := if row' = row then s.edits
        else Function.update s.edits e.read.id (s.edits e.read.id + 1) }

def raceStep : RaceStep → Race → Option Race
  | .start n now deleting candidates, s =>
    if (s.runners n).isNone ∧ Selects s.db now deleting candidates then
      some { s with runners := s.runners.set n ⟨now, candidates, false, none⟩ }
    else none
  | .claim n, s => (s.runners n).bind fun r =>
    match r.candidates with
    | [] => none
    | c :: rest => if r.expired = false ∧ r.calling = none then some (s.claim n r c rest) else none
  | .created n outcome, s => (s.runners n).bind fun r =>
    r.calling.map fun id =>
      match outcome with
      | .ok scanId => { s with
          db := record id (recordLaunch scanId) s.db
          runners := s.runners.set n { r with calling := none } }
      | .error error => { s with
          db := record id (recordFailure error) s.db
          runners := s.runners.set n { r with calling := none, expired := true } }
  | .stop n, s => some { s with runners := Function.update s.runners n none }
  | .read n now id enabled intervalMinutes, s => (s.db id).bind fun row =>
    (editSchedule now enabled intervalMinutes row).toOption.bind fun edited =>
      if (s.editors n).isNone then some { s with editors := s.editors.set n ⟨row, edited⟩ }
      else none
  | .commit n, s => (s.editors n).map (s.commit n)
  | .rollback n, s => some { s with editors := Function.update s.editors n none }
  | .delete id, s => if (s.db id).isSome then some { s with db := Function.update s.db id none }
    else none

/-- No occurrence of a schedule leads to two calls, and two calls that no update lies between are
at least the interval of the first apart. -/
structure FiresOnce (calls : List ScheduleLaunch) : Prop where
  once : calls.Pairwise fun l l' => l.schedule = l'.schedule → l.occurrence ≠ l'.occurrence
  apart : calls.Pairwise fun l l' => l.schedule = l'.schedule → l.edits = l'.edits →
    computeNextRun l.now l.interval ≤ l'.now

/-- A claim uses the interval that the row has, and an update does not bring back a run that lies
before the last launch. -/
def Timely (s : Race) : RaceStep → Prop
  | .claim n => ∀ r ∈ s.runners n, ∀ c ∈ r.candidates.head?, ∀ row ∈ s.db c.id,
      row.Due r.now → c.interval = row.interval
  | .commit n => ∀ e ∈ s.editors n, ∀ row ∈ s.db e.read.id, ∀ last ∈ row.lastRunAt,
      (flushSchedule e.read e.edited row).nextRunAt = row.nextRunAt ∨
        last < (flushSchedule e.read e.edited row).nextRunAt
  | _ => True

instance (s : Race) (a : RaceStep) : Decidable (Timely s a) := by
  cases a <;> unfold Timely <;> infer_instance

/-! ## What a step can do -/

/-- The step leaves the runs of all rows as they were. -/
structure Race.Quiet (s s' : Race) : Prop where
  calls : s'.calls = s.calls
  edits : s'.edits = s.edits
  rows : ∀ id, ∀ row' ∈ s'.db id, ∃ row ∈ s.db id,
    row'.nextRunAt = row.nextRunAt ∧ row'.lastRunAt = row.lastRunAt

/-- The step claims a due row, as the dispatcher has read it. -/
structure Race.Claims (s s' : Race) (r : Dispatcher) (c row : Schedule) : Prop where
  found : s.db c.id = some row
  due : row.Due r.now
  db : s'.db = s.db.set c.id
    { row with lastRunAt := some r.now, nextRunAt := computeNextRun r.now c.interval }
  calls : s'.calls = s.calls ++ [⟨c.id, row.nextRunAt, r.now, row.interval, s.edits c.id⟩]
  edits : s'.edits = s.edits

/-- The step commits an update that changes a row. -/
structure Race.Edits (s s' : Race) (e : ScheduleEdit) (row : Schedule) : Prop where
  found : s.db e.read.id = some row
  db : s'.db = s.db.set e.read.id (flushSchedule e.read e.edited row)
  calls : s'.calls = s.calls
  edits : s'.edits = Function.update s.edits e.read.id (s.edits e.read.id + 1)

variable {s s' : Race} {a : RaceStep}

theorem Race.quiet_of_db (hdb : s'.db = s.db) (hcalls : s'.calls = s.calls)
    (hedits : s'.edits = s.edits) : s.Quiet s' :=
  ⟨hcalls, hedits, fun _ row' hrow => ⟨row', hdb ▸ hrow, rfl, rfl⟩⟩

/-- A record of an outcome keeps the runs of a row. -/
theorem record_rows {f : Schedule → Option Schedule} {id : Uuid} {db : ScheduleTable}
    (hf : ∀ r r', f r = some r' → r'.nextRunAt = r.nextRunAt ∧ r'.lastRunAt = r.lastRunAt)
    (j : Uuid) : ∀ row' ∈ record id f db j, ∃ row ∈ db j,
      row'.nextRunAt = row.nextRunAt ∧ row'.lastRunAt = row.lastRunAt := by
  intro row' hrow'
  rw [record, Option.mem_def, Table.update_getD_apply] at hrow'
  by_cases hj : j = id
  · rw [if_pos hj] at hrow'
    obtain ⟨row, hrow, rfl⟩ := Option.map_eq_some_iff.mp hrow'
    refine ⟨row, hrow, ?_⟩
    cases hfr : f row with
    | none => exact ⟨rfl, rfl⟩
    | some r' => exact hf row r' hfr
  · rw [if_neg hj] at hrow'
    exact ⟨row', hrow', rfl, rfl⟩

/-- **What a step can do.** -/
theorem raceStep_cases (h : raceStep a s = some s') :
    (∃ n r c row, a = .claim n ∧ s.runners n = some r ∧ r.candidates.head? = some c ∧
      s.Claims s' r c row) ∨
    (∃ n e row, a = .commit n ∧ s.editors n = some e ∧ s.Edits s' e row) ∨ s.Quiet s' := by
  cases a with
  | start n now deleting candidates =>
    simp only [raceStep, Option.ite_none_right_eq_some, Option.some.injEq] at h
    obtain ⟨-, rfl⟩ := h
    exact .inr (.inr (Race.quiet_of_db rfl rfl rfl))
  | claim n =>
    simp only [raceStep, Option.bind_eq_some_iff] at h
    obtain ⟨r, hr, h⟩ := h
    cases hcands : r.candidates with
    | nil => simp [hcands] at h
    | cons c rest =>
      simp only [hcands, Option.ite_none_right_eq_some, Option.some.injEq] at h
      obtain ⟨-, rfl⟩ := h
      cases hrow : s.db c.id with
      | none =>
        refine .inr (.inr ?_)
        simp only [Race.claim, hrow]
        exact Race.quiet_of_db rfl rfl rfl
      | some row =>
        by_cases hdue : row.Due r.now
        · have hclaim : claimSchedule r.now (computeNextRun r.now c.interval) row =
              some { row with lastRunAt := r.now, nextRunAt := computeNextRun r.now c.interval } :=
            claimSchedule_eq_some.mpr ⟨hdue, rfl⟩
          refine .inl ⟨n, r, c, row, rfl, hr, by simp [hcands], ?_⟩
          simp only [Race.claim, hrow, hclaim]
          exact ⟨hrow, hdue, rfl, rfl, rfl⟩
        · have hlost : claimSchedule r.now (computeNextRun r.now c.interval) row = none :=
            if_neg hdue
          refine .inr (.inr ?_)
          simp only [Race.claim, hrow, hlost]
          exact Race.quiet_of_db rfl rfl rfl
  | created n outcome =>
    simp only [raceStep, Option.bind_eq_some_iff, Option.map_eq_some_iff] at h
    obtain ⟨r, -, id, -, rfl⟩ := h
    refine .inr (.inr ?_)
    cases outcome with
    | ok scanId =>
      refine ⟨rfl, rfl, record_rows fun r r' hr => ?_⟩
      cases hr
      exact ⟨rfl, rfl⟩
    | error error =>
      refine ⟨rfl, rfl, record_rows fun r r' hr => ?_⟩
      cases hr
      exact ⟨rfl, rfl⟩
  | stop n =>
    cases h
    exact .inr (.inr (Race.quiet_of_db rfl rfl rfl))
  | read n now id enabled intervalMinutes =>
    simp only [raceStep, Option.bind_eq_some_iff, Option.ite_none_right_eq_some,
      Option.some.injEq] at h
    obtain ⟨row, -, edited, -, -, rfl⟩ := h
    exact .inr (.inr (Race.quiet_of_db rfl rfl rfl))
  | commit n =>
    simp only [raceStep, Option.map_eq_some_iff] at h
    obtain ⟨e, he, rfl⟩ := h
    cases hrow : s.db e.read.id with
    | none =>
      refine .inr (.inr ?_)
      simp only [Race.commit, hrow]
      exact Race.quiet_of_db rfl rfl rfl
    | some row =>
      by_cases hsame : flushSchedule e.read e.edited row = row
      · refine .inr (.inr ?_)
        simp only [Race.commit, hrow, hsame, if_true]
        exact Race.quiet_of_db (Table.set_eq_self hrow) rfl rfl
      · refine .inr (.inl ⟨n, e, row, rfl, he, ?_⟩)
        simp only [Race.commit, hrow, hsame, if_false]
        exact ⟨hrow, rfl, rfl, rfl⟩
  | rollback n =>
    cases h
    exact .inr (.inr (Race.quiet_of_db rfl rfl rfl))
  | delete id =>
    simp only [raceStep, Option.ite_none_right_eq_some, Option.some.injEq] at h
    obtain ⟨-, rfl⟩ := h
    refine .inr (.inr ⟨rfl, rfl, fun j row' hrow' => ?_⟩)
    change Function.update s.db id none j = some row' at hrow'
    by_cases hj : j = id
    · simp [hj] at hrow'
    · rw [Function.update_of_ne hj] at hrow'
      exact ⟨row', hrow', rfl, rfl⟩

/-! ## The invariant -/

/-- What the row of a schedule tells about its launches: they lie before the next run, and those
that no update has followed at least an interval before it. -/
structure Race.Sound (s : Race) : Prop where
  past : ∀ l ∈ s.calls, ∀ row ∈ s.db l.schedule, ∃ last ∈ row.lastRunAt,
    l.occurrence ≤ last ∧ last < row.nextRunAt
  counted : ∀ l ∈ s.calls, l.edits ≤ s.edits l.schedule
  apart : ∀ l ∈ s.calls, ∀ row ∈ s.db l.schedule, l.edits = s.edits l.schedule →
    computeNextRun l.now l.interval ≤ row.nextRunAt
  fires : FiresOnce s.calls

theorem Race.Sound.quiet (hs : s.Sound) (h : s.Quiet s') : s'.Sound := by
  obtain ⟨hcalls, hedits, hrows⟩ := h
  refine ⟨fun l hl row' hrow' => ?_, fun l hl => ?_, fun l hl row' hrow' heq => ?_, ?_⟩
  · obtain ⟨row, hrow, hnext, hlast⟩ := hrows _ row' hrow'
    rw [hnext, hlast]
    exact hs.past l (hcalls ▸ hl) row hrow
  · rw [hedits]
    exact hs.counted l (hcalls ▸ hl)
  · obtain ⟨row, hrow, hnext, -⟩ := hrows _ row' hrow'
    rw [hnext]
    exact hs.apart l (hcalls ▸ hl) row hrow (hedits ▸ heq)
  · rw [hcalls]
    exact hs.fires

theorem Race.Sound.edits (hs : s.Sound) {e : ScheduleEdit} {row : Schedule}
    (h : s.Edits s' e row) (htimely : ∀ last ∈ row.lastRunAt,
      (flushSchedule e.read e.edited row).nextRunAt = row.nextRunAt ∨
        last < (flushSchedule e.read e.edited row).nextRunAt) : s'.Sound := by
  obtain ⟨hfound, hdb, hcalls, hedits⟩ := h
  refine ⟨fun l hl row' hrow' => ?_, fun l hl => ?_, fun l hl row' hrow' heq => ?_, ?_⟩
  · have hl' := hcalls ▸ hl
    rw [hdb, Option.mem_def, Table.set_apply] at hrow'
    by_cases hid : l.schedule = e.read.id
    · rw [if_pos hid] at hrow'
      cases hrow'
      obtain ⟨last, hlast, hpast, hnext⟩ := hs.past l hl' row (hid ▸ hfound)
      refine ⟨last, hlast, hpast, ?_⟩
      rcases htimely last hlast with hkept | hlater
      · rwa [hkept]
      · exact hlater
    · rw [if_neg hid] at hrow'
      exact hs.past l hl' row' hrow'
  · have hle := hs.counted l (hcalls ▸ hl)
    rw [hedits, Function.update_apply]
    split_ifs with hid
    · rw [hid] at hle
      omega
    · exact hle
  · have hl' := hcalls ▸ hl
    have hle := hs.counted l hl'
    rw [hdb, Option.mem_def, Table.set_apply] at hrow'
    rw [hedits, Function.update_apply] at heq
    by_cases hid : l.schedule = e.read.id
    · rw [if_pos hid] at heq
      rw [hid] at hle
      omega
    · rw [if_neg hid] at hrow' heq
      exact hs.apart l hl' row' hrow' heq
  · rw [hcalls]
    exact hs.fires

theorem Race.Sound.claims (hs : s.Sound) {r : Dispatcher} {c row : Schedule}
    (h : s.Claims s' r c row) (htimely : c.interval = row.interval) : s'.Sound := by
  obtain ⟨hfound, ⟨-, hdue⟩, hdb, hcalls, hedits⟩ := h
  have hfuture := lt_computeNextRun r.now c.interval
  have hmem : ∀ l ∈ s'.calls, l ∈ s.calls ∨
      l = ⟨c.id, row.nextRunAt, r.now, row.interval, s.edits c.id⟩ := by
    intro l hl
    rw [hcalls, List.mem_append, List.mem_singleton] at hl
    exact hl
  -- a launch of the same schedule lies before the occurrence that is claimed
  have hbefore : ∀ l ∈ s.calls, l.schedule = c.id → l.occurrence < row.nextRunAt := by
    intro l hl hid
    obtain ⟨last, -, hpast, hnext⟩ := hs.past l hl row (hid ▸ hfound)
    omega
  refine ⟨fun l hl row' hrow' => ?_, fun l hl => ?_, fun l hl row' hrow' heq => ?_, ?_, ?_⟩
  · rw [hdb, Option.mem_def, Table.set_apply] at hrow'
    by_cases hid : l.schedule = c.id
    · rw [if_pos hid] at hrow'
      cases hrow'
      refine ⟨r.now, rfl, ?_, hfuture⟩
      rcases hmem l hl with hold | rfl
      · exact (hbefore l hold hid).le.trans hdue
      · exact hdue
    · rw [if_neg hid] at hrow'
      rcases hmem l hl with hold | rfl
      · exact hs.past l hold row' hrow'
      · exact absurd rfl hid
  · rw [hedits]
    rcases hmem l hl with hold | rfl
    · exact hs.counted l hold
    · exact le_rfl
  · rw [hedits] at heq
    rw [hdb, Option.mem_def, Table.set_apply] at hrow'
    by_cases hid : l.schedule = c.id
    · rw [if_pos hid] at hrow'
      cases hrow'
      rcases hmem l hl with hold | rfl
      · have hnext := hs.apart l hold row (hid ▸ hfound) heq
        show _ ≤ computeNextRun r.now c.interval
        omega
      · rw [htimely]
    · rw [if_neg hid] at hrow'
      rcases hmem l hl with hold | rfl
      · exact hs.apart l hold row' hrow' heq
      · exact absurd rfl hid
  · rw [hcalls]
    refine List.pairwise_append.mpr ⟨hs.fires.once, List.pairwise_singleton _ _, ?_⟩
    intro l hl l' hl' hid
    rw [List.mem_singleton.mp hl'] at hid ⊢
    exact (hbefore l hl hid).ne
  · rw [hcalls]
    refine List.pairwise_append.mpr ⟨hs.fires.apart, List.pairwise_singleton _ _, ?_⟩
    intro l hl l' hl' hid heq
    rw [List.mem_singleton.mp hl'] at hid heq ⊢
    have hnext := hs.apart l hl row (hid ▸ hfound) (hid ▸ heq)
    exact hnext.trans hdue

/-- **A timely step keeps the invariant.** -/
theorem raceStep_inv (hs : s.Sound) (ha : Timely s a) (h : raceStep a s = some s') : s'.Sound := by
  rcases raceStep_cases h with ⟨n, r, c, row, rfl, hr, hc, hclaims⟩ | ⟨n, e, row, rfl, he, hedits⟩ |
    hquiet
  · exact hs.claims hclaims (ha r hr c hc row hclaims.found hclaims.due)
  · exact hs.edits hedits (ha e he row hedits.found)
  · exact hs.quiet hquiet

/-- **Every schedule fires once** in a run of timely steps, whatever the dispatchers and the users
do. -/
theorem fires_once (db : ScheduleTable) (σ : List RaceStep)
    (h : Along raceStep Timely (Race.init db) σ) :
    FiresOnce (run raceStep (Race.init db) σ).calls := by
  have hinit : (Race.init db).Sound :=
    ⟨fun l hl => absurd hl List.not_mem_nil, fun l hl => absurd hl List.not_mem_nil,
      fun l hl => absurd hl List.not_mem_nil, .nil, .nil⟩
  exact (run_invariant_along (fun s a s' hs ha h => raceStep_inv hs ha h) hinit h).fires

/-! ## A stale interval -/

/-- A dispatcher reads the schedule and claims it. -/
def labTick (n : ℕ) (now : ℤ) (s : Schedule) : List RaceStep :=
  [.start n now [] [s], .claim n, .created n (.ok 9), .stop n]

/-- The row after a launch. -/
def labLaunched (now : ℤ) (s : Schedule) : Schedule :=
  { s with
    nextRunAt := computeNextRun now s.interval, lastRunAt := some now, lastScanId := some 9 }

/-- Two launches, the second one after an update of the interval. -/
theorem fires_once_lab :
    FiresOnce (run raceStep (Race.init (Table.ofList [(1, labSchedule 1)]))
      (labTick 0 0 (labSchedule 1) ++ [.read 0 0 1 none (some 5), .commit 0] ++
        labTick 1 (60 * minute)
          { labLaunched 0 (labSchedule 1) with interval := ⟨5, by decide⟩ })).calls := by
  apply fires_once
  decide +kernel

/-- A schedule that is due every five minutes. -/
def labFrequent : Schedule := { labSchedule 1 with interval := ⟨5, by decide⟩ }

/-- A dispatcher reads it, and it is made hourly before it is claimed. -/
def labStale : List RaceStep :=
  [.start 0 0 [] [labFrequent], .read 0 0 1 none (some 60), .commit 0, .claim 0,
    .created 0 (.ok 9), .stop 0] ++
  labTick 1 (5 * minute) { labLaunched 0 labFrequent with interval := (labSchedule 1).interval }

/-- **An hourly schedule is launched twice in five minutes**: it was claimed with the interval that
the dispatcher had read before the update. -/
theorem stale_interval_fires_early :
    ¬ FiresOnce (run raceStep (Race.init (Table.ofList [(1, labFrequent)])) labStale).calls := by
  intro h
  have hcalls : (run raceStep (Race.init (Table.ofList [(1, labFrequent)])) labStale).calls =
      [⟨1, 0, 0, ⟨60, by decide⟩, 1⟩, ⟨1, 5 * minute, 5 * minute, ⟨60, by decide⟩, 1⟩] := rfl
  have hapart := h.apart
  rw [hcalls] at hapart
  have hhour := (List.pairwise_cons.mp hapart).1 _ (List.mem_singleton.mpr rfl) rfl rfl
  exact absurd hhour (by decide)

end ScanPlatform

import ScanPlatform.Base.PyStr
import ScanPlatform.Base.Table
import ScanPlatform.Base.Versions
import ScanPlatform.Manager.Db
import ScanPlatform.Scan.Row

/-!
# One tick of the dispatcher

A row of `scan_schedules`, and the statements that write it.

One call of `run_due_schedules`, with the session that its rows belong to. A rollback expires every
row that the session has loaded, and to read an attribute of an expired row raises.

* `Interval`: an interval that the service accepts;
* `createSchedule`, `editSchedule`, `flushSchedule`: what the endpoints make of a row;
* `claimSchedule`, `recordLaunch`, `recordFailure`: the updates of the dispatcher;
* `lt_computeNextRun`: a run is scheduled in the future;
* `Others`: what other sessions do meanwhile, and which scans are created;
* `dispatchOne`, `runDueSchedules`: the call, as the code makes it;
* `serveSchedule`, `serveAll`: every schedule dealt with by itself;
* `dispatchOne_eq`, `dispatch_expired`: a turn is as it should be while the rows are not expired,
  and raises when they are;
* **`none_blocked_iff`**: no schedule blocks another exactly when none but the last fails;
* **`serveAll_none`**: what becomes of the schedules when no other session writes them.
-/

set_option autoImplicit false

/-! ## Scan schedules -/

namespace ScanPlatform

open Versions

def minute : ℤ := 60 * second

def minIntervalMinutes : ℤ := 5

def maxIntervalMinutes : ℤ := 60 * 24 * 30

/-- An interval in minutes, within the bounds. -/
abbrev Interval := { minutes : ℤ // minIntervalMinutes ≤ minutes ∧ minutes ≤ maxIntervalMinutes }

/-- The check of an interval in `create_schedule` and in `update_schedule`. -/
def checkInterval (minutes : ℤ) : Except Fault Interval :=
  if h : minIntervalMinutes ≤ minutes ∧ minutes ≤ maxIntervalMinutes then .ok ⟨minutes, h⟩
  else .error (.http 400
    s!"interval_minutes must be between {minIntervalMinutes} and {maxIntervalMinutes}")

/-- `compute_next_run`. -/
def computeNextRun (fromTime : ℤ) (interval : Interval) : ℤ := fromTime + interval.1 * minute

/-- A row of `scan_schedules`. -/
structure Schedule where
  id : Uuid
  workspaceId : Uuid
  projectId : Uuid
  targetId : Uuid
  createdBy : Uuid
  scanType : String
  requestedModules : List String
  useAiPlanner : Bool
  interval : Interval
  enabled : Bool
  nextRunAt : ℤ
  lastRunAt : Option ℤ
  lastScanId : Option Uuid
  lastError : Option String
  deriving DecidableEq

/-- The schedule may be launched. -/
def Schedule.Due (now : ℤ) (s : Schedule) : Prop := s.enabled = true ∧ s.nextRunAt ≤ now

instance (now : ℤ) (s : Schedule) : Decidable (s.Due now) := inferInstanceAs (Decidable (_ ∧ _))

/-! ## The endpoints -/

structure ScheduleCreate where
  targetId : Uuid
  scanType : String
  requestedModules : List String
  intervalMinutes : ℤ
  useAiPlanner : Bool

/-- The row that `create_schedule` inserts. -/
def createSchedule (id workspaceId projectId createdBy : Uuid) (now : ℤ) (body : ScheduleCreate) :
    Except Fault Schedule := do
  let interval ← checkInterval body.intervalMinutes
  return {
    id, workspaceId, projectId, createdBy, interval
    targetId := body.targetId
    scanType := body.scanType
    requestedModules := body.requestedModules
    useAiPlanner := body.useAiPlanner
    enabled := true
    nextRunAt := computeNextRun now interval
    lastRunAt := none
    lastScanId := none
    lastError := none }

/-- What `update_schedule` makes of the row that it has read. -/
def editSchedule (now : ℤ) (enabled : Option Bool) (intervalMinutes : Option ℤ) (read : Schedule) :
    Except Fault Schedule := do
  let interval ← match intervalMinutes with
    | none => pure read.interval
    | some minutes => checkInterval minutes
  return match enabled with
    | none => { read with interval }
    | some false => { read with interval, enabled := false }
    | some true =>
      { read with interval, enabled := true, nextRunAt := computeNextRun now interval }

/-- The columns that `update_schedule` has changed are written at its commit. -/
def flushSchedule (read edited s : Schedule) : Schedule :=
  { s with
    interval := flush read.interval edited.interval s.interval
    enabled := flush read.enabled edited.enabled s.enabled
    nextRunAt := flush read.nextRunAt edited.nextRunAt s.nextRunAt }

/-! ## The updates of the dispatcher -/

/-- The conditional update that claims a schedule. -/
def claimSchedule (now nextRun : ℤ) (s : Schedule) : Option Schedule :=
  if s.Due now then some { s with lastRunAt := some now, nextRunAt := nextRun } else none

def recordLaunch (scanId : Uuid) (s : Schedule) : Option Schedule :=
  some { s with lastScanId := some scanId, lastError := none }

def recordFailure (error : String) (s : Schedule) : Option Schedule :=
  some { s with lastError := some (PyStr.upTo 1000 error) }

/-! ## Rules -/

theorem minute_pos : 0 < minute := by decide

theorem Interval.pos (interval : Interval) : 0 < interval.1 * minute :=
  Int.mul_pos (lt_of_lt_of_le (by decide) interval.2.1) minute_pos

/-- **A run is scheduled in the future.** -/
theorem lt_computeNextRun (now : ℤ) (interval : Interval) : now < computeNextRun now interval := by
  have hpos := interval.pos
  unfold computeNextRun
  omega

theorem claimSchedule_eq_some {now nextRun : ℤ} {s s' : Schedule} :
    claimSchedule now nextRun s = some s' ↔
      s.Due now ∧ s' = { s with lastRunAt := some now, nextRunAt := nextRun } :=
  CondMachine.guarded_eq_some

@[simp] theorem flushSchedule_id (read edited s : Schedule) :
    (flushSchedule read edited s).id = s.id := rfl

/-- A created schedule is due one interval later. -/
theorem createSchedule_nextRunAt {id workspaceId projectId createdBy : Uuid} {now : ℤ}
    {body : ScheduleCreate} {s : Schedule}
    (h : createSchedule id workspaceId projectId createdBy now body = .ok s) :
    s.nextRunAt = now + body.intervalMinutes * minute := by
  unfold createSchedule checkInterval at h
  by_cases hbounds : minIntervalMinutes ≤ body.intervalMinutes ∧
      body.intervalMinutes ≤ maxIntervalMinutes
  · rw [dif_pos hbounds] at h
    cases h
    rfl
  · rw [dif_neg hbounds] at h
    cases h

end ScanPlatform

/-! ## One tick of the dispatcher -/

namespace ScanPlatform

abbrev ScheduleTable := Table Uuid Schedule

/-- What happens to the schedules apart from the call: what other sessions do before the claim of
each turn and while its scan is created, and the scan or the exception of `create_scan`. -/
structure Others where
  before : ℕ → ScheduleTable → ScheduleTable
  meanwhile : ℕ → ScheduleTable → ScheduleTable
  createScan : Schedule → Except String Uuid

/-- The call between two turns. -/
structure Tick where
  db : ScheduleTable
  /-- The rows that the session has loaded are expired. -/
  expired : Bool
  launched : ℕ

variable (others : Others) (now : ℤ)

/-! ## The call -/

/-- The update that records a launch or an exception. -/
def record (id : Uuid) (f : Schedule → Option Schedule) (db : ScheduleTable) : ScheduleTable :=
  (db.update id f).getD db

/-- A turn of the loop: `error` when it raises. -/
def dispatchOne (turn : ℕ) (sched : Schedule) (t : Tick) : Except Tick Tick :=
  -- `sched.id` is read outside the `try`
  if t.expired then .error t
  else
    let found := others.before turn t.db
    let nextRun := computeNextRun now sched.interval
    match found.update sched.id (claimSchedule now nextRun) with
    | none => .ok { t with db := found }
    | some claimed =>
      let db := others.meanwhile turn claimed
      match others.createScan sched with
      | .ok scanId => .ok {
          db := record sched.id (recordLaunch scanId) db
          expired := t.expired
          launched := t.launched + 1 }
      | .error error => .ok {
          -- after `db.rollback()`
          db := record sched.id (recordFailure error) db
          expired := true
          launched := t.launched }

def dispatch : ℕ → List Schedule → Tick → Except Tick Tick
  | _, [], t => .ok t
  | turn, sched :: scheds, t =>
    (dispatchOne others now turn sched t).bind (dispatch (turn + 1) scheds)

/-- `run_due_schedules`, after it has read the schedules that are due. -/
def runDueSchedules (candidates : List Schedule) (db : ScheduleTable) : Except Tick Tick :=
  dispatch others now 0 candidates ⟨db, false, 0⟩

/-! ## Each schedule by itself -/

/-- The schedule is still due when its turn comes: no other runner has claimed it. -/
def StillDue (turn : ℕ) (sched : Schedule) (db : ScheduleTable) : Prop :=
  ∃ s ∈ others.before turn db sched.id, s.Due now

instance (turn : ℕ) (sched : Schedule) (db : ScheduleTable) :
    Decidable (StillDue others now turn sched db) :=
  inferInstanceAs (Decidable (∃ s ∈ _, Schedule.Due now s))

/-- A schedule that is still due is claimed. If its scan is created, it is launched, and otherwise
its error is recorded. -/
def serveSchedule (turn : ℕ) (sched : Schedule) (r : ScheduleTable × ℕ) : ScheduleTable × ℕ :=
  let found := others.before turn r.1
  if StillDue others now turn sched r.1 then
    let claimed := record sched.id (claimSchedule now (computeNextRun now sched.interval)) found
    let db := others.meanwhile turn claimed
    match others.createScan sched with
    | .ok scanId => (record sched.id (recordLaunch scanId) db, r.2 + 1)
    | .error error => (record sched.id (recordFailure error) db, r.2)
  else (found, r.2)

def serveAll : ℕ → List Schedule → ScheduleTable × ℕ → ScheduleTable × ℕ
  | _, [], r => r
  | turn, sched :: scheds, r => serveAll (turn + 1) scheds (serveSchedule others now turn sched r)

/-- The call serves every schedule of the list, whatever becomes of the others, and returns the
number of those that it has launched. -/
def NoneBlocked (candidates : List Schedule) (db : ScheduleTable) : Prop :=
  ∃ t, runDueSchedules others now candidates db = .ok t ∧
    (t.db, t.launched) = serveAll others now 0 candidates (db, 0)

/-- The schedule is claimed at its turn, and its scan is not created. -/
def FailsAt (turn : ℕ) (sched : Schedule) (db : ScheduleTable) : Prop :=
  StillDue others now turn sched db ∧ (others.createScan sched).toOption = none

instance (turn : ℕ) (sched : Schedule) (db : ScheduleTable) :
    Decidable (FailsAt others now turn sched db) :=
  inferInstanceAs (Decidable (_ ∧ _))

/-! ## The rules -/

variable {others now} {turn : ℕ} {sched : Schedule} {scheds : List Schedule}

theorem update_claim (now : ℤ) (found : ScheduleTable) (nextRun : ℤ) (id : Uuid) :
    (found.update id (claimSchedule now nextRun)).isSome ↔ ∃ s ∈ found id, s.Due now := by
  unfold Table.update
  cases found id with
  | none => simp
  | some s => simp [claimSchedule]

/-- **A turn does what it should** while the rows are not expired; a failure expires them. -/
theorem dispatchOne_eq (db : ScheduleTable) (n : ℕ) :
    dispatchOne others now turn sched ⟨db, false, n⟩ =
      .ok ⟨(serveSchedule others now turn sched (db, n)).1,
        decide (FailsAt others now turn sched db),
        (serveSchedule others now turn sched (db, n)).2⟩ := by
  have hclaim := update_claim now (others.before turn db) (computeNextRun now sched.interval)
    sched.id
  by_cases hdue : StillDue others now turn sched db
  · obtain ⟨claimed, hclaimed⟩ := Option.isSome_iff_exists.mp (hclaim.mpr hdue)
    cases hscan : others.createScan sched with
    | ok scanId =>
      simp [dispatchOne, serveSchedule, FailsAt, record, hdue, hclaimed, hscan, Except.toOption]
    | error error =>
      simp [dispatchOne, serveSchedule, FailsAt, record, hdue, hclaimed, hscan, Except.toOption]
  · have hlost : (others.before turn db).update sched.id
        (claimSchedule now (computeNextRun now sched.interval)) = none :=
      Option.not_isSome_iff_eq_none.mp fun h => hdue (hclaim.mp h)
    simp [dispatchOne, serveSchedule, FailsAt, hdue, hlost]

/-- **After a failure the next turn raises.** -/
theorem dispatch_expired {t : Tick} (ht : t.expired = true) (hne : scheds ≠ []) :
    dispatch others now turn scheds t = .error t := by
  cases scheds with
  | nil => exact absurd rfl hne
  | cons sched scheds =>
    have hraised : dispatchOne others now turn sched t = .error t := by simp [dispatchOne, ht]
    rw [dispatch, hraised]
    rfl

/-- No schedule before the last one fails. -/
def OnlyLastFails (others : Others) (now : ℤ) (turn : ℕ) (scheds : List Schedule)
    (r : ScheduleTable × ℕ) : Prop :=
  ∀ before sched next after, scheds = before ++ sched :: next :: after →
    ¬ FailsAt others now (turn + before.length) sched (serveAll others now turn before r).1

theorem onlyLastFails_cons {next : Schedule} {r : ScheduleTable × ℕ} :
    OnlyLastFails others now turn (sched :: next :: scheds) r ↔
      ¬ FailsAt others now turn sched r.1 ∧
        OnlyLastFails others now (turn + 1) (next :: scheds)
          (serveSchedule others now turn sched r) := by
  constructor
  · intro h
    refine ⟨h [] sched next scheds rfl, fun before s s' after heq => ?_⟩
    have hshift := h (sched :: before) s s' after (by rw [heq, List.cons_append])
    rwa [List.length_cons, add_comm before.length, ← add_assoc] at hshift
  · rintro ⟨hhead, hrest⟩ before s s' after heq
    cases before with
    | nil =>
      obtain ⟨rfl, -⟩ := List.cons.inj heq
      exact hhead
    | cons b before =>
      obtain ⟨rfl, -⟩ := List.cons.inj heq
      have hshift := hrest before s s' after (List.cons.inj heq).2
      rwa [add_assoc, add_comm 1] at hshift

theorem dispatch_iff (scheds : List Schedule) (turn : ℕ) (db : ScheduleTable) (n : ℕ) :
    (∃ t, dispatch others now turn scheds ⟨db, false, n⟩ = .ok t ∧
      (t.db, t.launched) = serveAll others now turn scheds (db, n)) ↔
        OnlyLastFails others now turn scheds (db, n) := by
  induction scheds generalizing turn db n with
  | nil => exact iff_of_true ⟨_, rfl, rfl⟩ fun before s s' after h => by simp at h
  | cons sched scheds ih =>
    rw [dispatch, dispatchOne_eq]
    cases scheds with
    | nil =>
      refine iff_of_true ⟨_, rfl, rfl⟩ fun before s s' after h => ?_
      have hlength := congrArg List.length h
      simp at hlength
      omega
    | cons next scheds =>
      rw [onlyLastFails_cons]
      by_cases hfails : FailsAt others now turn sched db
      · refine iff_of_false (fun h => ?_) fun h => h.1 hfails
        obtain ⟨t, hok, -⟩ := h
        let served := serveSchedule others now turn sched (db, n)
        have hraised : dispatch others now (turn + 1) (next :: scheds) ⟨served.1, true, served.2⟩ =
            .error ⟨served.1, true, served.2⟩ := dispatch_expired rfl (List.cons_ne_nil next scheds)
        rw [decide_eq_true hfails] at hok
        simp [Except.bind, served, hraised] at hok
      · simp only [hfails, decide_false, not_false_eq_true, true_and, Except.bind]
        exact ih (turn + 1) _ _

/-- **No schedule blocks another** exactly when none but the last of those that are claimed at their
turn fails. -/
theorem none_blocked_iff (others : Others) (now : ℤ) (candidates : List Schedule)
    (db : ScheduleTable) :
    NoneBlocked others now candidates db ↔
      ∀ before sched next after, candidates = before ++ sched :: next :: after →
        ¬ FailsAt others now before.length sched (serveAll others now 0 before (db, 0)).1 := by
  have h : (∃ t, dispatch others now 0 candidates ⟨db, false, 0⟩ = .ok t ∧
      (t.db, t.launched) = serveAll others now 0 candidates (db, 0)) ↔
        OnlyLastFails others now 0 candidates (db, 0) := dispatch_iff candidates 0 db 0
  simpa [OnlyLastFails, NoneBlocked, runDueSchedules] using h

/-! ## A call alone -/

/-- No other session writes a schedule. -/
def Others.none (createScan : Schedule → Except String Uuid) : Others :=
  ⟨fun _ db => db, fun _ db => db, createScan⟩

/-- The row of a schedule that has been dealt with. -/
def served (createScan : Schedule → Except String Uuid) (now : ℤ) (s : Schedule) : Schedule :=
  let claimed := { s with lastRunAt := some now, nextRunAt := computeNextRun now s.interval }
  match createScan s with
  | .ok scanId => { claimed with lastScanId := some scanId, lastError := none }
  | .error error => { claimed with lastError := some (PyStr.upTo 1000 error) }

variable {createScan : Schedule → Except String Uuid} {db : ScheduleTable} {n : ℕ}

theorem serve_none (hrow : db sched.id = some sched) (hdue : sched.Due now) :
    serveSchedule (.none createScan) now turn sched (db, n) =
      (db.set sched.id (served createScan now sched),
        n + if (createScan sched).toOption.isSome then 1 else 0) := by
  have hstill : StillDue (.none createScan) now turn sched db := ⟨sched, hrow, hdue⟩
  have hclaim : claimSchedule now (computeNextRun now sched.interval) sched =
      some { sched with lastRunAt := now, nextRunAt := computeNextRun now sched.interval } :=
    claimSchedule_eq_some.mpr ⟨hdue, rfl⟩
  unfold serveSchedule
  rw [if_pos hstill]
  cases hscan : createScan sched with
  | ok scanId =>
    simp [Others.none, record, Table.update, served, recordLaunch, Table.set, hrow, hclaim, hscan,
      Except.toOption]
  | error error =>
    simp [Others.none, record, Table.update, served, recordFailure, Table.set, hrow, hclaim, hscan,
      Except.toOption]

/-- **Every schedule is dealt with**: those of the list that are due are claimed, and launched or
their errors recorded, and the launches are counted. -/
theorem serveAll_none (hdistinct : (scheds.map Schedule.id).Nodup)
    (hdue : ∀ s ∈ scheds, db s.id = some s ∧ s.Due now) :
    (∀ id, (serveAll (.none createScan) now turn scheds (db, n)).1 id =
      (((scheds.find? fun s => s.id = id).map (served createScan now)).or (db id))) ∧
      (serveAll (.none createScan) now turn scheds (db, n)).2 =
        n + scheds.countP fun s => (createScan s).toOption.isSome := by
  induction scheds generalizing turn db n with
  | nil => exact ⟨fun id => by simp [serveAll], rfl⟩
  | cons sched scheds ih =>
    obtain ⟨hnew, hrest⟩ := List.nodup_cons.mp hdistinct
    obtain ⟨hrow, hnow⟩ := hdue sched List.mem_cons_self
    have hkept : ∀ s ∈ scheds, s.id ≠ sched.id := fun s hs heq =>
      hnew (heq ▸ List.mem_map_of_mem hs)
    have hdue' : ∀ s ∈ scheds,
        db.set sched.id (served createScan now sched) s.id = some s ∧ s.Due now := by
      intro s hs
      rw [Table.set_of_ne _ _ (hkept s hs)]
      exact hdue s (List.mem_cons_of_mem _ hs)
    rw [serveAll, serve_none hrow hnow]
    obtain ⟨hrows, hcount⟩ := @ih (turn + 1) (db.set sched.id (served createScan now sched))
      (n + if (createScan sched).toOption.isSome then 1 else 0) hrest hdue'
    refine ⟨fun id => ?_, ?_⟩
    · rw [hrows id, List.find?_cons]
      by_cases hid : sched.id = id
      · have hnone : (scheds.find? fun s => s.id = id) = none := by
          refine List.find?_eq_none.mpr fun s hs => ?_
          simpa using hid ▸ hkept s hs
        simp [hid, hnone]
      · simp [hid, Table.set_of_ne _ _ (Ne.symm hid)]
    · rw [hcount, List.countP_cons]
      omega

/-! ## A failure -/

/-- A schedule that is due since noon. -/
def labSchedule (id : Uuid) : Schedule where
  id := id
  workspaceId := 1
  projectId := 1
  targetId := 1
  createdBy := 1
  scanType := "network"
  requestedModules := ["nmap"]
  useAiPlanner := false
  interval := ⟨60, by decide⟩
  enabled := true
  nextRunAt := 0
  lastRunAt := none
  lastScanId := none
  lastError := none

/-- The scan of schedule 1 is over the quota. -/
def labOthers : Others := .none fun s =>
  if s.id = 1 then .error "HTTPException: 402: Monthly scan limit reached" else .ok 9

/-- **A schedule over its quota keeps the next one from being claimed.** -/
theorem failed_schedule_blocks :
    ¬ NoneBlocked labOthers minute [labSchedule 1, labSchedule 2]
      (Table.ofList [(1, labSchedule 1), (2, labSchedule 2)]) := by
  intro h
  obtain ⟨t, hok, -⟩ := h
  have hraised : (runDueSchedules labOthers minute [labSchedule 1, labSchedule 2]
      (Table.ofList [(1, labSchedule 1), (2, labSchedule 2)])).toOption.isSome = false := by
    decide +kernel
  rw [hok] at hraised
  exact absurd hraised (by simp [Except.toOption])

end ScanPlatform

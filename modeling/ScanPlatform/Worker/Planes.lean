import ScanPlatform.Worker.Pipeline

/-!
# The two execution planes

A scan runs in the process that holds the database or on a worker that leases it. The two loops
aggregate the statuses of their tools on their own, and agree as soon as there is one.

* `Turn.Accepted`: a turn on the worker without a stop request in which every write succeeds;
* `executeTools_accepted`: the statuses of a loop that consists of such turns;
* `leasedOutcome_eq_iff`: when the two aggregates agree;
* **`planes_agree_iff`**, `planes_disagree`: when the planes agree on the outcome of a scan, and a
  scan on which they do not.
-/

set_option autoImplicit false

namespace ScanPlatform

/-- The probe does not stop the loop, and the submissions of the tool are accepted. -/
structure Turn.Accepted (svc : Services) (run : Except String RawToolOutput) (turn : Turn) :
    Prop where
  run : turn.run = run
  goesOn : stopReason turn.probe = none
  started : turn.started = .ok ()
  stored : ∀ raw, turn.run = .ok raw → turn.rawAnswer svc raw = .ok ()
  result : turn.result = .ok ()

section

variable {svc : Services} {capture : List VulnerabilityFinding → Option (List (String × Bytes))}
  {job : LeasedJob}

theorem startTool_accepted {runner : Runner} {turn : Turn} {run : Except String RawToolOutput}
    (h : turn.Accepted svc run) :
    (startTool svc capture job runner turn).outcome.status = runner.runStatus run ∧
      (startTool svc capture job runner turn).outcome.refused = false ∧
      (startTool svc capture job runner turn).outcome.persisted = true := by
  obtain ⟨rfl, -, hstarted, hstored, hresult⟩ := h
  cases hrun : turn.run with
  | error reason =>
    rw [(startTool_raised hrun).1]
    exact ⟨rfl, by simp [Turn.latches, hrun, hstarted, hresult, refused], by rw [hresult]; rfl⟩
  | ok raw =>
    have hok := hstored raw hrun
    rw [(startTool_ran hrun).1]
    refine ⟨?_, by simp [Turn.latches, hrun, hstarted, hresult, hok, refused],
      by rw [hresult]; rfl⟩
    simp [Turn.ranStatus, hok, outage, Runner.runStatus]

/-- **Accepted turns** run every tool that applies, each with its own status, and no result is
lost. -/
theorem executeTools_accepted {targetType : Option String} {turns : ℕ → Turn}
    {runs : ℕ → Except String RawToolOutput} (hturns : ∀ i, (turns i).Accepted svc (runs i))
    (runners : List (Runner × ℕ)) :
    (((executeTools svc capture job targetType turns false runners).filterMap (·.ran)).map
        (·.outcome.status) =
      (runners.filter fun r => r.1.applicable targetType).map fun r => r.1.runStatus (runs r.2)) ∧
    ∀ tool ∈ (executeTools svc capture job targetType turns false runners).filterMap (·.ran),
      tool.outcome.persisted = true := by
  induction runners with
  | nil => exact ⟨rfl, List.forall_mem_nil _⟩
  | cons r rest ih =>
    obtain ⟨runner, i⟩ := r
    obtain ⟨hstatuses, hpersisted⟩ := ih
    have hgo := (hturns i).goesOn
    simp only [executeTools, hgo, Option.isSome_none, Bool.false_eq_true, if_false]
    by_cases happ : runner.applicable targetType = true
    · obtain ⟨hstatus, hrefused, hkept⟩ :=
        @startTool_accepted svc capture job runner (turns i) (runs i) (hturns i)
      simp only [happ, reduceCtorEq, if_false, hrefused, Bool.or_false, List.filterMap_cons,
        List.map_cons, List.filter_cons, if_true, List.forall_mem_cons, hkept, hstatus, hstatuses,
        true_and]
      exact hpersisted
    · simp only [happ, if_true, List.filterMap_cons, List.filter_cons, Bool.false_eq_true, if_false]
      exact ⟨hstatuses, hpersisted⟩

/-- The two aggregates agree as soon as a tool ran. -/
theorem leasedOutcome_eq_iff (statuses : List RunStatus) :
    scanOutcome statuses = leasedOutcome statuses 0 ↔ statuses ≠ [] := by
  constructor
  · rintro h rfl
    exact absurd (congrArg Subtype.val h) (by decide)
  · intro hne
    simp only [scanOutcome, leasedOutcome, hne, ne_eq, not_false_eq_true, true_and, if_true,
      not_true_eq_false, if_false]

/-- The outcome on the worker is the aggregate of its tools, whether or not there are any. -/
theorem executeLeasedJob_accepted (registry : String → Option Runner) (targetType : Option String)
    (requested : List String) {turns : ℕ → Turn} {runs : ℕ → Except String RawToolOutput}
    (hturns : ∀ i, (turns i).Accepted svc (runs i)) :
    (executeLeasedJob svc capture job registry targetType requested turns).status =
      leasedOutcome (((selectRunners registry requested).zipIdx.filter fun r =>
        r.1.applicable targetType).map fun r => r.1.runStatus (runs r.2)) 0 := by
  obtain ⟨hstatuses, hpersisted⟩ := @executeTools_accepted svc capture job targetType turns runs
    hturns (selectRunners registry requested).zipIdx
  have hlost : ((executeTools svc capture job targetType turns false
      (selectRunners registry requested).zipIdx).filterMap (·.ran)).countP
        (!·.outcome.persisted) = 0 := by
    rw [List.countP_eq_zero]
    intro tool htool
    rw [hpersisted tool htool]
    decide
  simp only [executeLeasedJob]
  split_ifs with hnone
  · rw [hnone]
    rfl
  · rw [hstatuses, hlost]

end

/-- **When the two planes agree on the outcome of a scan.** For the same tool runs, in a scan that
nobody stops and whose writes all succeed, they do exactly when some requested tool is registered
and applies to the target. -/
theorem planes_agree_iff {svc : Services}
    (capture : List VulnerabilityFinding → Option (List (String × Bytes))) (job : LeasedJob)
    (registry : String → Option Runner) (requested : List String) {e : ScanExecution} {db : Db}
    {runs : ℕ → Except String RawToolOutput} {turns : ℕ → Turn} {inProcess : ℕ → InProcessTurn}
    (hturns : ∀ i, (turns i).Accepted svc (runs i))
    (hinProcess : ∀ i, (inProcess i).Succeeds svc (runs i))
    (hactive : e.activeTestingAllowed = true)
    (howned : executionStopReason db e.scanId e.executionToken = none) :
    (runPipeline svc e registry requested inProcess db).2 =
        .ok (executeLeasedJob svc capture job registry (some e.target.targetType) requested
          turns).status ↔
      ∃ runner ∈ requested.filterMap registry,
        runner.applicable (some e.target.targetType) = true := by
  have hpipeline : (runPipeline svc e registry requested inProcess db).2 =
      .ok (scanOutcome (((selectRunners registry requested).zipIdx.filter fun r =>
        r.1.applicable (some e.target.targetType)).map fun r => r.1.runStatus (runs r.2))) := by
    simp only [runPipeline]
    rw [runTools_succeeding hactive hinProcess _ _ howned]
    rfl
  have hmem : ∀ runner, runner ∈ requested.filterMap registry ↔
      runner ∈ (selectRunners registry requested).zipIdx.map Prod.fst := by
    intro runner
    rw [List.zipIdx_map_fst]
    exact (selectRunners_perm registry requested).mem_iff.symm
  rw [hpipeline, executeLeasedJob_accepted registry _ requested hturns, Except.ok.injEq,
    leasedOutcome_eq_iff, ne_eq, List.map_eq_nil_iff, List.filter_eq_nil_iff]
  simp only [hmem]
  push Not
  constructor
  · rintro ⟨r, hr, happ⟩
    exact ⟨r.1, List.mem_map_of_mem hr, happ⟩
  · rintro ⟨runner, hrunner, happ⟩
    obtain ⟨r, hr, rfl⟩ := List.mem_map.mp hrunner
    exact ⟨r, hr, happ⟩

/-- A tool for domains. -/
def subfinder : Runner where
  info := ⟨"subfinder", "2.14.0", false, 10, some ["domain"]⟩
  benignExitCodes := []
  hardFailure _ := false
  parse _ := some []
  parseVulnerabilities _ := some []

def subfinderOnly (name : String) : Option Runner :=
  if name = "subfinder" then some subfinder else none

/-- The execution of scan 5 against a target of the type. -/
def runningScan (targetType : String) : ScanExecution where
  scanId := 5
  executionToken := 7
  scan := { Scan.created 1 2 3 [] 0 with status := .running, executionToken := some 7 }
  target := ⟨"medium", targetType, "198.51.100.0/24"⟩
  activeTestingAllowed := true

def runningDb : Db where
  __ := Db.empty
  scans := .ofList [(5, (runningScan "domain").scan)]

def noOutput : Except String RawToolOutput := .ok ⟨"subfinder", "", "", 0, false⟩

def acceptedTurn : Turn := ⟨9, 10, .answered none, noOutput, .ok (), .ok (), .ok (), []⟩

def inProcessTurn : InProcessTurn := ⟨9, 8, 10, 20, false, fun _ => true, .ofRun noOutput⟩

theorem acceptedTurn_accepted :
    acceptedTurn.Accepted (.ascii [] fun _ _ => none) noOutput where
  run := rfl
  goesOn := rfl
  started := rfl
  stored raw hraw := by cases hraw; rfl
  result := rfl

theorem inProcessTurn_succeeds :
    inProcessTurn.Succeeds (.ascii [] fun _ _ => none) noOutput := ⟨rfl, rfl, fun _ => rfl⟩

/-- On a domain both planes run the tool and agree. -/
theorem planes_agree_domain :
    (runPipeline (.ascii [] fun _ _ => none) (runningScan "domain") subfinderOnly ["subfinder"]
      (fun _ => inProcessTurn) runningDb).2 =
        .ok (executeLeasedJob (.ascii [] fun _ _ => none) (fun _ => none) ⟨5, 7⟩ subfinderOnly
          (some "domain") ["subfinder"] fun _ => acceptedTurn).status :=
  (planes_agree_iff (fun _ => none) ⟨5, 7⟩ subfinderOnly ["subfinder"]
    (fun _ => acceptedTurn_accepted) (fun _ => inProcessTurn_succeeds) rfl rfl).mpr
      ⟨subfinder, List.mem_singleton_self _, rfl⟩

/-- **The planes disagree.** The only requested tool does not apply to a range of addresses: the
scan is completed in process, and failed on a worker. -/
theorem planes_disagree :
    acceptedTurn.Accepted (.ascii [] fun _ _ => none) noOutput ∧
    inProcessTurn.Succeeds (.ascii [] fun _ _ => none) noOutput ∧
    executionStopReason runningDb 5 7 = none ∧
    (runPipeline (.ascii [] fun _ _ => none) (runningScan "ip_range") subfinderOnly ["subfinder"]
      (fun _ => inProcessTurn) runningDb).2 = .ok ⟨.completed, by decide⟩ ∧
    (executeLeasedJob (.ascii [] fun _ _ => none) (fun _ => none) ⟨5, 7⟩ subfinderOnly
      (some "ip_range") ["subfinder"] fun _ => acceptedTurn).status = ⟨.failed, by decide⟩ :=
  ⟨acceptedTurn_accepted, inProcessTurn_succeeds, rfl, rfl, rfl⟩

end ScanPlatform

import Mathlib.Data.Int.Notation
import ScanPlatform.Base.Json
import ScanPlatform.Base.PyStr

/-!
# Tool runners

The registered runners with the class attributes that dispatch and reporting read, what a tool run
returns, what a runner makes of it, and the classification of the run.

* `RunnerInfo`, `toolRegistry`: `TOOL_REGISTRY`;
* `RawToolOutput`, `CommonFinding`, `VulnerabilityFinding`, `Runner`;
* `classifyRun`, `Runner.classify`: the status of a run that returned.
-/

set_option autoImplicit false

namespace ScanPlatform

/-! ## The registry -/

structure RunnerInfo where
  name : String
  version : String
  requiresActiveTesting : Bool
  /-- Requested tools run in ascending order of this number. -/
  phase : Nat
  /-- `none`: every type of target. -/
  applicableTargetTypes : Option (List String)
  deriving DecidableEq, Repr

def toolRegistry : List RunnerInfo := [
  ⟨"subfinder", "2.14.0", false, 10, some ["domain"]⟩,
  ⟨"amass", "4.2.0", false, 11, some ["domain"]⟩,
  ⟨"dnsx", "1.2.1", false, 15, some ["domain"]⟩,
  ⟨"httpx", "1.10.0", false, 20, none⟩,
  ⟨"whatweb", "0.5.5", false, 22, none⟩,
  ⟨"naabu", "2.6.1", false, 30, none⟩,
  ⟨"nmap", "7", false, 40, none⟩,
  ⟨"katana", "1.7.0", false, 45, some ["domain", "ip_range"]⟩,
  ⟨"ffuf", "2.1.0", true, 46, some ["domain", "ip_range"]⟩,
  ⟨"arjun", "2.2.7", true, 48, some ["domain", "ip_range"]⟩,
  ⟨"nuclei", "3.11.0", true, 50, none⟩,
  ⟨"nuclei-dast", "3.11.0", true, 55, none⟩]

/-- `TOOL_REGISTRY.get(name)`. -/
def registered (name : String) : Option RunnerInfo := toolRegistry.find? (·.name = name)

/-- Names identify the entries of the registry. -/
theorem registered_of_mem : ∀ r ∈ toolRegistry, registered r.name = some r := by decide

/-- The tool is registered and needs a scope that allows active testing. -/
def requiresActiveTesting (name : String) : Bool :=
  ((registered name).map (·.requiresActiveTesting)).getD false

open PyStr

/-! ## Runs -/

structure RawToolOutput where
  command : String
  stdout : String
  stderr : String
  exitCode : ℤ
  timedOut : Bool

/-- An asset that a tool found. -/
structure CommonFinding where
  assetType : String
  value : String
  metadata : Json.Object

structure VulnerabilityFinding where
  fingerprint : String
  title : String
  severity : String
  category : Option String
  description : Option String
  cvssVector : Option String
  cvssScore : Option String
  matchedAt : Option String
  metadata : Json.Object

/-- A runner; a parser that raises returns `none`. -/
structure Runner where
  info : RunnerInfo
  benignExitCodes : List ℤ
  hardFailure : RawToolOutput → Bool
  parse : RawToolOutput → Option (List CommonFinding)
  parseVulnerabilities : RawToolOutput → Option (List VulnerabilityFinding)

inductive RunStatus where
  | completed
  | partialRun
  | failed
  deriving DecidableEq

/-- The status as it is reported. -/
def RunStatus.text : RunStatus → String
  | .completed => "completed"
  | .partialRun => "partial"
  | .failed => "failed"

/-- `classify_run`. -/
def classifyRun (runner : Runner) (raw : RawToolOutput) (producedFindings : Bool) : RunStatus :=
  if runner.hardFailure raw then .failed
  else if raw.exitCode = 0 ∨ raw.exitCode ∈ runner.benignExitCodes then .completed
  else if producedFindings ∨ strip raw.stdout ≠ "" then .partialRun
  else .failed

/-- What a runner finds in a run; a parser that raises finds nothing. -/
def Runner.findings (runner : Runner) (raw : RawToolOutput) : List CommonFinding :=
  (runner.parse raw).getD []

def Runner.vulnFindings (runner : Runner) (raw : RawToolOutput) : List VulnerabilityFinding :=
  (runner.parseVulnerabilities raw).getD []

/-- The classification of a run by what the runner finds in it. -/
def Runner.classify (runner : Runner) (raw : RawToolOutput) : RunStatus :=
  classifyRun runner raw
    (!(runner.findings raw).isEmpty || !(runner.vulnFindings raw).isEmpty)

end ScanPlatform

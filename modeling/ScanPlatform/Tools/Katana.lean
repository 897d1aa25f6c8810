import ScanPlatform.Base.Json
import ScanPlatform.Base.UrlSplit
import ScanPlatform.Engine.Runner
import ScanPlatform.Nuclei.Location
import ScanPlatform.Tools.Outcome

/-!
# The crawler

`KatanaRunner.run` starts one process for each target, in turn, within a total budget of time, and
puts what the processes have written into one text. `KatanaRunner.parse` reads the URLs of the text.

* `KatanaConfig`, `KatanaLimits`, `checkBudgets`: what a scan configures;
* `Turn`, `Crawled`, `Crawled.add`, `crawl`: the loop over the targets;
* `KatanaReport`, `katanaRun`: what is reported of the run;
* `classifyApi`, **`classifyApi_wellFormed`**, `ApiClassification.asMetadata`: what the path of a
  URL tells of an API, and how it is noted on the asset;
* `urlOfLine`, `canonicalUrl`, `parseLines`, `katanaParse`: the findings.

The texts that rest on durations, and the product with the safety factor, are parameters.
-/

set_option autoImplicit false

namespace ScanPlatform.Tools

open PyStr UrlSplit

/-! ## What is configured -/

/-- `tool_config`, with the defaults of the runner. -/
structure KatanaConfig where
  crawlDurationSeconds : ℤ := 300
  maxUrlsPerTarget : ℤ := 10000
  maxStdoutBytesPerTarget : ℤ := 5 * 1024 * 1024
  jsluice : Bool := false
  jsluiceMaxRssBytes : ℤ := 1024 * 1024 * 1024
  timeoutSeconds : Option ℚ := none

/-- Why there is no report. -/
inductive Unfinished where
  | raised (error : String)
  | cancelled
  /-- A call of `run_with_timeout` has not ended. -/
  | running

/-- `_validate_budget`. -/
def validateBudget (name : String) (value : ℤ) : Except Unfinished Unit :=
  if value < 1 then
    .error (.raised ("katana " ++ name ++ " must be >= 1, got " ++ toString value ++
      " -- a non-positive budget would disable the bound entirely"))
  else .ok ()

/-- `resolve_output_budgets`, and the budget of `-jsluice`, which is checked when it is on. -/
def checkBudgets (config : KatanaConfig) : Except Unfinished Unit := do
  validateBudget "max_urls_per_target" config.maxUrlsPerTarget
  validateBudget "max_stdout_bytes_per_target" config.maxStdoutBytesPerTarget
  if config.jsluice then validateBudget "jsluice_max_rss_bytes" config.jsluiceMaxRssBytes

def minPerTargetSeconds : ℤ := 60

def maxStderrBytes : ℕ := 1024 * 1024

/-- What the processes are held to. -/
structure KatanaLimits where
  perTargetTimeout : ℤ
  totalBudget : ℚ
  maxUrls : ℕ
  maxStdoutBytes : ℕ
  maxRss : Option ℕ

/-- `compute_per_target_timeout`. -/
def perTargetTimeout (scaled : ℤ → ℤ) (crawlDurationSeconds : ℤ) : ℤ :=
  max minPerTargetSeconds (scaled crawlDurationSeconds)

/-- The limits for a number of targets. A total that is 0 is none. -/
def KatanaConfig.limits (config : KatanaConfig) (scaled : ℤ → ℤ) (count : ℕ) : KatanaLimits :=
  let perTarget := perTargetTimeout scaled config.crawlDurationSeconds
  { perTargetTimeout := perTarget
    totalBudget := match config.timeoutSeconds.filter (· ≠ 0) with
      | some total => total
      | none => max 1 (count : ℤ) * perTarget
    maxUrls := config.maxUrlsPerTarget.toNat
    maxStdoutBytes := config.maxStdoutBytesPerTarget.toNat
    maxRss := if config.jsluice then some config.jsluiceMaxRssBytes.toNat else none }

/-- What the process of a target is run with, when some time has elapsed. -/
def KatanaLimits.settings (l : KatanaLimits) (elapsed : ℚ) : RunSettings where
  timeout := some (max (1 / 100) (min l.perTargetTimeout (l.totalBudget - elapsed)))
  budgets := ⟨some l.maxStdoutBytes, some maxStderrBytes, some l.maxUrls, l.maxRss⟩

/-! ## The loop over the targets -/

/-- A target: the time that has elapsed when its turn comes, and what its process does then. -/
structure Turn where
  target : String
  elapsed : ℚ
  events : List ProcessEvent
  /-- What the process writes and nobody reads. -/
  unread : Bytes

variable (l : KatanaLimits)

/-- The call of `run_with_timeout`. -/
def Turn.after (turn : Turn) : RunState := stateAfter (l.settings turn.elapsed) turn.events

/-- What the call returns. -/
def Turn.result (turn : Turn) : Except Unfinished TimedRun :=
  match (turn.after l).phase with
  | .done (.returned r) => .ok r
  | .done (.raised name) => .error (.raised name)
  | .done .cancelled => .error .cancelled
  | .pumping | .waiting | .stopping _ | .reaping _ => .error .running

structure Crawled where
  chunks : List (List Char)
  attempted : ℕ
  completed : ℕ
  partly : ℕ
  killed : ℕ
  resourceLimited : ℕ
  rssLimited : ℕ
  peakRssSeen : Option ℕ
  anyTimedOut : Bool
  anyResourceLimited : Bool

def Crawled.init : Crawled := ⟨[], 0, 0, 0, 0, 0, 0, none, false, false⟩

/-- The chunks of an output: a newline is added where there is none at the end. -/
def TimedRun.chunks (r : TimedRun) : List (List Char) :=
  if r.stdout = [] then []
  else r.stdout :: if r.stdout.getLast? = some '\n' then [] else [['\n']]

/-- `exit_code`. -/
def TimedRun.status (r : TimedRun) : ℤ := r.exitCode.getD (-1)

/-- The body of the loop, once the process has been run. -/
def Crawled.add (c : Crawled) (r : TimedRun) : Crawled :=
  let c := { c with
    chunks := c.chunks ++ r.chunks
    attempted := c.attempted + 1
    peakRssSeen := match r.peakRssBytes, c.peakRssSeen with
      | some peak, some seen => some (max peak seen)
      | some peak, none => some peak
      | none, seen => seen }
  if r.resourceLimited then
    { c with
      partly := c.partly + 1
      resourceLimited := c.resourceLimited + 1
      rssLimited := if r.limitTripped = "rss" then c.rssLimited + 1 else c.rssLimited
      anyResourceLimited := true }
  else if r.timedOut then { c with partly := c.partly + 1, anyTimedOut := true }
  else if r.status = -9 then { c with killed := c.killed + 1 }
  else if r.status = 0 then { c with completed := c.completed + 1 }
  else { c with partly := c.partly + 1 }

/-- The loop. The first target is tried whatever the budget. -/
def crawl : List Turn → Crawled → Except Unfinished Crawled
  | [], c => .ok c
  | turn :: turns, c =>
    if c.attempted ≠ 0 ∧ l.totalBudget - turn.elapsed < minPerTargetSeconds then .ok c
    else (turn.result l).bind fun r => crawl turns (c.add r)

/-! ## What is reported -/

structure KatanaReport where
  raw : RawToolOutput
  crawled : Crawled
  notAttempted : ℕ

/-- The first line of the summary. -/
def katanaHeader (count : ℕ) (c : Crawled) (skipped : ℕ) : String :=
  "katana: " ++ toString count ++ " target(s), one process each; " ++ toString c.completed ++
    " completed, " ++ toString c.partly ++ " partial (" ++ toString c.resourceLimited ++
    " resource_limited" ++
    (if c.rssLimited = 0 then "" else ", " ++ toString c.rssLimited ++ " jsluice_rss") ++ "), " ++
    toString c.killed ++ " killed, " ++ toString skipped ++ " not attempted"

/-- `run`, with `int(duration * PER_TARGET_SAFETY_FACTOR)`, the command with the effective controls,
and the other lines of the summary. -/
def katanaRun (scaled : ℤ → ℤ) (command : Crawled → String) (summaries : Crawled → List String)
    (config : KatanaConfig) (turns : List Turn) : Except Unfinished KatanaReport :=
  if turns.isEmpty then
    .ok ⟨⟨"katana (no web targets)", "", "no web targets", -1, false⟩, .init, 0⟩
  else do
    checkBudgets config
    let c ← crawl (config.limits scaled turns.length) turns .init
    let skipped := turns.length - c.attempted
    let raw : RawToolOutput :=
      { command := command c
        stdout := String.ofList c.chunks.flatten
        stderr := "\n".intercalate (katanaHeader turns.length c skipped :: summaries c)
        exitCode := if c.completed = turns.length then 0 else -1
        timedOut := c.anyTimedOut }
    return ⟨raw, c, skipped⟩

/-! ## The shape of an API -/

section

variable {F : Type}

def openapiDocMarkers : List String :=
  ["swagger.json", "swagger.yaml", "swagger.yml", "openapi.json", "openapi.yaml", "openapi.yml",
    "/swagger-ui", "/api-docs", "/openapi", "/swagger"]

def graphqlPaths : List String := ["/graphql", "/graphiql", "/gql"]

def restSegments : List String := ["api", "rest", "graphql-api"]

structure ApiClassification where
  isApi : Bool
  kind : Option String
  version : Option String

/-- `_segments`. -/
def segments (path : List Char) : List (List Char) := (path.splitOn '/').filter (· ≠ [])

/-- `_VERSION_SEG.match`, whose `$` lets one newline at the end pass. -/
def versionSegment (py : Python F) : List Char → Option (List Char)
  | 'v' :: digits | 'V' :: digits =>
    let digits := if digits.getLast? = some '\n' then digits.dropLast else digits
    if digits ≠ [] ∧ digits.all (fun c => (py.decimal c).isSome) then some digits else none
  | _ => none

/-- `_version_in`. -/
def versionIn (py : Python F) (path : List Char) : Option String :=
  ((segments path).findSome? (versionSegment py)).map fun digits => String.ofList ('v' :: digits)

/-- `classify_api`. -/
def classifyApi (py : Python F) (url : String) : ApiClassification :=
  match urlsplit py url.toList with
  | none => ⟨false, none, none⟩
  | some parts =>
    let path := py.lower parts.path
    let version := versionIn py path
    if path = [] then ⟨false, none, none⟩
    else if openapiDocMarkers.any fun marker => contains (String.ofList path) marker then
      ⟨true, some "openapi_doc", version⟩
    else if graphqlPaths.any fun g => g.toList.isSuffixOf path then ⟨true, some "graphql", version⟩
    else if (segments path).any (fun s => String.ofList s ∈ restSegments) ∨ version.isSome then
      ⟨true, some "rest", version⟩
    else ⟨false, none, none⟩

/-- Only an API has a kind, and one with a version has one. -/
structure ApiClassification.WellFormed (c : ApiClassification) : Prop where
  kind : c.isApi ↔ c.kind.isSome
  version : c.version.isSome → c.isApi

/-- **A classification is well formed.** -/
theorem classifyApi_wellFormed (py : Python F) (url : String) :
    (classifyApi py url).WellFormed := by
  have hnone : ApiClassification.WellFormed ⟨false, none, none⟩ := ⟨by simp, by simp⟩
  have hkind : ∀ kind version, ApiClassification.WellFormed ⟨true, some kind, version⟩ :=
    fun _ _ => ⟨by simp, fun _ => rfl⟩
  unfold classifyApi
  split
  · exact hnone
  · dsimp only
    split_ifs
    · exact hnone
    · exact hkind _ _
    · exact hkind _ _
    · exact hkind _ _
    · exact hnone

/-- `as_metadata`: the members that say something, and their names. -/
def ApiClassification.asMetadata (c : ApiClassification) : Json.Object :=
  let md : Json.Object :=
    (if c.isApi then [("is_api", .bool true)] else []) ++
      (c.kind.toList.map fun kind => ("api_kind", .str kind)) ++
      c.version.toList.map fun version => ("api_version", .str version)
  let keys := ["api_kind", "api_version", "is_api"].filter md.has
  if md = [] then [] else md ++ [("inferred_keys", .arr (keys.map .str))]

end

/-! ## The findings -/

variable {F : Type} (py : Python F)

def maxUrls : ℕ := 500

/-- The URL of a line. -/
def urlOfLine (line : List Char) : Option String :=
  let url := stripChars isSpace line
  if url ≠ [] ∧ (("http://".toList <+: py.lower url) ∨ ("https://".toList <+: py.lower url)) then
    some (String.ofList url)
  else none

/-- `normalize_location(url) or url`; `none` is a `ValueError`. -/
def canonicalUrl (url : String) : Option String :=
  (normalizeLocation py url).map fun location => if location = "" then url else location

def katanaFinding (url canonical : String) : CommonFinding where
  assetType := "url"
  value := canonical
  metadata :=
    Json.Object.update
      ([("has_params", .bool (contains canonical "?")), ("source", .str "katana")] ++
        if canonical = url then [] else [("raw_url", .str url)])
      (classifyApi py canonical).asMetadata

/-- The loop of `parse`; `seen` holds the values of the findings. -/
def parseLines : List (List Char) → List CommonFinding → Option (List CommonFinding)
  | [], findings => some findings
  | line :: lines, findings =>
    match urlOfLine py line with
    | none => parseLines lines findings
    | some url =>
      (canonicalUrl py url).bind fun canonical =>
        if canonical ∈ findings.map (·.value) then parseLines lines findings
        else if maxUrls ≤ (findings ++ [katanaFinding py url canonical]).length then
          some (findings ++ [katanaFinding py url canonical])
        else parseLines lines (findings ++ [katanaFinding py url canonical])

/-- `parse`. -/
def katanaParse (raw : RawToolOutput) : Option (List CommonFinding) :=
  parseLines py (splitlines raw.stdout.toList) []

end ScanPlatform.Tools

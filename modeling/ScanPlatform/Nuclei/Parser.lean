import ScanPlatform.Base.Checks
import ScanPlatform.Base.JsonText
import ScanPlatform.Base.UrlSplit
import ScanPlatform.Nuclei.Location
import ScanPlatform.Vulnerabilities.Db

/-!
# The nuclei parser

What the runner makes of the output of nuclei, one JSON object a line.

* `extractDastContext`: what the fuzzer has left about the request that triggered the finding: its
  method, the parameters of the location and the names of notable headers. Nothing in it raises;
* `NucleiRecord`, `identify`: the records that have an identity;
* `nucleiFingerprint`, `cvssScore`, `NucleiRecord.finding`: a record and its finding;
* `lineRecord`, `ParserState`, `parseLine`, `parseVulnerabilities`: the parser;
* `ScoreReadable`, `RecordReadable`, `ReadableLine`, `lineFinding`, **`lineFinding_isOk`**: the
  lines on which nothing raises.
-/

set_option autoImplicit false

namespace ScanPlatform

open JsonText PyStr UrlSplit

/-- What the parser lets through. -/
inductive ParserFault where
  | valueError
  | recursionError
  | overflowError
  deriving DecidableEq

/-- The `VulnerabilityFinding` of a record. -/
structure NucleiFinding (F : Type) where
  fingerprint : String
  title : String
  severity : String
  category : Option String
  description : Option String
  cvssVector : Option String
  cvssScore : Option F
  matchedAt : String
  metadata : Members F

variable {F : Type}

/-! ## The trigger context -/

/-- `_SENSITIVE_HEADER_NAMES`. -/
def sensitiveHeaderNames : List String :=
  ["authorization", "cookie", "set-cookie", "x-api-key", "x-auth-token", "proxy-authorization",
    "x-csrf-token", "x-xsrf-token"]

/-- `_NOTABLE_HEADER_NAMES`. -/
def notableHeaders : List String :=
  ["x-forwarded-for", "x-forwarded-host", "x-original-url", "x-rewrite-url", "referer",
    "user-agent", "x-forwarded-proto", "x-real-ip"]

/-- `_method_from_request_text`. -/
def methodFromRequestText (py : Python F) (requestText : String) : Option String :=
  match words (String.ofList ((splitlines requestText.toList).headD [])) with
  | method :: _ :: _ =>
    if method ≠ "" ∧ method.toList.all py.isAlpha ∧ py.isUpper method.toList then some method
    else none
  | _ => none

/-- The token after the first `-X`, if it is not the last one. -/
def afterMethodFlag : List String → Option String
  | flag :: method :: tokens =>
    if flag = "-X" then some method else afterMethodFlag (method :: tokens)
  | _ => none

/-- `_method_from_curl_command`. -/
def methodFromCurlCommand (py : Python F) (curlCommand : String) : Option String :=
  match afterMethodFlag (words curlCommand) with
  | some method =>
    some (String.ofList (py.upper (stripChars (fun c => c = '\'' ∨ c = '"') method.toList)))
  | none => if startsWith (strip curlCommand) "curl" then some "GET" else none

/-- `_parameter_names_from_url`. -/
def parameterNamesFromUrl (py : Python F) (matchedAt : String) : List String :=
  match urlsplit py matchedAt.toList with
  | none => []
  | some parts =>
    ((queryNames py parts.query).map String.ofList).mergeSort fun a b => decide (a ≤ b)

/-- The name of a header line. -/
def headerName (py : Python F) (line : List Char) : Option String :=
  if ':' ∈ line then
    some (String.ofList (py.lower (stripChars isSpace (partition ':' line).1)))
  else none

/-- `_notable_header_names`. -/
def notableHeaderNames (py : Python F) (requestText : String) : List String :=
  ((splitlines requestText.toList).tail.filterMap (headerName py)).foldl (fun found name =>
    if name = "" ∨ name ∈ sensitiveHeaderNames then found
    else if name ∈ notableHeaders ∧ name ∉ found then found ++ [name]
    else found) []

/-- A member, unless its value counts as false. -/
def memberOf (key : String) (value : Option (Doc F)) : Members F :=
  (value.map fun value => (key, value)).toList

/-- `extract_dast_context`. -/
def extractDastContext (py : Python F) (obj : Members F) (matchedAt : String) : Members F :=
  let requestText := (obj.get "request").text
  let curlCommand := ((obj.get "curl-command").or py (obj.get "curl_command")).text
  let method := (methodFromRequestText py requestText).or (methodFromCurlCommand py curlCommand)
  let params := parameterNamesFromUrl py matchedAt
  let headers := notableHeaderNames py requestText
  memberOf "http_method" ((method.filter (· ≠ "")).map .str) ++
    memberOf "parameter_names" (if params = [] then none else some (.list (params.map .str))) ++
    memberOf "notable_header_names" (if headers = [] then none else some (.list (headers.map .str)))

/-! ## Records -/

/-- A record with an identity, and its `info` block. -/
structure NucleiRecord (F : Type) where
  templateId : String
  matcher : String
  matchedAt : String
  obj : Members F
  info : Members F

/-- The record of an object; `none` is a `continue`. -/
def identify (py : Python F) (obj : Members F) : Option (NucleiRecord F) :=
  let templateId := (obj.get "template-id").or py (obj.get "templateID")
  let info := match obj.get "info" with
    | .null => some []
    | .dict info => some info
    | .bool _ | .int _ | .float _ | .str _ | .list _ => none
  let matchedAt :=
    ((obj.get "matched-at").or py (obj.get "matched_at")).or py (obj.get "host")
  let matcher := (obj.get "matcher-name").or py (.str "")
  info.bind fun info =>
    match templateId, matchedAt with
    | .str templateId, .str matchedAt =>
      if templateId = "" ∨ matchedAt = "" then none
      else some { templateId, matcher := matcher.text, matchedAt, obj, info }
    | _, _ => none

/-- The identity of a finding; `normalize_location` may raise. -/
def nucleiFingerprint (py : Python F) (templateId matcher matchedAt : String) :
    Except ParserFault String :=
  match normalizeLocation py matchedAt with
  | none => .error .valueError
  | some location => .ok (templateId ++ "|" ++ matcher ++ "|" ++ location)

/-- `_opt_text`. -/
def optText : Doc F → Option String
  | .str s => some s
  | .null | .bool _ | .int _ | .float _ | .list _ | .dict _ => none

/-- `_cvss_score`. -/
def cvssScore (py : Python F) : Doc F → Except ParserFault (Option F)
  | .int n =>
    match py.floatOfInt n with
    | none => .error .overflowError
    | some x => .ok (some x)
  | .float x => .ok (some x)
  | .str s => .ok (py.floatOfText (stripChars isSpace s.toList))
  | .null | .bool _ | .list _ | .dict _ => .ok none

/-- The first of the identifiers that nuclei reports, or the only one. -/
def primary (py : Python F) (v : Doc F) : Doc F :=
  if v.truthy py then
    match v with
    | .list (x :: _) => x
    | v => v
  else .null

/-- `str(v or "")`; `repr` is that of a value that is not a text. -/
def textOr (py : Python F) (repr : Doc F → String) (v : Doc F) : String :=
  if v.truthy py then
    match v with
    | .str s => s
    | v => repr v
  else ""

/-- What nuclei has reported where it is not what is stored. -/
def reported (key : String) (raw : Doc F) (canonical : Option String) : Members F :=
  match raw with
  | .null => []
  | .str s => if canonical = some s then [] else [(key, .str s)]
  | raw => [(key, raw)]

def ofOption (value : Option String) : Doc F := (value.map Doc.str).getD .null

namespace NucleiRecord

variable (py : Python F) (r : NucleiRecord F)

def classification : Members F := (r.info.get "classification").members

/-- The finding of a record with this fingerprint. -/
def finding (repr : Doc F → String) (fingerprint : String) :
    Except ParserFault (NucleiFinding F) := do
  let rawCwe := primary py (r.classification.get "cwe-id")
  let rawCve := primary py (r.classification.get "cve-id")
  let category := canonicalCwe (some (textOr py repr rawCwe))
  let cve := canonicalCve (some (textOr py repr rawCve))
  let metadata : Members F :=
    [("template_id", .str r.templateId),
      ("matcher_name", ofOption (some r.matcher |>.filter (· ≠ ""))), ("cve", ofOption cve),
      ("type", r.obj.get "type"), ("tags", r.info.get "tags")] ++
    reported "cwe_reported" rawCwe category ++ reported "cve_reported" rawCve cve ++
    extractDastContext py r.obj r.matchedAt
  let name := (r.info.get "name").text
  let severity := String.ofList (py.lower (r.info.get "severity").text.toList)
  let cvssScore ← cvssScore py (r.classification.get "cvss-score")
  return {
    fingerprint
    title := if name = "" then r.templateId else name
    severity := if severity = "" then "info" else severity
    category
    description := optText (r.info.get "description")
    cvssVector := optText (r.classification.get "cvss-metrics")
    cvssScore
    matchedAt := r.matchedAt
    metadata }

end NucleiRecord

/-! ## The parser -/

/-- The record of a line; `none` where the parser goes on to the next line. -/
def lineRecord (py : Python F) (line : List Char) :
    Except ParserFault (Option (NucleiRecord F)) :=
  let line := stripChars isSpace line
  if line = [] then .ok none
  else match loads py line with
  | .error .decodeError => .ok none
  | .error .valueError => .error .valueError
  | .error .recursionError => .error .recursionError
  | .ok (.dict obj) => .ok (identify py obj)
  | .ok .null | .ok (.bool _) | .ok (.int _) | .ok (.float _) | .ok (.str _) | .ok (.list _) =>
    .ok none

structure ParserState (F : Type) where
  seenFingerprints : List String
  findings : List (NucleiFinding F)

/-- One line of the output. -/
def parseLine (py : Python F) (repr : Doc F → String) (s : ParserState F) (line : List Char) :
    Except ParserFault (ParserState F) := do
  match ← lineRecord py line with
  | none => return s
  | some r =>
    let fingerprint ← nucleiFingerprint py r.templateId r.matcher r.matchedAt
    if fingerprint ∈ s.seenFingerprints then return s
    else
      let finding ← r.finding py repr fingerprint
      return ⟨s.seenFingerprints ++ [fingerprint], s.findings ++ [finding]⟩

/-- `parse_vulnerabilities`. -/
def parseVulnerabilities (py : Python F) (repr : Doc F → String) (stdout : List Char) :
    Except ParserFault (List (NucleiFinding F)) := do
  let s ← (splitlines stdout).foldlM (parseLine py repr) ⟨[], []⟩
  return s.findings

/-! ## What raises -/

/-- A score that `float()` converts. -/
def ScoreReadable : Doc F → Prop
  | .int n => n.natAbs < floatOverflow
  | .null | .bool _ | .float _ | .str _ | .list _ | .dict _ => True

/-- A record whose port and score can be converted. -/
def RecordReadable (py : Python F) (r : NucleiRecord F) : Prop :=
  PortReadable py r.matchedAt ∧ ScoreReadable (r.classification.get "cvss-score")

/-- A line that is empty, or no JSON text, or no record, or a record that can be converted. -/
def ReadableLine (py : Python F) (line : List Char) : Prop :=
  stripChars isSpace line = [] ∨
    match loads py (stripChars isSpace line) with
    | .error .decodeError => True
    | .error .valueError | .error .recursionError => False
    | .ok v => ∀ obj, v = .dict obj → ∀ r ∈ identify py obj, RecordReadable py r

section

variable {py : Python F} {repr : Doc F → String}

theorem nucleiFingerprint_eq_ok {templateId matcher matchedAt fingerprint : String} :
    nucleiFingerprint py templateId matcher matchedAt = .ok fingerprint ↔
      ∃ location, normalizeLocation py matchedAt = some location ∧
        fingerprint = templateId ++ "|" ++ matcher ++ "|" ++ location := by
  unfold nucleiFingerprint
  cases normalizeLocation py matchedAt with
  | none => simp
  | some location => simp [eq_comm]

theorem fingerprint_isOk {templateId matcher matchedAt : String} :
    (∃ fingerprint, nucleiFingerprint py templateId matcher matchedAt = .ok fingerprint) ↔
      PortReadable py matchedAt := by
  simp only [nucleiFingerprint_eq_ok, ← normalizeLocation_isSome, Option.isSome_iff_exists]
  constructor
  · rintro ⟨-, location, hlocation, -⟩
    exact ⟨location, hlocation⟩
  · rintro ⟨location, hlocation⟩
    exact ⟨_, location, hlocation, rfl⟩

theorem cvssScore_isOk {v : Doc F} : (∃ x, cvssScore py v = .ok x) ↔ ScoreReadable v := by
  cases v with
  | int n =>
    rw [ScoreReadable, ← py.floatOfInt_isSome, cvssScore]
    cases py.floatOfInt n <;> simp
  | null | bool | float | str | list | dict => simp [cvssScore, ScoreReadable]

theorem finding_isOk {r : NucleiRecord F} {fingerprint : String} :
    (∃ finding, r.finding py repr fingerprint = .ok finding) ↔
      ScoreReadable (r.classification.get "cvss-score") := by
  have hscore : (∃ x, cvssScore py (r.classification.get "cvss-score") = .ok x) ↔
      ScoreReadable (r.classification.get "cvss-score") := cvssScore_isOk
  rw [← hscore]
  unfold NucleiRecord.finding
  constructor
  · rintro ⟨finding, h⟩
    obtain ⟨x, hx, -⟩ := Checks.bind_eq_ok.mp h
    exact ⟨x, hx⟩
  · rintro ⟨x, hx⟩
    exact ⟨_, Checks.bind_eq_ok.mpr ⟨x, hx, rfl⟩⟩

theorem finding_fingerprint {r : NucleiRecord F} {fingerprint : String}
    {finding : NucleiFinding F} (h : r.finding py repr fingerprint = .ok finding) :
    finding.fingerprint = fingerprint := by
  obtain ⟨x, -, heq⟩ := Checks.bind_eq_ok.mp h
  cases heq
  rfl

/-- What a line alone gives. -/
def lineFinding (py : Python F) (repr : Doc F → String) (line : List Char) :
    Except ParserFault (Option (NucleiFinding F)) := do
  match ← lineRecord py line with
  | none => return none
  | some r =>
    let fingerprint ← nucleiFingerprint py r.templateId r.matcher r.matchedAt
    let finding ← r.finding py repr fingerprint
    return some finding

/-- A line gives a record or none, unless its text cannot be read. -/
theorem lineRecord_isOk {line : List Char} : ReadableLine py line ↔
    ∃ r, lineRecord py line = .ok r ∧ ∀ record ∈ r, RecordReadable py record := by
  unfold ReadableLine lineRecord
  dsimp only
  split_ifs with hblank
  · simp [hblank]
  · rw [or_iff_right hblank]
    cases loads py (stripChars isSpace line) with
    | error fault => cases fault <;> simp
    | ok v =>
      cases v with
      | dict obj => simp
      | null | bool | int | float | str | list => simp

/-- **Nothing raises on a readable line**, and something does on any other. -/
theorem lineFinding_isOk {line : List Char} :
    (∃ x, lineFinding py repr line = .ok x) ↔ ReadableLine py line := by
  rw [lineRecord_isOk]
  unfold lineFinding
  constructor
  · rintro ⟨x, h⟩
    obtain ⟨r, hr, h⟩ := Checks.bind_eq_ok.mp h
    refine ⟨r, hr, fun record hrecord => ?_⟩
    cases hrecord
    obtain ⟨fingerprint, hfingerprint, h⟩ := Checks.bind_eq_ok.mp h
    obtain ⟨finding, hfinding, -⟩ := Checks.bind_eq_ok.mp h
    exact ⟨fingerprint_isOk.mp ⟨fingerprint, hfingerprint⟩, finding_isOk.mp ⟨finding, hfinding⟩⟩
  · rintro ⟨r, hr, hreadable⟩
    cases r with
    | none => exact ⟨none, Checks.bind_eq_ok.mpr ⟨none, hr, rfl⟩⟩
    | some record =>
      obtain ⟨hport, hscore⟩ := hreadable record rfl
      obtain ⟨fingerprint, hfingerprint⟩ : ∃ fingerprint, nucleiFingerprint py record.templateId
          record.matcher record.matchedAt = .ok fingerprint := fingerprint_isOk.mpr hport
      obtain ⟨finding, hfinding⟩ : ∃ finding, record.finding py repr fingerprint = .ok finding :=
        finding_isOk.mpr hscore
      exact ⟨some finding, Checks.bind_eq_ok.mpr ⟨some record, hr, Checks.bind_eq_ok.mpr
        ⟨fingerprint, hfingerprint, Checks.bind_eq_ok.mpr ⟨finding, hfinding, rfl⟩⟩⟩⟩

end

end ScanPlatform

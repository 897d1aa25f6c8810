import ScanPlatform.Manager.ToolRuns

/-!
# Evidence

`POST /v1/evidence` stores the bytes that a worker submits, records them and re-parses the raw
output of a tool into vulnerability findings.

* `validateEvidence`, `evidenceUri`: the checks of the bytes and their place in the object store;
* `ingestFromRawOutput`: the parser and the vulnerability pipeline;
* `submitEvidence`: the endpoint.
-/

set_option autoImplicit false

namespace ScanPlatform

open Checks PyStr

/-- `MAX_EVIDENCE_BYTES`. -/
def maxEvidenceBytes : ℕ := 64 * 1024 * 1024

/-- `ALLOWED_EVIDENCE_TYPES`. -/
def allowedEvidenceTypes : List String :=
  ["text/plain", "application/json", "application/xml", "text/xml", "text/html", "image/png",
    "image/jpeg", "application/octet-stream"]

/-- `content_type.split(";")[0].strip().lower()`. -/
def baseType (contentType : String) : String :=
  lower (strip ((split ';' contentType).headD ""))

/-- `validate_evidence`; a content type in a message has no quotation marks in it. -/
def validateEvidence (svc : Services) (content : Bytes) (contentType : String) :
    Except String String :=
  if content.length = 0 then .error "evidence content is empty"
  else if maxEvidenceBytes < content.length then
    .error s!"evidence is {content.length} bytes, over the {maxEvidenceBytes} byte limit"
  else if baseType contentType ∉ allowedEvidenceTypes then
    .error s!"content type '{contentType}' is not an allowed evidence type"
  else .ok (svc.sha256 content)

structure EvidenceIn where
  scanId : Uuid
  toolRunId : Option Uuid
  contentType : String
  /-- The bytes that `content_b64` encodes, if it is base64. -/
  content : Option Bytes
  sha256 : Option String
  executionToken : Uuid
  toolName : Option String
  fingerprint : Option String

/-- Where `LocalResultSink.submit_evidence` puts the bytes. -/
def evidenceUri (svc : Services) (payload : EvidenceIn) (digest : String) : String :=
  let owner := Uuid.str (payload.toolRunId.getD payload.scanId)
  if baseType payload.contentType = "image/png" then
    s!"s3://{svc.bucket}/vulnerabilities/{owner}/screenshot-{digest.take 16}.png"
  else s!"s3://{svc.bucket}/tool-runs/{owner}/raw-output.txt"

structure EvidenceOut where
  sha256 : String
  uri : String

/-- `_link_screenshot_to_finding`. -/
def linkScreenshotToFinding (scan : Scan) (evidenceId : Uuid) (fingerprint : String)
    (toolRunId : Option Uuid) (db : Db) : Db :=
  match db.vulnerabilities (scan.projectId, fingerprint) with
  | none => db
  | some vuln =>
    match db.vulnerabilityEvidence (vuln, evidenceId) with
    | some _ => db
    | none =>
      { db with
        vulnerabilityEvidence := db.vulnerabilityEvidence.set (vuln, evidenceId) toolRunId }

/-- What the parser is given of a submission. -/
def rawOutput (svc : Services) (toolRun : ToolRun) (content : Bytes) : RawToolOutput where
  command := ""
  stdout := svc.decode content
  stderr := ""
  exitCode := toolRun.exitCode.getD 0
  timedOut := false

/-- The call of the vulnerability pipeline: none when the parser raised or found nothing. -/
def pipelineCalls (target : Option Target) (scanId toolRunId evidenceId : Uuid) :
    Option (List VulnerabilityFinding) → List IngestCall
  | none | some [] => []
  | some findings => [{
      scanId, findings, toolRunId, evidenceId
      criticality := ((target.map (·.criticality)).filter (· ≠ "")).getD "medium"
      targetType := (target.map (·.type)).getD ""
      targetValue := (target.map (·.value)).getD "" }]

/-- `_ingest_from_raw_output`. -/
def ingestFromRawOutput (svc : Services) (scanId : Uuid) (scan : Scan) (toolRunId : Uuid)
    (toolRun : ToolRun) (evidenceId : Uuid) (toolName : String) (content : Bytes)
    (contentType : String) (db : Db) : Db :=
  if !startsWith contentType "text/" then db
  else if (registered toolName).isNone then db
  else if toolRun.status = .failed then db
  else
    let raw := rawOutput svc toolRun content
    { db with
      parserCalls := db.parserCalls ++ [⟨toolRunId, toolName, raw⟩]
      ingestCalls := db.ingestCalls ++
        pipelineCalls (db.targets scan.targetId) scanId toolRunId evidenceId
          (svc.parser toolName raw) }

/-- The row of the same bytes for the same tool run. -/
def findEvidence (db : Db) (toolRunId : Option Uuid) (checksum : String) : Option Evidence :=
  match toolRunId with
  | none => none
  | some id => db.evidence.find? fun e => e.toolRunId = some id ∧ e.checksum = checksum

@[simp] theorem findEvidence_objects (db : Db) (objects : Table String Bytes)
    (toolRunId : Option Uuid) (checksum : String) :
    findEvidence { db with objects } toolRunId checksum = findEvidence db toolRunId checksum := rfl

/-- The checks of the endpoint: the scan and the digest of the bytes. -/
def evidenceGate (cfg : Settings) (svc : Services) (db : Db) (worker : ScannerWorker)
    (emergency : Bool) (payload : EvidenceIn) : Except Fault (Scan × Bytes × String) := do
  let scan ← authorizeScanForWorker cfg db worker emergency payload.scanId
  match payload.content with
  | none => .error (.http 400 "EVIDENCE_NOT_BASE64")
  | some content =>
    match validateEvidence svc content payload.contentType with
    | .error reason => .error (.http 400 reason)
    | .ok digest =>
      if payload.sha256.any fun claimed => claimed ≠ "" ∧ lower claimed ≠ digest then
        .error (.http 400 "EVIDENCE_DIGEST_MISMATCH")
      else
        assertExecutionToken scan payload.executionToken
        return (scan, content, digest)

/-- The link of a screenshot that names a finding. -/
def linkFingerprint (scan : Scan) (payload : EvidenceIn) (evidenceId : Uuid) (db : Db) : Db :=
  match payload.fingerprint with
  | none => db
  | some fingerprint =>
    if baseType payload.contentType = "image/png" ∧ fingerprint ≠ "" then
      linkScreenshotToFinding scan evidenceId fingerprint payload.toolRunId db
    else db

/-- A tool run keeps the reference to its first raw output. -/
def setRawOutputRef (uri : String) (toolRunId : Uuid) (toolRun : ToolRun) (db : Db) : Db :=
  if toolRun.rawOutputRef.getD "" = "" then
    { db with toolRuns := db.toolRuns.set toolRunId { toolRun with rawOutputRef := some uri } }
  else db

/-- The parse of a submission that names a tool. -/
def reparse (svc : Services) (scan : Scan) (payload : EvidenceIn) (content : Bytes)
    (evidenceId toolRunId : Uuid) (toolRun : ToolRun) (db : Db) : Db :=
  match payload.toolName with
  | none => db
  | some toolName =>
    if toolName = "" then db
    else ingestFromRawOutput svc payload.scanId scan toolRunId toolRun evidenceId toolName content
      payload.contentType db

/-- What follows the evidence row: the link of a screenshot, the reference of the tool run and the
parse. -/
def fileEvidence (svc : Services) (scan : Scan) (payload : EvidenceIn) (content : Bytes)
    (uri : String) (evidenceId : Uuid) (db : Db) : Db :=
  let db := linkFingerprint scan payload evidenceId db
  match payload.toolRunId with
  | none => db
  | some id =>
    match db.toolRuns id with
    | none => db
    | some toolRun =>
      reparse svc scan payload content evidenceId id toolRun (setRawOutputRef uri id toolRun db)

/-- The evidence row of a submission. -/
def newEvidence (svc : Services) (evidenceId : Uuid) (payload : EvidenceIn) (digest : String) :
    Evidence where
  id := evidenceId
  toolRunId := payload.toolRunId
  evidenceType := if baseType payload.contentType = "image/png" then "screenshot" else "log_excerpt"
  storageUri := evidenceUri svc payload digest
  checksum := digest

/-- `submit_evidence`; `evidenceId` is the id made for a new row. The bytes are stored before the
row is written, which fails when it names a tool run that does not exist. -/
def submitEvidence (cfg : Settings) (svc : Services) (worker : ScannerWorker) (emergency : Bool)
    (evidenceId : Uuid) (payload : EvidenceIn) (db : Db) : Db × Except Fault EvidenceOut :=
  match evidenceGate cfg svc db worker emergency payload with
  | .error fault => (db, .error fault)
  | .ok (scan, content, digest) =>
    let uri := evidenceUri svc payload digest
    let db := { db with objects := db.objects.set uri content }
    match findEvidence db payload.toolRunId digest with
    | some row => (fileEvidence svc scan payload content uri row.id db, .ok ⟨digest, uri⟩)
    | none =>
      if payload.toolRunId.any fun id => (db.toolRuns id).isNone then
        (db, .error (.raised "IntegrityError"))
      else
        (fileEvidence svc scan payload content uri evidenceId
          { db with evidence := db.evidence ++ [newEvidence svc evidenceId payload digest] },
          .ok ⟨digest, uri⟩)

/-! ## What an accepted submission has passed -/

/-- What a submission has passed that reaches the end of the checks, of which the token is the
last. -/
theorem evidenceGate_passed {cfg : Settings} {svc : Services} {db : Db} {worker : ScannerWorker}
    {emergency : Bool} {payload : EvidenceIn} {scan : Scan} {content : Bytes} {digest : String}
    (h : evidenceGate cfg svc db worker emergency payload = .ok (scan, content, digest)) :
    db.scans payload.scanId = some scan ∧
      (payload.content = some content ∧ digest = svc.sha256 content) ∧
      scan.executionToken = some payload.executionToken := by
  obtain ⟨scan', hauth, h⟩ := bind_eq_ok.mp h
  cases hcontent : payload.content with
  | none => rw [hcontent] at h; cases h
  | some bytes =>
    simp only [hcontent] at h
    unfold validateEvidence at h
    split at h
    · cases h
    case h_2 digest' hvalid =>
      split_ifs at hvalid
      cases hvalid
      split at h
      · cases h
      · obtain ⟨_, htoken, h⟩ := bind_eq_ok.mp h
        cases h
        unfold assertExecutionToken at htoken
        split_ifs at htoken with hsame
        exact ⟨authorizeScanForWorker_scan hauth, ⟨rfl, rfl⟩, hsame⟩

theorem evidenceGate_ok {cfg : Settings} {svc : Services} {db : Db} {worker : ScannerWorker}
    {emergency : Bool} {payload : EvidenceIn} {scan : Scan} {content : Bytes} {digest : String}
    (h : evidenceGate cfg svc db worker emergency payload = .ok (scan, content, digest)) :
    db.scans payload.scanId = some scan ∧ payload.content = some content ∧
      digest = svc.sha256 content :=
  have hpassed := evidenceGate_passed h
  ⟨hpassed.1, hpassed.2.1⟩

theorem evidenceGate_token {cfg : Settings} {svc : Services} {db : Db} {worker : ScannerWorker}
    {emergency : Bool} {payload : EvidenceIn} {scan : Scan} {content : Bytes} {digest : String}
    (h : evidenceGate cfg svc db worker emergency payload = .ok (scan, content, digest)) :
    db.scans payload.scanId = some scan ∧
      scan.executionToken = some payload.executionToken :=
  have hpassed := evidenceGate_passed h
  ⟨hpassed.1, hpassed.2.2⟩

/-! ## What the parts write -/

/-- The submission is parsed with the tool's parser. -/
def EvidenceIn.ParsedAs (payload : EvidenceIn) (toolRun : ToolRun) (toolName : String) : Prop :=
  payload.toolName = some toolName ∧ toolName ≠ "" ∧
    startsWith payload.contentType "text/" = true ∧ (registered toolName).isSome = true ∧
      toolRun.status ≠ .failed

theorem linkFingerprint_frame (scan : Scan) (payload : EvidenceIn) (evidenceId : Uuid) (db : Db) :
    ∃ links, linkFingerprint scan payload evidenceId db =
      { db with vulnerabilityEvidence := links } := by
  unfold linkFingerprint
  split
  · exact ⟨_, rfl⟩
  · split_ifs
    · unfold linkScreenshotToFinding
      split
      · exact ⟨_, rfl⟩
      · split <;> exact ⟨_, rfl⟩
    · exact ⟨_, rfl⟩

theorem reparse_of_parsed {svc : Services} {scan : Scan} {payload : EvidenceIn} {content : Bytes}
    {evidenceId toolRunId : Uuid} {toolRun : ToolRun} {db : Db} {toolName : String}
    (h : payload.ParsedAs toolRun toolName) :
    reparse svc scan payload content evidenceId toolRunId toolRun db =
      { db with
        parserCalls := db.parserCalls ++ [⟨toolRunId, toolName, rawOutput svc toolRun content⟩]
        ingestCalls := db.ingestCalls ++
          pipelineCalls (db.targets scan.targetId) payload.scanId toolRunId evidenceId
            (svc.parser toolName (rawOutput svc toolRun content)) } := by
  obtain ⟨hname, hempty, htext, hreg, hfailed⟩ := h
  have hreg' : (registered toolName).isNone = false := by rw [← Option.not_isSome, hreg]; rfl
  simp only [reparse, hname, if_neg hempty, ingestFromRawOutput, htext, hreg', if_neg hfailed,
    Bool.not_true, Bool.false_eq_true, if_false]

theorem reparse_of_not_parsed {svc : Services} {scan : Scan} {payload : EvidenceIn}
    {content : Bytes} {evidenceId toolRunId : Uuid} {toolRun : ToolRun} {db : Db}
    (h : ∀ toolName, ¬ payload.ParsedAs toolRun toolName) :
    reparse svc scan payload content evidenceId toolRunId toolRun db = db := by
  unfold reparse
  split
  · rfl
  case h_2 name hname =>
    split_ifs with hempty
    · rfl
    · unfold ingestFromRawOutput
      split_ifs with htext hreg hfailed
      · rfl
      · rfl
      · rfl
      · refine absurd ⟨hname, hempty, ?_, ?_, hfailed⟩ (h name)
        · simpa only [Bool.not_eq_true', Bool.not_eq_false] using htext
        · rwa [Option.isNone_iff_eq_none, ← ne_eq, Option.ne_none_iff_isSome] at hreg

theorem fileEvidence_unknown (svc : Services) (scan : Scan) {payload : EvidenceIn}
    (content : Bytes) (uri : String) (evidenceId : Uuid) (db : Db)
    (h : ∀ id ∈ payload.toolRunId, db.toolRuns id = none) :
    ∃ links, fileEvidence svc scan payload content uri evidenceId db =
      { db with vulnerabilityEvidence := links } := by
  obtain ⟨links, hlinks⟩ := linkFingerprint_frame scan payload evidenceId db
  refine ⟨links, ?_⟩
  unfold fileEvidence
  rw [hlinks]
  cases hid : payload.toolRunId with
  | none => rfl
  | some id => simp only [h id hid]

/-- **What follows on the row of a tool run**: the reference to the output if there was none, the
call of the parser if the submission is parsed, and the call of the pipeline with what it found. -/
theorem fileEvidence_known (svc : Services) (scan : Scan) {payload : EvidenceIn} (content : Bytes)
    (uri : String) (evidenceId : Uuid) {id : Uuid} (db : Db) {r : ToolRun}
    (hid : payload.toolRunId = some id) (hr : db.toolRuns id = some r) :
    ∃ links calls ingests, fileEvidence svc scan payload content uri evidenceId db =
        { db with
          vulnerabilityEvidence := links
          toolRuns := if r.rawOutputRef.getD "" = "" then
              db.toolRuns.set id { r with rawOutputRef := some uri } else db.toolRuns
          parserCalls := db.parserCalls ++ calls
          ingestCalls := db.ingestCalls ++ ingests } ∧
      ((∃ name, payload.ParsedAs r name ∧ calls = [⟨id, name, rawOutput svc r content⟩] ∧
          ingests = pipelineCalls (db.targets scan.targetId) payload.scanId id evidenceId
            (svc.parser name (rawOutput svc r content))) ∨
        (∀ name, ¬ payload.ParsedAs r name) ∧ calls = [] ∧ ingests = []) := by
  obtain ⟨links, hlinks⟩ := linkFingerprint_frame scan payload evidenceId db
  have hset : setRawOutputRef uri id r { db with vulnerabilityEvidence := links } =
      { db with
        vulnerabilityEvidence := links
        toolRuns := if r.rawOutputRef.getD "" = "" then
          db.toolRuns.set id { r with rawOutputRef := some uri } else db.toolRuns } := by
    unfold setRawOutputRef
    split_ifs <;> rfl
  unfold fileEvidence
  simp only [hlinks, hid, hr, hset]
  by_cases hparsed : ∃ name, payload.ParsedAs r name
  · obtain ⟨name, hname⟩ := hparsed
    rw [reparse_of_parsed hname]
    exact ⟨links, _, _, rfl, .inl ⟨name, hname, rfl, rfl⟩⟩
  · rw [reparse_of_not_parsed (not_exists.mp hparsed)]
    refine ⟨links, [], [], ?_, .inr ⟨not_exists.mp hparsed, rfl, rfl⟩⟩
    rw [List.append_nil, List.append_nil]

/-- **What follows on a row writes** no object and no row of `evidence`, and at most the reference
to the output on a tool run that is there. -/
theorem fileEvidence_frame (svc : Services) (scan : Scan) (payload : EvidenceIn)
    (content : Bytes) (uri : String) (evidenceId : Uuid) (db : Db) :
    ∃ links toolRuns parserCalls ingestCalls,
      fileEvidence svc scan payload content uri evidenceId db =
        { db with
          vulnerabilityEvidence := links
          toolRuns
          parserCalls
          ingestCalls } ∧
      (toolRuns = db.toolRuns ∨ ∃ id r, db.toolRuns id = some r ∧
        toolRuns = db.toolRuns.set id { r with rawOutputRef := some uri }) := by
  by_cases hknown : ∃ id r, payload.toolRunId = some id ∧ db.toolRuns id = some r
  · obtain ⟨id, r, hid, hr⟩ := hknown
    obtain ⟨links, calls, ingests, hfile, -⟩ :=
      fileEvidence_known svc scan content uri evidenceId db hid hr
    refine ⟨links, _, _, _, hfile, ?_⟩
    by_cases hfirst : r.rawOutputRef.getD "" = ""
    · exact .inr ⟨id, r, hr, if_pos hfirst⟩
    · exact .inl (if_neg hfirst)
  · have hunknown : ∀ id ∈ payload.toolRunId, db.toolRuns id = none := fun id hid =>
      Option.eq_none_iff_forall_ne_some.mpr fun r hr => hknown ⟨id, r, hid, hr⟩
    obtain ⟨links, hfile⟩ := fileEvidence_unknown svc scan content uri evidenceId db hunknown
    exact ⟨links, _, _, _, hfile, .inl rfl⟩

theorem fileEvidence_scans (svc : Services) (scan : Scan) (payload : EvidenceIn)
    (content : Bytes) (uri : String) (evidenceId : Uuid) (db : Db) :
    (fileEvidence svc scan payload content uri evidenceId db).scans = db.scans := by
  obtain ⟨links, toolRuns, calls, ingests, hfile, -⟩ :=
    fileEvidence_frame svc scan payload content uri evidenceId db
  rw [hfile]

theorem evidenceUri_ne_empty (svc : Services) (payload : EvidenceIn) (digest : String) :
    evidenceUri svc payload digest ≠ "" := by
  simp only [evidenceUri]
  split_ifs
  · exact fun h => absurd (String.append_eq_empty_iff.mp h).2 (by decide)
  · exact fun h => absurd (String.append_eq_empty_iff.mp h).2 (by decide)

/-! ## What an accepted submission does -/

/-- The digest under which a submission is recorded. -/
def EvidenceIn.digest (svc : Services) (payload : EvidenceIn) : String :=
  svc.sha256 (payload.content.getD [])

/-- The bytes are in the store, a row is added unless there was one, and the rest follows on the
row. -/
theorem submitEvidence_accepted {cfg : Settings} {svc : Services} {worker : ScannerWorker}
    {emergency : Bool} {evidenceId : Uuid} {payload : EvidenceIn} {db : Db} {out : EvidenceOut}
    (h : (submitEvidence cfg svc worker emergency evidenceId payload db).2 = .ok out) :
    ∃ scan content objects rowId new, db.scans payload.scanId = some scan ∧
      payload.content = some content ∧
      (submitEvidence cfg svc worker emergency evidenceId payload db).1 =
        fileEvidence svc scan payload content (evidenceUri svc payload (payload.digest svc)) rowId
          { db with objects, evidence := db.evidence ++ new } ∧
      (match findEvidence db payload.toolRunId (payload.digest svc) with
        | some row => new = [] ∧ rowId = row.id
        | none => new = [newEvidence svc evidenceId payload (payload.digest svc)] ∧
            rowId = evidenceId ∧ ∀ id ∈ payload.toolRunId, (db.toolRuns id).isSome) := by
  unfold submitEvidence at h ⊢
  cases hgate : evidenceGate cfg svc db worker emergency payload with
  | error f => rw [hgate] at h; cases h
  | ok passed =>
    obtain ⟨scan, content, digest⟩ := passed
    obtain ⟨hscan, hcontent, hdigest⟩ := evidenceGate_ok hgate
    obtain rfl : digest = payload.digest svc := by
      rw [hdigest, EvidenceIn.digest, hcontent]; rfl
    simp only [hgate, findEvidence_objects] at h ⊢
    refine ⟨scan, content, db.objects.set (evidenceUri svc payload (payload.digest svc)) content,
      ?_⟩
    cases hrow : findEvidence db payload.toolRunId (payload.digest svc) with
    | some row =>
      refine ⟨row.id, [], hscan, hcontent, ?_, rfl, rfl⟩
      rw [List.append_nil]
    | none =>
      simp only [hrow] at h
      split_ifs at h with hmissing
      refine ⟨evidenceId, [newEvidence svc evidenceId payload (payload.digest svc)], hscan,
        hcontent, ?_, rfl, rfl, fun id hid => ?_⟩
      · simp only [if_neg hmissing]
      · rw [Option.mem_def] at hid
        simp only [hid, Option.any_some, Option.isNone_iff_eq_none] at hmissing
        exact Option.ne_none_iff_isSome.mp hmissing

end ScanPlatform

import ScanPlatform.Manager.Submission

/-!
# What a worker can write

The id of a tool run is chosen by the worker. The endpoints for announcements and results refuse an
id that belongs to another scan, and a tool that was not requested; the endpoint for evidence
checks neither.

* `WritesConfined`: what is written belongs to the scan that was authorized;
* `Submission.Own`: the condition on a submission of evidence;
* **`writes_confined_iff`**, `writes_other_scan`: when an accepted request is confined to its scan,
  and one that is not.
-/

set_option autoImplicit false

namespace ScanPlatform

open Checks

/-- The tool is one of those that were requested for the scan. -/
def Db.Requests (db : Db) (scanId : Uuid) (name : String) : Prop :=
  ∃ scan ∈ db.scans scanId, scan.Requests name

/-- What was written belongs to the scan: the tool runs, the tool runs that new evidence is
attached to, and the tool names that were stored or handed to a parser. -/
structure WritesConfined (scanId : Uuid) (db db' : Db) : Prop where
  toolRuns : ∀ id, db'.toolRuns id ≠ db.toolRuns id →
    (∀ r ∈ db.toolRuns id, r.scanId = scanId) ∧ ∃ r ∈ db'.toolRuns id, r.scanId = scanId
  evidence : ∃ new, db'.evidence = db.evidence ++ new ∧
    ∀ e ∈ new, ∀ id ∈ e.toolRunId, ∃ r ∈ db'.toolRuns id, r.scanId = scanId
  stored : ∀ id, ∀ r ∈ db'.toolRuns id,
    (db.toolRuns id).map (·.toolName) ≠ some r.toolName → db.Requests scanId r.toolName
  parsed : ∃ calls, db'.parserCalls = db.parserCalls ++ calls ∧
    ∀ call ∈ calls, db.Requests scanId call.toolName
  scans : db'.scans = db.scans

/-- The tool runs of all other scans are as they were. -/
theorem WritesConfined.other {scanId : Uuid} {db db' : Db} (h : WritesConfined scanId db db')
    {id : Uuid} {r : ToolRun} (hr : db.toolRuns id = some r) (hother : r.scanId ≠ scanId) :
    db'.toolRuns id = some r := by
  by_contra hne
  exact hother ((h.toolRuns id (by rwa [hr])).1 r hr)

/-- The condition on a submission of evidence that names a tool run. The tool run is one of the
scan, unless the same bytes are filed under it already and it has its raw output; and if the
submission comes to be parsed, its tool was requested. -/
def Submission.Own (svc : Services) (db : Db) : Submission → Prop
  | .toolStarted _ | .toolResult _ => True
  | .evidence payload => ∀ id ∈ payload.toolRunId, ∀ r ∈ db.toolRuns id,
      (r.scanId = payload.scanId ∨
        (findEvidence db payload.toolRunId (payload.digest svc)).isSome ∧
          r.rawOutputRef.getD "" ≠ "") ∧
      ∀ toolName, payload.ParsedAs r toolName → db.Requests payload.scanId toolName

variable {cfg : Settings} {svc : Services} {worker : ScannerWorker} {emergency : Bool} {now : ℤ}
  {evidenceId : Uuid}

/-! ## Announcements and results -/

/-- One row of the scan is written, under a tool that was requested or that it already had. -/
theorem WritesConfined.set {scanId id : Uuid} {db db' : Db} {r : ToolRun}
    (hruns : db'.toolRuns = db.toolRuns.set id r) (hevidence : db'.evidence = db.evidence)
    (hcalls : db'.parserCalls = db.parserCalls) (hscans : db'.scans = db.scans)
    (hold : ∀ old ∈ db.toolRuns id, old.scanId = scanId) (hnew : r.scanId = scanId)
    (hname : (db.toolRuns id).map (·.toolName) = some r.toolName ∨ db.Requests scanId r.toolName) :
    WritesConfined scanId db db' where
  toolRuns j hj := by
    rw [hruns, Table.set_apply] at hj ⊢
    split_ifs at hj ⊢ with hjid
    · subst hjid
      exact ⟨hold, r, rfl, hnew⟩
    · exact absurd rfl hj
  evidence := ⟨[], by rw [hevidence, List.append_nil], fun e he => (by cases he)⟩
  stored j s hs hne := by
    rw [hruns, Table.set_apply] at hs
    split_ifs at hs with hjid
    · subst hjid
      cases hs
      exact hname.resolve_left hne
    · rw [Option.mem_def] at hs
      rw [hs] at hne
      exact absurd rfl hne
  parsed := ⟨[], by rw [hcalls, List.append_nil], fun call hcall => (by cases hcall)⟩
  scans := hscans

theorem WritesConfined.refl (scanId : Uuid) (db : Db) : WritesConfined scanId db db where
  toolRuns _ h := absurd rfl h
  evidence := ⟨[], (List.append_nil _).symm, fun e he => (by cases he)⟩
  stored id r hr hne := by
    rw [Option.mem_def] at hr
    rw [hr] at hne
    exact absurd rfl hne
  parsed := ⟨[], (List.append_nil _).symm, fun call hcall => (by cases hcall)⟩
  scans := rfl

theorem toolStarted_confined {payload : ToolStartedIn} {db : Db}
    (h : (submitToolStarted cfg worker emergency now payload db).2 = .ok ()) :
    WritesConfined payload.scanId db (submitToolStarted cfg worker emergency now payload db).1 := by
  obtain ⟨scan, hscan, hrequests, hold, hdb | ⟨r, hdb, hnew, hname⟩⟩ :=
    submitToolStarted_accepted h
  · rw [hdb]
    exact .refl _ _
  · rw [hdb]
    refine .set rfl rfl rfl rfl hold hnew ?_
    cases hrow : db.toolRuns payload.toolRunId with
    | none =>
      rw [hrow] at hname
      exact .inr (hname.1 ▸ ⟨scan, hscan, hrequests⟩)
    | some old =>
      rw [hrow] at hname
      exact .inl (by rw [Option.map_some, hname])

theorem toolResult_confined {payload : ToolResultIn} {db : Db} {out : ToolResultOut}
    (h : (submitToolResult cfg svc worker emergency now payload db).2 = .ok out) :
    WritesConfined payload.scanId db
      (submitToolResult cfg svc worker emergency now payload db).1 := by
  obtain ⟨scan, status, assets, hscan, hrequests, -, hold, hdb⟩ := submitToolResult_accepted h
  rw [hdb]
  refine .set rfl rfl rfl rfl hold ?_ (.inr ⟨scan, hscan, ?_⟩)
  · cases hrow : db.toolRuns payload.toolRunId with
    | none => rfl
    | some old => exact hold old hrow
  · cases db.toolRuns payload.toolRunId with
    | none => exact hrequests
    | some old => exact hrequests

/-! ## Evidence -/

/-- A tool run that is named, but is not there, is not written and no evidence is attached to it. -/
theorem evidence_unknown_confined {payload : EvidenceIn} {db : Db} {out : EvidenceOut}
    (h : (submitEvidence cfg svc worker emergency evidenceId payload db).2 = .ok out)
    (hunknown : ∀ id ∈ payload.toolRunId, db.toolRuns id = none) :
    WritesConfined payload.scanId db
      (submitEvidence cfg svc worker emergency evidenceId payload db).1 := by
  obtain ⟨scan, content, objects, rowId, new, -, -, hdb, hrow⟩ := submitEvidence_accepted h
  obtain ⟨links, hfile⟩ := fileEvidence_unknown svc scan content
    (evidenceUri svc payload (payload.digest svc)) rowId
    { db with objects, evidence := db.evidence ++ new } hunknown
  rw [hdb, hfile]
  refine ⟨fun id hid => absurd rfl hid, ⟨new, rfl, fun e he id hid => ?_⟩,
    (WritesConfined.refl payload.scanId db).stored, (WritesConfined.refl payload.scanId db).parsed,
    rfl⟩
  split at hrow
  · rw [hrow.1] at he
    cases he
  · obtain ⟨rfl, -, hsome⟩ := hrow
    rw [List.mem_singleton] at he
    subst he
    have hknown := hsome id hid
    rw [hunknown id hid] at hknown
    cases hknown

/-- The parser calls of evidence are those of the tool that it is parsed with. -/
theorem EvidenceFiled.parsed_iff {payload : EvidenceIn} {id : Uuid} {r : ToolRun} {db db' : Db}
    (h : EvidenceFiled svc payload evidenceId id r db db') :
    ∃ calls, db'.parserCalls = db.parserCalls ++ calls ∧
      ∀ name, payload.ParsedAs r name ↔ ∃ call ∈ calls, call.toolName = name := by
  obtain ⟨calls, _, hcalls, -, hparsed⟩ := h.parsed
  refine ⟨calls, hcalls, fun name => ?_⟩
  rcases hparsed with ⟨used, _, _, _, hused, -, rfl, -⟩ | ⟨hnone, rfl, -⟩
  · refine ⟨fun hname => ⟨_, List.mem_cons_self, ?_⟩, ?_⟩
    · exact Option.some.inj (hused.1.symm.trans hname.1)
    · rintro ⟨call, hcall, rfl⟩
      rw [List.mem_singleton.mp hcall]
      exact hused
  · refine iff_of_false (hnone name) ?_
    rintro ⟨call, hcall, -⟩
    cases hcall

/-- Confined evidence for a tool run that exists writes nothing on a tool run of another scan, and
is parsed with a tool that was requested. -/
theorem EvidenceFiled.own_of_confined {payload : EvidenceIn} {id : Uuid} {r : ToolRun}
    {db db' : Db} (h : EvidenceFiled svc payload evidenceId id r db db')
    (hid : payload.toolRunId = some id) (hr : db.toolRuns id = some r)
    (hconf : WritesConfined payload.scanId db db') :
    (r.scanId = payload.scanId ∨
      (findEvidence db payload.toolRunId (payload.digest svc)).isSome ∧
        r.rawOutputRef.getD "" ≠ "") ∧
    ∀ toolName, payload.ParsedAs r toolName → db.Requests payload.scanId toolName := by
  obtain ⟨calls, hcalls, hparsed⟩ := h.parsed_iff
  obtain ⟨ref, hruns, href⟩ := h.toolRuns
  have hr' : db'.toolRuns id = some { r with rawOutputRef := ref } := by
    rw [hruns, Table.set_self]
  have hevidence := h.evidence
  refine ⟨?_, fun toolName htool => ?_⟩
  · by_contra hnot
    obtain ⟨hother, hwrites⟩ := not_or.mp hnot
    by_cases hfound : (findEvidence db payload.toolRunId (payload.digest svc)).isSome
    · -- The reference of the tool run is set, on a row of another scan.
      refine hother ((hconf.toolRuns id fun hstays => hwrites ⟨hfound, href.mp ?_⟩).1 r hr)
      rw [hr', hr] at hstays
      exact congrArg ToolRun.rawOutputRef (Option.some.inj hstays)
    · -- Evidence is attached to it.
      rw [if_neg hfound] at hevidence
      obtain ⟨new, hnew, hattached⟩ := hconf.evidence
      obtain rfl := List.append_cancel_left (hevidence.symm.trans hnew)
      obtain ⟨s, hs, hscan⟩ := hattached _ List.mem_cons_self id hid
      rw [Option.mem_def, hr'] at hs
      cases hs
      exact hother hscan
  · obtain ⟨call, hcall, rfl⟩ := (hparsed toolName).mp htool
    obtain ⟨calls', hcalls', hrequests⟩ := hconf.parsed
    obtain rfl := List.append_cancel_left (hcalls.symm.trans hcalls')
    exact hrequests call hcall

/-- Evidence for a tool run that exists is confined when the tool run is one of the scan or
nothing is written, and what is parsed was requested. -/
theorem EvidenceFiled.confined_of_own {payload : EvidenceIn} {id : Uuid} {r : ToolRun}
    {db db' : Db} (h : EvidenceFiled svc payload evidenceId id r db db')
    (hid : payload.toolRunId = some id) (hr : db.toolRuns id = some r)
    (hown : r.scanId = payload.scanId ∨
      (findEvidence db payload.toolRunId (payload.digest svc)).isSome ∧
        r.rawOutputRef.getD "" ≠ "")
    (hrequests : ∀ toolName, payload.ParsedAs r toolName → db.Requests payload.scanId toolName) :
    WritesConfined payload.scanId db db' := by
  obtain ⟨calls, hcalls, hparsed⟩ := h.parsed_iff
  obtain ⟨ref, hruns, href⟩ := h.toolRuns
  have hr' : db'.toolRuns id = some { r with rawOutputRef := ref } := by
    rw [hruns, Table.set_self]
  refine ⟨fun j hj => ?_, ⟨_, h.evidence, fun e he j hj => ?_⟩, fun j s hs hne => ?_,
    ⟨calls, hcalls, fun call hcall => ?_⟩, h.gates.scans⟩
  · by_cases hjid : j = id
    · subst hjid
      have hscan := hown.resolve_right fun ⟨_, hset⟩ => hj (by rw [hr', hr, href.mpr hset])
      refine ⟨fun s hs => ?_, _, hr', hscan⟩
      rw [Option.mem_def, hr] at hs
      cases hs
      exact hscan
    · rw [hruns, Table.set_of_ne _ _ hjid] at hj
      exact absurd rfl hj
  · split_ifs at he with hfound
    · cases he
    · rw [List.mem_singleton.mp he, Option.mem_def] at hj
      obtain rfl : id = j := Option.some.inj (hid.symm.trans hj)
      exact ⟨_, hr', hown.resolve_right fun h => hfound h.1⟩
  · refine absurd ?_ hne
    by_cases hjid : j = id
    · subst hjid
      rw [Option.mem_def, hr'] at hs
      cases hs
      rw [hr, Option.map_some]
    · rw [Option.mem_def, hruns, Table.set_of_ne _ _ hjid] at hs
      rw [hs, Option.map_some]
  · exact hrequests _ ((hparsed call.toolName).mpr ⟨call, hcall, rfl⟩)

theorem EvidenceFiled.confined_iff {payload : EvidenceIn} {id : Uuid} {r : ToolRun} {db db' : Db}
    (h : EvidenceFiled svc payload evidenceId id r db db') (hid : payload.toolRunId = some id)
    (hr : db.toolRuns id = some r) :
    WritesConfined payload.scanId db db' ↔
      (r.scanId = payload.scanId ∨
        (findEvidence db payload.toolRunId (payload.digest svc)).isSome ∧
          r.rawOutputRef.getD "" ≠ "") ∧
      ∀ toolName, payload.ParsedAs r toolName → db.Requests payload.scanId toolName :=
  ⟨h.own_of_confined hid hr, fun ⟨hown, hrequests⟩ => h.confined_of_own hid hr hown hrequests⟩

/-- **When an accepted request is confined to its scan**: always for announcements and results, and
for evidence exactly when the tool run that it names, if there is one, is one of the scan or takes
nothing from it, and it is not parsed with a tool that was not requested. -/
theorem writes_confined_iff {submission : Submission} {db : Db}
    (h : (submit cfg svc worker emergency now evidenceId submission db).2 = .ok ()) :
    WritesConfined submission.scanId db
        (submit cfg svc worker emergency now evidenceId submission db).1 ↔
      submission.Own svc db := by
  cases submission with
  | toolStarted payload => exact iff_of_true (toolStarted_confined h) trivial
  | toolResult payload =>
    simp only [submit] at h
    cases hout : (submitToolResult cfg svc worker emergency now payload db).2 with
    | error f => rw [hout] at h; cases h
    | ok out => exact iff_of_true (toolResult_confined hout) trivial
  | evidence payload =>
    simp only [submit] at h
    cases hout : (submitEvidence cfg svc worker emergency evidenceId payload db).2 with
    | error f => rw [hout] at h; cases h
    | ok out =>
      by_cases hknown : ∃ id r, payload.toolRunId = some id ∧ db.toolRuns id = some r
      · obtain ⟨id, r, hid, hr⟩ := hknown
        refine ((submitEvidence_filed hout hid hr).confined_iff hid hr).trans
          ⟨fun hown j hj s hs => ?_, fun hown => ?_⟩
        · rw [Option.mem_def, hid] at hj
          cases hj
          rw [Option.mem_def, hr] at hs
          cases hs
          exact hown
        · exact hown id hid r hr
      · have hunknown : ∀ id ∈ payload.toolRunId, db.toolRuns id = none := fun id hid => by
          cases hr : db.toolRuns id with
          | none => rfl
          | some r => exact absurd ⟨id, r, hid, hr⟩ hknown
        refine iff_of_true (evidence_unknown_confined hout hunknown) fun id hid r hr => ?_
        rw [Option.mem_def, hunknown id hid] at hr
        cases hr

/-! ## Two submissions -/

/-- Two running scans, 5 under token 7 and 6 under token 8, and tool run 9 of one of them. -/
def twoScans (owner : Uuid) : Db where
  __ := Db.empty
  scans := .ofList ([(5, 7), (6, 8)].map fun (id, token) =>
    (id, { Scan.created 1 2 3 [] 0 with status := .running, executionToken := some token }))
  toolRuns := .ofList
    [(9, ⟨owner, "nmap", "7", .running, "", none, false, 0, none, none, none, none⟩)]

/-- Services that know the digest of a zero byte. -/
def zeroServices : Services :=
  .ascii [([0], "6e340b9cffb37a989ca544e6bb780a2c78901d3fb33738768511a30617afa01d")]
    fun _ _ => some []

/-- A submission for scan 5 of one byte for tool run 9. -/
def fileByte : Submission :=
  .evidence ⟨5, some 9, "text/plain", some [0], none, 7, none, none⟩

/-- Evidence for a tool run of its own scan is confined to the scan. -/
theorem writes_confined_iff_own :
    WritesConfined 5 (twoScans 5)
      (submit ⟨""⟩ zeroServices ⟨"w", "public", none, none, .active, none⟩ false 0 8 fileByte
        (twoScans 5)).1 := by
  have haccepted : (submit ⟨""⟩ zeroServices ⟨"w", "public", none, none, .active, none⟩ false 0 8
      fileByte (twoScans 5)).2 = .ok () := rfl
  refine (writes_confined_iff haccepted).mpr fun id hid r hr => ?_
  cases hid
  cases hr
  exact ⟨.inl rfl, fun toolName hparsed => absurd hparsed.1 (Option.some_ne_none _).symm⟩

/-- **Evidence for a tool run of another scan is accepted** and attached to it. -/
theorem writes_other_scan :
    (submit ⟨""⟩ zeroServices ⟨"w", "public", none, none, .active, none⟩ false 0 8 fileByte
        (twoScans 6)).2 = .ok () ∧
      ¬ WritesConfined 5 (twoScans 6)
        (submit ⟨""⟩ zeroServices ⟨"w", "public", none, none, .active, none⟩ false 0 8 fileByte
          (twoScans 6)).1 := by
  refine ⟨rfl, fun hconf => ?_⟩
  obtain ⟨new, hnew, hattached⟩ := hconf.evidence
  obtain rfl : [newEvidence zeroServices 8
      ⟨5, some 9, "text/plain", some [0], none, 7, none, none⟩ _] = new := hnew
  obtain ⟨r, hr, hscan⟩ := hattached _ List.mem_cons_self 9 rfl
  cases hr
  exact absurd hscan (by decide)

end ScanPlatform

import ScanPlatform.Vulnerabilities.Ingest

/-!
# Regressions and the session they share

The item of a finding that was fixed is reopened in the transaction that stores the finding.

* `RegressionKept`: the finding is reopened and up to date, and what was ingested before is there;
* `settles_reopenForRegression`, **`settles_linkRegression`**: the item is reopened without touching
  what has been ingested, unless the database rolls the transaction back;
* **`regression_kept_iff`**: that is the only way in which a regression is lost.
-/

set_option autoImplicit false

namespace ScanPlatform

open UnitOfWork

abbrev IngestSession := Session IngestWrite WorkflowChange FindingsDb

/-- What the caller commits: the finding is reopened and is as the tool has reported it, the change
of its content is recorded, and the findings that were there are still there. -/
structure RegressionKept (svc : IngestServices) (call : FindingCall) (v : Vulnerability)
    (before after : FindingsDb) : Prop where
  row : ∃ row, after.finding call.key = some row ∧ row.status = .reopened ∧
    row.lastSeenScanId = some call.scanId ∧ row.title = call.finding.title ∧
    row.description = call.finding.description ∧
    row.severity = normalizeSeverity call.finding.severity ∧
    row.cvssVector = call.finding.cvssVector ∧ row.cvssScore = scoreFor svc call.finding
  history : contentChanged v call.finding (scoreFor svc call.finding) →
    call.historyEntry (call.redetect svc v) .observed ∈ after.history
  earlier : ∀ w ∈ before.vulnerabilities, w.id ≠ v.id → w ∈ after.vulnerabilities

/-! ## What the workflow does in the session -/

section

variable {s : IngestSession} {want : List Vulnerability × List VulnerabilityHistory} {n : ℕ}

/-- What is written to the workflow is not written to the findings. -/
theorem findings_workflow (c : WorkflowChange) {db : FindingsDb} (h : db.findings = want) :
    (actAll [IngestWrite.workflow c] db).findings = want :=
  (c.act_findings db).trans h

theorem settles_applyTransition (id : Uuid) (item : RemediationItem) (now : ℤ)
    (toStatus : RemediationStatus) (detail : Option String) (h : s.view.findings = want) :
    Settles FindingsDb.findings 2 want (Ingest.applyTransition id item now toStatus detail) s := by
  unfold Ingest.applyTransition Ingest.bumpVersion
  rw [bind_assoc]
  refine settles_statement isolated_findings h fun s₁ matched ws h₁ hq => ?_
  obtain ⟨rfl, rfl⟩ := Prod.mk.inj (Except.ok.inj hq)
  split_ifs with hmatched
  · rw [pure_bind]
    refine settles_commit isolated_findings ?_ fun s₂ hwritten hcommitted => ?_
    · rw [Session.view_write]
      exact findings_workflow _ (findings_workflow _ h₁)
    · exact settles_committed isolated_findings hwritten hcommitted
  · rw [Session.write_nil, bind_assoc]
    refine settles_select isolated_findings h₁ fun s₂ _ => ?_
    rw [bind_assoc]
    exact settles_rollback

theorem settles_reopenForRegression (now : ℤ) (call : RegressionCall)
    (h : s.view.findings = want) :
    Settles FindingsDb.findings 3 want (Ingest.reopenForRegression now call) s := by
  unfold Ingest.reopenForRegression
  refine settles_select isolated_findings h fun s₁ h₁ => ?_
  split
  · exact settles_pure h₁
  · split_ifs
    · exact settles_applyTransition _ _ _ _ _ h₁
    · exact settles_pure h₁

/-- **A regression leaves the transaction with the finding in it**, or undone. -/
theorem settles_linkRegression (svc : IngestServices) (now : ℤ) (call : FindingCall)
    (v : Vulnerability) (h : (actAll (call.changes svc v) s.view).findings = want) :
    Settles FindingsDb.findings 5 want (linkRegression svc now call v) s := by
  unfold linkRegression
  refine settles_flush isolated_findings h fun s₁ h₁ => ?_
  refine settles_select isolated_findings h₁ fun s₂ h₂ => ?_
  split
  · exact settles_pure h₂
  · exact settles_reopenForRegression _ _ h₂

end

/-! ## What a regression makes of the findings -/

section

variable {svc : IngestServices} {call : FindingCall} {v : Vulnerability} {before after : FindingsDb}

/-- The changes of a finding that was fixed are what is to be kept. -/
theorem RegressionKept.of_changes (hv : before.finding call.key = some v)
    (hfixed : v.status = .fixed)
    (h : after.findings = (actAll (call.changes svc v) before).findings) :
    RegressionKept svc call v before after := by
  have hrows : after.vulnerabilities = before.vulnerabilities.map fun w =>
      if w.id = v.id then call.redetect svc w else w := by
    refine (congrArg Prod.fst h).trans ?_
    unfold FindingCall.changes
    split_ifs <;> rfl
  have hreopened : (call.redetect svc v).status = .reopened := by
    unfold FindingCall.redetect
    exact if_pos hfixed
  refine ⟨⟨call.redetect svc v, ?_, hreopened, rfl, rfl, rfl,
    call.redetect_severity svc v, rfl, rfl⟩, ?_, ?_⟩
  · have hassign := finding_assign v.id (call.redetect_assigns svc) before call.key
    rw [hv, Option.map_some, if_pos rfl] at hassign
    unfold FindingsDb.finding
    rw [hrows]
    exact hassign
  · intro hchanged
    have hhistory : after.history = before.history ++
        [call.historyEntry (call.redetect svc v) .observed] := by
      refine (congrArg Prod.snd h).trans ?_
      unfold FindingCall.changes
      rw [if_pos hchanged]
      rfl
    rw [hhistory]
    exact List.mem_append_right _ List.mem_cons_self
  · intro w hw hne
    rw [hrows]
    exact List.mem_map.mpr ⟨w, hw, if_neg hne⟩

/-- A finding that is fixed after all is not what is to be kept. -/
theorem not_regressionKept_of_fixed {v₀ : Vulnerability}
    (hv₀ : after.finding call.key = some v₀) (hfixed : v₀.status = .fixed) :
    ¬ RegressionKept svc call v before after := by
  intro h
  obtain ⟨row, hrow, hreopened, -⟩ := h.row
  obtain rfl : v₀ = row := Option.some.inj (hv₀.symm.trans hrow)
  rw [hfixed] at hreopened
  cases hreopened

end

/-- The link to the evidence leaves the findings alone, and is answered. -/
theorem linkEvidence_ok {s s' : IngestSession} {id : Uuid} {call : FindingCall}
    (h : linkEvidence id call s = .ok () s') :
    s'.view.findings = s.view.findings ∧ (s'.turns = [] → Calm s) := by
  obtain ⟨s₁, ws, hnext, hq, rfl⟩ := statement_eq_ok.mp h
  obtain ⟨hspec, -⟩ := next_spec isolated_findings hnext
  split_ifs at hq
  obtain rfl := congrArg Prod.snd (Except.ok.inj hq)
  refine ⟨?_, fun hturns => ?_⟩
  · rw [Session.view_write]
    exact (linkEvidence_findings _ _ _ _).trans hspec.view
  · refine .of_next hnext (by decide) fun t ht => ?_
    rw [show s₁.turns = [] from hturns] at ht
    cases ht

/-- **A regression is kept** exactly when the database rolls the transaction back at none of the
statements up to the commit of the item. -/
theorem regression_kept_iff (svc : IngestServices) (moment : Moment) (call : FindingCall)
    {s s' : IngestSession} {v : Vulnerability} {id : Uuid}
    (hv : s.view.finding call.key = some v) (hfixed : v.status = .fixed)
    (hreturns : ingestFinding svc moment call s = .ok id s') (hturns : s'.turns = []) :
    RegressionKept svc call v s.view s'.commit.committed ↔
      ∀ t ∈ s.turns.take 6, t.fate ≠ .aborted := by
  unfold ingestFinding at hreturns
  obtain ⟨existing, s₁, hselect, hreturns⟩ := bind_eq_ok.mp hreturns
  obtain ⟨hnext, rfl⟩ := select_eq_ok.mp hselect
  obtain ⟨hspec, habort⟩ := next_spec isolated_findings hnext
  have hv₁ : s₁.view.finding call.key = some v := (finding_congr hspec.view call.key).trans hv
  rw [hv₁] at hreturns
  obtain ⟨⟨⟩, s₂, hredetect, hreturned⟩ := bind_eq_ok.mp hreturns
  obtain ⟨-, rfl⟩ := pure_eq_ok.mp hreturned
  unfold redetectFinding at hredetect
  rw [if_pos hfixed] at hredetect
  obtain ⟨⟨⟩, s₃, hregression, hlink⟩ := bind_eq_ok.mp hredetect
  obtain ⟨hend, hsurvives⟩ := ending_of_tryCatch hregression
  obtain ⟨hfindings, hcalm⟩ := linkEvidence_ok hlink
  have hsettles := settles_linkRegression svc moment.now call v (s := s₁) rfl
  unfold Settles at hsettles
  rw [hend] at hsettles
  have hsix : NoAbort 6 s ↔ NoAbort 5 s₁ := by
    rw [habort]
    simp
  have hreadable : ∀ e s', linkRegression svc moment.now call v s₁ = .error e s' →
      s'.expired = false := by
    intro e s' he
    rcases hsurvives with hok | hreadable
    · rw [hok] at he
      cases he
    · unfold ending at hend
      rw [he] at hend
      rw [show s' = s₃ from hend]
      exact hreadable
  refine Iff.trans ?_ hsix.symm
  rcases hsettles (hcalm hturns) hreadable with ⟨hno, hview⟩ | ⟨hno, hwritten, hcommitted⟩
  · refine iff_of_true ?_ hno
    refine .of_changes hv hfixed (hfindings.trans (hview.trans ?_))
    exact isolated_findings.actAll_writes _ hspec.view
  · refine iff_of_false ?_ hno
    obtain ⟨v₀, hv₀, hfixed₀⟩ := fixed_of_actAll hv hfixed
    refine not_regressionKept_of_fixed ?_ hfixed₀
    have hundone : s₂.view.findings = s.committed.findings := by
      refine hfindings.trans ?_
      unfold Session.view
      rw [hwritten]
      exact hcommitted.trans hspec.committed
    exact (finding_congr hundone call.key).trans hv₀

/-- Every score is read as zero, and locations are normalized already. -/
def plainServices : IngestServices where
  isDetection _ := false
  isoformat _ := ""
  tenths _ := 0
  normalizeLocation := some

def plainFinding : VulnerabilityFinding where
  fingerprint := "sqli||/login"
  title := "SQL injection"
  severity := "high"
  category := none
  description := none
  cvssVector := none
  cvssScore := none
  matchedAt := some "/login"
  metadata := []

/-- The finding, reported by scan 4. -/
def plainCall : FindingCall := ⟨1, 4, plainFinding, 5, 6, none⟩

def fixedRow : Vulnerability :=
  { plainCall.row plainServices 7 with title := "SQLi", status := .fixed, lastSeenScanId := none }

/-- The finding was fixed and its item is verified; the evidence is there. -/
def fixedDb : FindingsDb where
  items := Table.ofList [(3, {
    NewIssue.item ⟨2, 1, "template:sqli", none, 1, none⟩ with status := .verified })]
  issues := Table.ofList [((1, "template:sqli"), 3)]
  events := []
  requests := []
  acceptances := []
  members := []
  scans _ := none
  vulnerabilities := [fixedRow]
  toolRuns := []
  projects := Table.ofList [(1, ⟨2⟩)]
  evidence := [⟨6, some 5, "log_excerpt", "", ""⟩]
  history := []
  lineage := []
  vulnerabilityEvidence _ := none

def fixedSession (turns : List (Turn WorkflowChange)) : IngestSession := ⟨fixedDb, [], false, turns⟩

/-- The answers of the database while nobody else is at work. -/
def answers (fates : List Fate) : List (Turn WorkflowChange) := fates.map fun fate => ⟨[], fate⟩

def ingestFixed (fates : List Fate) : EStateM.Result Fault IngestSession Uuid :=
  ingestFinding plainServices ⟨8, 9⟩ plainCall (fixedSession (answers fates))

/-- What the caller commits, if the call returns. -/
def committedFixed (fates : List Fate) : FindingsDb :=
  (ending (ingestFinding plainServices ⟨8, 9⟩ plainCall)
    (fixedSession (answers fates))).commit.committed

/-- Every statement is carried out. -/
theorem regression_kept_iff_fixed :
    RegressionKept plainServices plainCall fixedRow fixedDb
        (committedFixed (List.replicate 8 .done)) ↔
      ∀ t ∈ (answers (List.replicate 8 .done)).take 6, t.fate ≠ .aborted :=
  regression_kept_iff plainServices ⟨8, 9⟩ plainCall
    (s := fixedSession (answers (List.replicate 8 .done))) rfl rfl
    (show ingestFixed (List.replicate 8 .done) = .ok 7 _ from rfl) rfl

/-- The compare-and-set of the item ends in a deadlock. -/
def deadlock : List Fate := [.done, .done, .done, .done, .aborted, .done]

/-- **A regression is lost**: the compare-and-set ends in a deadlock, and the call returns. -/
theorem regression_lost :
    (∃ s', ingestFixed deadlock = .ok 7 s') ∧
      fixedDb.finding plainCall.key = some fixedRow ∧ fixedRow.status = .fixed ∧
      ¬ RegressionKept plainServices plainCall fixedRow fixedDb (committedFixed deadlock) := by
  refine ⟨⟨_, rfl⟩, rfl, rfl, fun h => ?_⟩
  obtain ⟨row, hrow, hreopened, -⟩ := h.row
  have hfixed : ((committedFixed deadlock).finding plainCall.key).map (·.status) = some .fixed :=
    rfl
  rw [hrow, Option.map_some, hreopened] at hfixed
  cases hfixed

/-- A human has moved the item since it was read: the session is rolled back, and the call does not
return. -/
example : ∃ s', ingestFinding plainServices ⟨8, 9⟩ plainCall
    (fixedSession (answers [.done, .done, .done, .done] ++ [⟨[bumpChange 3 1], .done⟩])) =
      .error missingGreenlet s' :=
  ⟨_, rfl⟩

end ScanPlatform

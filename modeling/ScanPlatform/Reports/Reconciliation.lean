import ScanPlatform.Reports.MoreFindings
import ScanPlatform.Reports.Render

/-!
# The surfaces of a report agree

* `Reconciles`: the counts and the severities that the surfaces of a report show are the same;
* `Aligned`: the rows of each issue agree on its severity and on whether it is scored, as far as the
  surfaces tell them apart;
* `worstSeverity_eq_iff`, `severities_iff`: when the severity of an issue is shown as one;
* `sum_keyThemes`, `findingRecord_isScorable`, `scorableIssueCount_eq`, `lookup_activeCounts`,
  `countP_headed`: the counts of the surfaces, by the rows;
* **`reconciles_iff`**: a report reconciles exactly when its rows are aligned.
-/

set_option autoImplicit false

namespace ScanPlatform

open Grouping

section

variable {K : Type*} [Field K] [LinearOrder K]

/-- What the surfaces of a report show agrees. -/
structure Reconciles (model : ReportModel K) : Prop where
  findings : model.findings.length = model.totalIssues
  keyRisks : model.keyRisks.length = model.activeIssues
  themes : (model.themes.map WeaknessTheme.issueCount).sum = model.scorableIssues
  buckets : ∀ bucket ∈ remediationBuckets, 0 < model.bucketFindings bucket.severity →
    1 ≤ model.bucketIssues bucket.severity ∧
      model.bucketIssues bucket.severity ≤ model.bucketFindings bucket.severity
  severities : ∀ risk ∈ model.keyRisks, ∀ f ∈ model.findings ++ model.activeFindings,
    f.issueKey = risk.issueKey → f.severity = risk.severity

/-- The row is the first of the highest severity among the active rows of its issue. -/
def Heads (vulns : List (VulnRow K)) (v : VulnRow K) : Prop :=
  v ∈ (issueRows (activeRows vulns) v.issueKey).argmax VulnRow.rank

/-- No inactive row raises the severity of the issue; where none of its rows has a severity that is
known, the first row and the first active row have the same. -/
def SeverityKept (rows : List (VulnRow K)) : Prop :=
  (∃ v ∈ activeRows rows, 0 < v.rank ∧ ∀ u ∈ rows, u.rank ≤ v.rank) ∨
    (∀ u ∈ rows, u.rank = 0) ∧
      rows.head?.map (fun m => m.severity) = (activeRows rows).head?.map fun m => m.severity

/-- The issue is scored by what stands for it: the severity is that of the first row of highest
severity, and the rest is that of the active row of highest risk, its tags and its CVE left out. -/
def ScoredAsIssue (rows : List (VulnRow K)) : Prop :=
  ∃ v ∈ (activeRows rows).argmax repKey, ∃ w ∈ rows.argmax VulnRow.rank,
    lowered w.severity ≠ "info" ∧
      classify v.templateId v.cvssScore none (recoverCve [v.templateId, v.title]) ≠ .detection

/-- The issue is scored by one of its rows. -/
def ScoredByRow (rows : List (VulnRow K)) : Prop := ∃ v ∈ rows, v.isScorable

instance (rows : List (VulnRow K)) : Decidable (ScoredAsIssue rows) :=
  inferInstanceAs (Decidable (∃ v ∈ _, ∃ w ∈ _, _ ∧ _))

instance (rows : List (VulnRow K)) : Decidable (ScoredByRow rows) :=
  inferInstanceAs (Decidable (∃ v ∈ rows, v.isScorable))

/-- The keys of the issues of the rows. -/
def issueKeys (vulns : List (VulnRow K)) : List String := (vulns.map fun v => v.issueKey).dedup

/-- The issues whose active rows are headed by a severity, in whatever case it is written. -/
def headedBy (vulns : List (VulnRow K)) (severity : String) : ℕ :=
  (issueKeys (activeRows vulns)).countP fun key =>
    ∃ v ∈ (issueRows (activeRows vulns) key).argmax VulnRow.rank, lowered v.severity = severity

/-- The rows of each issue agree as far as the surfaces tell them apart. -/
structure Aligned (vulns : List (VulnRow K)) : Prop where
  severities : ∀ v ∈ activeRows vulns, SeverityKept (issueRows vulns v.issueKey)
  headed : ∀ bucket ∈ remediationBuckets,
    (∃ v ∈ activeRows vulns, v.severity = some bucket.severity) →
      ∃ v ∈ activeRows vulns, Heads vulns v ∧ lowered v.severity = bucket.severity
  spelled : ∀ bucket ∈ remediationBuckets,
    (∃ v ∈ activeRows vulns, v.severity = some bucket.severity) →
      headedBy vulns bucket.severity ≤
        (activeRows vulns).countP fun v => v.severity = some bucket.severity
  scored :
    ((issueKeys vulns).countP fun key =>
        ScoredAsIssue (issueRows vulns key) ∧ ¬ ScoredByRow (issueRows vulns key)) =
      (issueKeys vulns).countP fun key =>
        ScoredByRow (issueRows vulns key) ∧ ¬ ScoredAsIssue (issueRows vulns key)

end

/-! ## The rows of an issue -/

/-- A rank above 0 tells the severity. -/
theorem displayRank_inj {s s' : Option String} (hpos : 0 < displayRank s)
    (heq : displayRank s = displayRank s') : s = s' := by
  cases s with
  | none => exact absurd hpos (lt_irrefl 0)
  | some a =>
    cases s' with
    | none => exact absurd (heq ▸ hpos) (lt_irrefl 0)
    | some b =>
      simp only [displayRank] at hpos heq
      have ha : severityOrder.idxOf a < severityOrder.length := by omega
      have hidx : severityOrder.idxOf a = severityOrder.idxOf b := by omega
      exact congrArg some ((List.idxOf_inj (List.idxOf_lt_length_iff.mp ha)).mp hidx)

section

variable {K : Type*} {rows vulns : List (VulnRow K)} {key : String}

theorem mem_issueRows {v : VulnRow K} :
    v ∈ issueRows vulns key ↔ v ∈ vulns ∧ v.issueKey = key := by
  simp [issueRows, members]

theorem activeRows_issueRows (vulns : List (VulnRow K)) (key : String) :
    activeRows (issueRows vulns key) = issueRows (activeRows vulns) key :=
  List.filter_comm ..

theorem worstSeverity_of_mem {w : VulnRow K} (hw : w ∈ rows.argmax VulnRow.rank) :
    worstSeverity rows = w.severity := by
  rw [worstSeverity, Option.mem_def.mp hw]
  rfl

/-- **The severity of an issue is that of its active rows** exactly when it is kept. -/
theorem worstSeverity_eq_iff (hne : activeRows rows ≠ []) :
    worstSeverity rows = worstSeverity (activeRows rows) ↔ SeverityKept rows := by
  have hsub : activeRows rows ⊆ rows := List.filter_subset_self ..
  have hrows : rows ≠ [] := fun h => hne (by rw [h]; rfl)
  obtain ⟨w, hw⟩ := exists_mem_argmax VulnRow.rank hrows
  obtain ⟨a, ha⟩ := exists_mem_argmax VulnRow.rank hne
  have haw : a.rank ≤ w.rank := argmax_le hsub ha hw
  rw [worstSeverity_of_mem hw, worstSeverity_of_mem ha]
  constructor
  · intro heq
    have hrank : w.rank = a.rank := congrArg displayRank heq
    by_cases hpos : 0 < a.rank
    · exact .inl ⟨a, List.argmax_mem ha, hpos, fun u hu => hrank ▸ List.le_of_mem_argmax hu hw⟩
    · have hzero : ∀ u ∈ rows, u.rank = 0 := by
        intro u hu
        have hle : u.rank ≤ w.rank := List.le_of_mem_argmax hu hw
        omega
      have hhead := argmax_of_const hzero
      have hheadActive := argmax_of_const fun u hu => hzero u (hsub hu)
      refine .inr ⟨hzero, ?_⟩
      rw [← hhead, ← hheadActive, Option.mem_def.mp hw, Option.mem_def.mp ha]
      exact congrArg some heq
  · intro h
    rcases h with ⟨v, hv, hpos, hle⟩ | ⟨hzero, hhead⟩
    · have hva : v.rank ≤ a.rank := List.le_of_mem_argmax hv ha
      have hwv : w.rank ≤ v.rank := hle w (List.argmax_mem hw)
      have hrank : w.rank = a.rank := by omega
      exact displayRank_inj (show 0 < w.rank by omega) hrank
    · rw [← argmax_of_const hzero, ← argmax_of_const fun u hu => hzero u (hsub hu),
        Option.mem_def.mp hw, Option.mem_def.mp ha] at hhead
      exact Option.some.inj hhead

/-- The status of a row, as a record shows it, is active where the row is. -/
theorem status_active (v : VulnRow K) : v.status.getD "" ∈ activeStatuses ↔ v.isActive := by
  unfold Finding.isActive
  cases v.status with
  | none => simp [activeStatuses]
  | some s => simp

/-! ## The rows of a bucket -/

theorem countedSeverity_eq {severity : String} (hmem : severity ∈ severityOrder)
    (hinfo : severity ≠ "info") (v : VulnRow K) :
    countedSeverity v = severity ↔ v.severity = some severity := by
  unfold countedSeverity
  cases v.severity with
  | none => simp [hinfo.symm]
  | some s =>
    by_cases hs : s ∈ severityOrder
    · simp [Option.filter, hs]
    · have hne : s ≠ severity := fun h => hs (h ▸ hmem)
      simp [Option.filter, hs, hinfo.symm, hne]

/-- **A bucket counts the active rows of its severity.** -/
theorem lookup_activeCounts {bucket : Bucket} (hbucket : bucket ∈ remediationBuckets) :
    ((activeCounts vulns).lookup bucket.severity).getD 0 =
      (activeRows vulns).countP fun v => v.severity = some bucket.severity := by
  have hbuckets : ∀ b ∈ remediationBuckets, b.severity ∈ severityOrder ∧ b.severity ≠ "info" := by
    decide
  obtain ⟨hmem, hinfo⟩ := hbuckets bucket hbucket
  rw [activeCounts, List.lookup_graph _ hmem, Option.getD_some]
  refine List.countP_congr fun v _ => ?_
  simpa using countedSeverity_eq hmem hinfo v

theorem headedBy_pos {severity : String} : 1 ≤ headedBy vulns severity ↔
    ∃ v ∈ activeRows vulns, Heads vulns v ∧ lowered v.severity = severity := by
  rw [headedBy, Nat.one_le_iff_ne_zero, ← Nat.pos_iff_ne_zero, List.countP_pos_iff]
  constructor
  · rintro ⟨key, -, hkey⟩
    obtain ⟨v, hv, hsev⟩ := decide_eq_true_iff.mp hkey
    obtain ⟨hrow, rfl⟩ := mem_issueRows.mp (List.argmax_mem hv)
    exact ⟨v, hrow, hv, hsev⟩
  · rintro ⟨v, hrow, hv, hsev⟩
    have hkey : v.issueKey ∈ issueKeys (activeRows vulns) :=
      List.mem_dedup.mpr (List.mem_map_of_mem hrow)
    exact ⟨v.issueKey, hkey, decide_eq_true_iff.mpr ⟨v, hv, hsev⟩⟩

/-- No more issues are headed by a severity than rows have it, where every row has a canonical one,
as `normalizeSeverity` stores. -/
theorem headedBy_le (hcanonical : ∀ v ∈ vulns, ∃ s ∈ severities, v.severity = some s)
    (severity : String) : headedBy vulns severity ≤
      (activeRows vulns).countP fun v => v.severity = some severity := by
  have hlower : ∀ s ∈ severities, PyStr.lower s = s := by decide
  calc headedBy vulns severity
      ≤ (issueKeys (activeRows vulns)).countP fun key =>
          ∃ v ∈ issueRows (activeRows vulns) key, v.severity = some severity := by
        refine List.countP_mono_left fun key _ h => ?_
        obtain ⟨v, hv, hsev⟩ := decide_eq_true_iff.mp h
        have hrow := List.argmax_mem hv
        obtain ⟨s, hs, heq⟩ :=
          hcanonical v (List.mem_of_mem_filter (mem_issueRows.mp hrow).1)
        have hown : s = severity := by
          rw [← hlower s hs, ← hsev, heq]
          rfl
        exact decide_eq_true_iff.mpr ⟨v, hrow, hown ▸ heq⟩
    _ = _ := (length_dedup_filter _ _ fun v : VulnRow K => v.severity = some severity).symm
    _ ≤ _ := by
        rw [List.countP_eq_length_filter]
        exact (List.dedup_sublist _).length_le.trans_eq (List.length_map _)

end

section

variable {K : Type*} [Field K] [LinearOrder K] {rows vulns : List (VulnRow K)} {key : String}

/-! ## The severity of an issue -/

/-- **The surfaces show one severity of an issue** exactly when each active issue keeps its own. -/
theorem severities_iff (vulns : List (VulnRow K)) :
    (∀ risk ∈ topRiskGroups vulns, ∀ f ∈ findingGroups vulns ++ findingGroups (activeRows vulns),
      f.issueKey = risk.issueKey → f.severity = risk.severity) ↔
        ∀ v ∈ activeRows vulns, SeverityKept (issueRows vulns v.issueKey) := by
  have hkept : ∀ v ∈ activeRows vulns,
      worstSeverity (issueRows vulns v.issueKey) =
        worstSeverity (issueRows (activeRows vulns) v.issueKey) ↔
          SeverityKept (issueRows vulns v.issueKey) := by
    intro v hv
    rw [← activeRows_issueRows]
    refine worstSeverity_eq_iff (List.ne_nil_of_mem (a := v) ?_)
    rw [activeRows_issueRows]
    exact mem_issueRows.mpr ⟨hv, rfl⟩
  constructor
  · intro h v hv
    have hrisk := mem_topRiskGroups.mpr ⟨v, hv, rfl⟩
    have hfinding := mem_findingGroups.mpr ⟨v, List.mem_of_mem_filter hv, rfl⟩
    exact (hkept v hv).mp (h _ hrisk _ (List.mem_append_left _ hfinding) rfl)
  · intro h risk hrisk f hf hkey
    obtain ⟨v, hv, rfl⟩ := mem_topRiskGroups.mp hrisk
    rcases List.mem_append.mp hf with hall | hactive
    · obtain ⟨u, hu, rfl⟩ := mem_findingGroups.mp hall
      have hsame : u.issueKey = v.issueKey := hkey
      rw [hsame]
      exact (hkept v hv).mpr (h v hv)
    · obtain ⟨u, hu, rfl⟩ := mem_findingGroups.mp hactive
      have hsame : u.issueKey = v.issueKey := hkey
      rw [hsame]
      rfl

/-! ## The counts of the surfaces -/

/-- **The themes count the records that are scored**, each once. -/
theorem sum_keyThemes {model : ReportModel K}
    (hnodup : (model.findings.map FindingRecord.issueKey).Nodup) :
    ((keyThemes model).map WeaknessTheme.issueCount).sum =
      model.findings.countP fun f => f.toFinding.isScorable := by
  set scored := model.findings.filter fun f => f.toFinding.isScorable with hscored
  have hcount : ∀ name, (weaknessTheme name
      (members FindingRecord.weakness scored name)).issueCount =
        (members FindingRecord.weakness scored name).length := by
    intro name
    have hsub : (members FindingRecord.weakness scored name).Sublist model.findings :=
      List.filter_sublist.trans List.filter_sublist
    have hdistinct := hnodup.sublist (hsub.map FindingRecord.issueKey)
    show (List.dedup _).length = _
    rw [hdistinct.dedup, List.length_map]
  have hperm := (perm_sort_groupBy FindingRecord.weakness scored weaknessTheme
    fun t t' => t.sortKey ≤ t'.sortKey).map WeaknessTheme.issueCount
  rw [List.map_map] at hperm
  calc ((keyThemes model).map WeaknessTheme.issueCount).sum
      = ((firstKeys FindingRecord.weakness scored).map fun name =>
          (members FindingRecord.weakness scored name).length).sum := by
        rw [← List.map_congr_left fun name _ => hcount name]
        exact hperm.sum_eq
    _ = scored.length := sum_length_members _ _
    _ = _ := List.countP_eq_length_filter.symm

/-- **A record is scored as its issue is.** -/
theorem findingRecord_isScorable (hne : rows ≠ []) :
    (findingRecord key rows).toFinding.isScorable ↔ ScoredAsIssue rows := by
  obtain ⟨w, hw⟩ := exists_mem_argmax VulnRow.rank hne
  have hsev : (findingRecord key rows).toFinding.severity = w.severity := worstSeverity_of_mem hw
  by_cases hactive : activeRows rows = []
  · obtain ⟨v, hv⟩ := exists_mem_argmax repKey hne
    have hrep : representative rows = some v := by
      rw [representative, if_pos hactive]
      exact hv
    have hstatus : (findingRecord key rows).toFinding.status = some (v.status.getD "") := by
      simp [findingRecord, FindingRecord.toFinding, hrep]
    have hinactive : ¬ v.isActive := by
      have hall := List.filter_eq_nil_iff.mp hactive v (List.argmax_mem hv)
      simpa using hall
    refine iff_of_false (fun h => ?_) fun h => ?_
    · obtain ⟨s, hs, hmem⟩ := h.1
      rw [hstatus] at hs
      obtain rfl := Option.some.inj hs
      exact hinactive ((status_active v).mp hmem)
    · obtain ⟨u, hu, -⟩ := h
      rw [hactive] at hu
      exact absurd hu (by simp)
  · obtain ⟨v, hv⟩ := exists_mem_argmax repKey hactive
    have hrep : representative rows = some v := by
      rw [representative, if_neg hactive]
      exact hv
    have hstatus : (findingRecord key rows).toFinding.status = some (v.status.getD "") := by
      simp [findingRecord, FindingRecord.toFinding, hrep]
    have hact : v.isActive := by simpa using List.of_mem_filter (List.argmax_mem hv)
    have hclass : classifyRow (findingRecord key rows).toFinding =
        classify v.templateId v.cvssScore none (recoverCve [v.templateId, v.title]) := by
      simp [findingRecord, FindingRecord.toFinding, hrep, classifyRow, truthy]
    unfold ScoredAsIssue
    rw [Option.mem_def.mp hv, Option.mem_def.mp hw]
    simp only [Option.mem_some_iff, exists_eq_left']
    unfold Finding.isScorable
    rw [hsev, hclass]
    refine and_iff_right ⟨_, hstatus, (status_active v).mpr hact⟩

theorem length_groupIssues (log : Log K) (findings : List (Finding K)) :
    (groupIssues log findings).length =
      ((scorable findings).map Finding.issueKey).dedup.length := by
  have hperm := perm_sort_groupBy Finding.issueKey (scorable findings) (scoredIssue log)
    fun i j => i.sortKey ≤ j.sortKey
  rw [show groupIssues log findings = List.insertionSort _ _ from rfl, hperm.length_eq,
    List.length_map, (firstKeys_perm _ _).length_eq]

/-- **The scorable issues are those that a row scores.** -/
theorem scorableIssueCount_eq (log : Log K) (data : ReportData K) :
    data.scorableIssueCount log = (issueKeys data.vulns).countP fun key =>
      ScoredByRow (issueRows data.vulns key) := by
  have hscorable : (scorable (data.vulns.map VulnRow.toFinding)).map Finding.issueKey =
      (data.vulns.filter fun v => v.isScorable).map fun v => v.issueKey := by
    unfold scorable
    rw [List.filter_map, List.map_map]
    rfl
  rw [ReportData.scorableIssueCount, length_groupIssues, hscorable]
  exact length_dedup_filter _ _ fun v : VulnRow K => v.isScorable

/-- The records that are scored are the issues that are. -/
theorem countP_findingGroups (vulns : List (VulnRow K)) :
    (findingGroups vulns).countP (fun f => f.toFinding.isScorable) =
      (issueKeys vulns).countP fun key => ScoredAsIssue (issueRows vulns key) := by
  rw [(perm_findingGroups vulns).countP_eq, List.countP_map, (firstKeys_perm _ vulns).countP_eq]
  refine List.countP_congr fun key hkey => ?_
  have hne : issueRows vulns key ≠ [] := members_ne_nil.mpr (List.mem_dedup.mp hkey)
  simpa using findingRecord_isScorable hne

/-- **A bucket names the issues that its severity heads.** -/
theorem countP_headed (vulns : List (VulnRow K)) (severity : String) :
    (findingGroups (activeRows vulns)).countP (fun f => lowered f.severity = severity) =
      headedBy vulns severity := by
  rw [(perm_findingGroups _).countP_eq, List.countP_map, (firstKeys_perm _ _).countP_eq]
  refine List.countP_congr fun key hkey => ?_
  have hne : issueRows (activeRows vulns) key ≠ [] := members_ne_nil.mpr (List.mem_dedup.mp hkey)
  obtain ⟨w, hw⟩ := exists_mem_argmax VulnRow.rank hne
  have hsev : (findingRecord key (issueRows (activeRows vulns) key)).severity = w.severity :=
    worstSeverity_of_mem hw
  rw [Option.mem_def.mp hw]
  simp [hsev]

/-! ## The report -/

/-- Two counts are equal when as many are only in the one as are only in the other. -/
theorem countP_eq_iff {A : Type*} (l : List A) (p q : A → Prop) [DecidablePred p]
    [DecidablePred q] : l.countP (fun a => p a) = l.countP (fun a => q a) ↔
      l.countP (fun a => p a ∧ ¬ q a) = l.countP fun a => q a ∧ ¬ p a := by
  have hsplit : ∀ (p q : A → Prop) [DecidablePred p] [DecidablePred q],
      l.countP (fun a => p a) = l.countP (fun a => p a ∧ q a) + l.countP fun a => p a ∧ ¬ q a := by
    intro p q _ _
    induction l with
    | nil => rfl
    | cons a l ih =>
      simp only [List.countP_cons, ih]
      by_cases hp : p a <;> by_cases hq : q a <;> simp [hp, hq] <;> omega
  have hboth : l.countP (fun a => p a ∧ q a) = l.countP fun a => q a ∧ p a := by
    simp only [and_comm]
  have hp := hsplit p q
  have hq := hsplit q p
  omega

variable (log : Log K) (vulns : List (VulnRow K)) (unproven : ℕ) (frameworks : List String)

/-- **A report reconciles exactly when its rows are aligned.** -/
theorem reconciles_iff :
    Reconciles (buildReportModel log (gatherReportData vulns unproven frameworks)) ↔
      Aligned vulns := by
  set model := buildReportModel log (gatherReportData vulns unproven frameworks) with hmodel
  have hthemes : (model.themes.map WeaknessTheme.issueCount).sum =
      (issueKeys vulns).countP fun key => ScoredAsIssue (issueRows vulns key) := by
    have hnodup := (findingGroups_keys vulns).nodup_iff.mpr (List.nodup_dedup _)
    rw [← countP_findingGroups]
    exact sum_keyThemes hnodup
  have hscorable : model.scorableIssues = (issueKeys vulns).countP fun key =>
      ScoredByRow (issueRows vulns key) := scorableIssueCount_eq log _
  have hcounted : ∀ bucket ∈ remediationBuckets, model.bucketFindings bucket.severity =
      (activeRows vulns).countP fun v => v.severity = some bucket.severity :=
    fun bucket hbucket => lookup_activeCounts hbucket
  have hnamed : ∀ severity, model.bucketIssues severity = headedBy vulns severity :=
    countP_headed vulns
  have hpos : ∀ bucket : Bucket,
      (0 < (activeRows vulns).countP fun v => v.severity = some bucket.severity) ↔
        ∃ v ∈ activeRows vulns, v.severity = some bucket.severity := by
    intro bucket
    simp [List.countP_pos_iff]
  constructor
  · intro h
    refine ⟨(severities_iff vulns).mp h.severities, fun bucket hbucket hex => ?_,
      fun bucket hbucket hex => ?_, ?_⟩
    · have hn := hcounted bucket hbucket ▸ (hpos bucket).mpr hex
      exact headedBy_pos.mp (hnamed _ ▸ (h.buckets bucket hbucket hn).1)
    · have hn := hcounted bucket hbucket ▸ (hpos bucket).mpr hex
      have hle := (h.buckets bucket hbucket hn).2
      rwa [hnamed, hcounted bucket hbucket] at hle
    · rw [← countP_eq_iff, ← hthemes, ← hscorable]
      exact h.themes
  · intro h
    refine ⟨?_, ?_, ?_, fun bucket hbucket hn => ?_, (severities_iff vulns).mpr h.severities⟩
    · have hkeys := (findingGroups_keys vulns).length_eq
      rwa [List.length_map] at hkeys
    · have hkeys := (topRiskGroups_keys vulns).length_eq
      rwa [List.length_map] at hkeys
    · rw [hthemes, hscorable, countP_eq_iff]
      exact h.scored
    · rw [hcounted bucket hbucket] at hn ⊢
      rw [hnamed]
      have hex := (hpos bucket).mp hn
      exact ⟨headedBy_pos.mpr (h.headed bucket hbucket hex), h.spelled bucket hbucket hex⟩

end

/-- A row of one issue. -/
def labRow (severity status : String) : VulnRow ℚ where
  severity := some severity
  status := some status
  templateId := some "weak-cipher-suites"
  title := some "Weak cipher suites"
  matchedAt := some "https://shop.example"
  cvssScore := none
  finalRiskScore := none
  tags := none
  cve := none
  category := some "cwe-327"

/-- **A fixed row raises the severity of a finding** above that of its key risk. -/
theorem fixed_row_raises_severity :
    ¬ Reconciles (buildReportModel labLog
      (gatherReportData [labRow "critical" "fixed", labRow "medium" "open"] 0 [])) := by
  intro h
  set vulns := [labRow "critical" "fixed", labRow "medium" "open"] with hvulns
  have hopen : labRow "medium" "open" ∈ activeRows vulns :=
    List.mem_filter.mpr ⟨by simp [hvulns], by decide⟩
  have hrisk := mem_topRiskGroups.mpr ⟨_, hopen, rfl⟩
  have hfinding := mem_findingGroups.mpr ⟨_, List.mem_of_mem_filter hopen, rfl⟩
  have hsame := h.severities _ hrisk _ (List.mem_append_left _ hfinding) rfl
  have hcritical : worstSeverity (issueRows vulns (labRow "medium" "open").issueKey) =
      some "critical" := by decide +kernel
  have hmedium : worstSeverity (issueRows (activeRows vulns) (labRow "medium" "open").issueKey) =
      some "medium" := by decide +kernel
  exact absurd (hcritical.symm.trans (hsame.trans hmedium)) (by decide)

end ScanPlatform

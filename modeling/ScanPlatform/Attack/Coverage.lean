import ScanPlatform.Base.SetDict
import ScanPlatform.Base.Table
import ScanPlatform.Base.Uuid
import ScanPlatform.Nuclei.Fingerprint
import ScanPlatform.Reports.Render

/-!
# Coverage of ATT&CK techniques

The API and the report both count how many issues hit a technique: the API over the rows of
`attack_mappings`, the report over the techniques that it has collected of each finding.

* `countIssuesByTechnique`: the count of the API;
* `attackTechniques`: the count of the report;
* `holds_countIssues`, `holds_issueKeys`: the issue keys that each of them collects;
* **`attack_coverage_agrees`**: both count the distinct issues of each technique.
-/

set_option autoImplicit false

namespace ScanPlatform

open Grouping

/-- A row of `attack_mappings`. -/
structure AttackMapping where
  vulnerabilityId : Uuid
  tacticId : String
  tacticName : String
  techniqueId : String
  techniqueName : String

/-- What the API and the report read of a row of `vulnerabilities`. -/
structure ReportedVulnerability (K : Type*) where
  id : Uuid
  fingerprint : Option String
  title : Option String
  severity : Option String
  status : Option String
  category : Option String
  cvssScore : Option K

/-- A technique as the API counts it. -/
structure TechniqueKey where
  tacticId : String
  tacticName : String
  techniqueId : String
  techniqueName : String
  deriving DecidableEq

/-- A technique as the report counts it. -/
structure ReportedTechnique where
  tacticName : String
  techniqueId : String
  techniqueName : String
  deriving DecidableEq

def AttackMapping.technique (m : AttackMapping) : TechniqueKey :=
  ⟨m.tacticId, m.tacticName, m.techniqueId, m.techniqueName⟩

def TechniqueKey.reported (t : TechniqueKey) : ReportedTechnique :=
  ⟨t.tacticName, t.techniqueId, t.techniqueName⟩

section

variable {K : Type*} [Field K] [LinearOrder K]

/-- `{v.id: f(v) for v in vulns}`. -/
def byId {A : Type*} (f : ReportedVulnerability K → A) (vulns : List (ReportedVulnerability K)) :
    Table Uuid A :=
  vulns.foldl (fun t v => t.set v.id (f v)) fun _ => none

/-! ## The API -/

/-- `_FindingView`. -/
def findingView (vuln : ReportedVulnerability K) : Finding K where
  severity := vuln.severity
  status := vuln.status
  templateId := (parseFingerprint vuln.fingerprint).1
  title := vuln.title
  matchedAt := none
  cvssScore := vuln.cvssScore
  finalRiskScore := none
  tags := none
  cve := none

def scorableIssueKey (vuln : ReportedVulnerability K) : Option String :=
  if (findingView vuln).isScorable then some (findingView vuln).issueKey else none

/-- The state of the loop of `count_issues_by_technique`. -/
structure TechniqueTally where
  keysByTechnique : SetDict TechniqueKey String
  keyCache : List (Uuid × Option String)

/-- The cache with the key of a finding in it. -/
def cacheKey (vulnsById : Table Uuid (ReportedVulnerability K))
    (keyCache : List (Uuid × Option String)) (vulnId : Uuid) : List (Uuid × Option String) :=
  if (keyCache.lookup vulnId).isSome then keyCache
  else (vulnId, (vulnsById vulnId).bind scorableIssueKey) :: keyCache

/-- One mapping. -/
def TechniqueTally.step (vulnsById : Table Uuid (ReportedVulnerability K)) (s : TechniqueTally)
    (m : AttackMapping) : TechniqueTally :=
  let keyCache := cacheKey vulnsById s.keyCache m.vulnerabilityId
  match (keyCache.lookup m.vulnerabilityId).join with
  | none => ⟨s.keysByTechnique, keyCache⟩
  | some key => ⟨s.keysByTechnique.add m.technique key, keyCache⟩

def countIssuesByTechnique (mappings : List AttackMapping)
    (vulnsById : Table Uuid (ReportedVulnerability K)) : List (TechniqueKey × ℕ) :=
  (mappings.foldl (TechniqueTally.step vulnsById) ⟨[], []⟩).keysByTechnique.counts

/-! ## The report -/

/-- The row of a report; `riskByVuln` gives the final risk scores. -/
def vulnRow (riskByVuln : Uuid → Option K) (v : ReportedVulnerability K) : VulnRow K where
  severity := v.severity
  status := v.status
  templateId := (parseFingerprint v.fingerprint).1
  title := v.title
  matchedAt := (parseFingerprint v.fingerprint).2.2
  cvssScore := v.cvssScore
  finalRiskScore := riskByVuln v.id
  tags := none
  cve := none
  category := v.category

/-- `techniques_by_vuln`, of the mappings of the findings of the report. -/
def techniquesByVuln (vulnIds : List Uuid) (mappings : List AttackMapping) :
    SetDict Uuid ReportedTechnique :=
  mappings.foldl (fun d a =>
    (if vulnIds.any (· = a.vulnerabilityId) then some (a.vulnerabilityId, a.technique.reported)
      else none).elim d fun p => d.add p.1 p.2) []

/-- `issue_keys_by_technique`. -/
def issueKeysByTechnique (rowByVulnId : Table Uuid (VulnRow K))
    (techniques : SetDict Uuid ReportedTechnique) : SetDict ReportedTechnique String :=
  techniques.foldl (fun d e =>
    match (rowByVulnId e.1).filter fun row => row.isScorable with
    | none => d
    | some row => e.2.foldl (fun d technique => d.add technique row.issueKey) d) []

/-- The order of `attack_techniques`. -/
def techniqueSortKey (e : ReportedTechnique × ℕ) : ℕᵒᵈ ×ₗ String ×ₗ String :=
  toLex (.toDual e.2, toLex (e.1.tacticName, e.1.techniqueId))

/-- `attack_techniques` of `gather_report_data`. -/
def attackTechniques (riskByVuln : Uuid → Option K) (vulns : List (ReportedVulnerability K))
    (mappings : List AttackMapping) : List (ReportedTechnique × ℕ) :=
  let keys := issueKeysByTechnique (byId (vulnRow riskByVuln) vulns)
    (techniquesByVuln (vulns.map ReportedVulnerability.id) mappings)
  keys.counts.insertionSort fun e e' => techniqueSortKey e ≤ techniqueSortKey e'

/-! ## What is collected -/

/-- A mapping to the technique is one of a scorable finding with the issue key. -/
def Hits (vulns : List (ReportedVulnerability K)) (mappings : List AttackMapping)
    (t : TechniqueKey) (key : String) : Prop :=
  ∃ m ∈ mappings, m.technique = t ∧
    ∃ v ∈ vulns, v.id = m.vulnerabilityId ∧ scorableIssueKey v = some key

/-- The issue keys of a technique, one for each mapping of a scorable finding to it. -/
def issueKeysOf (vulns : List (ReportedVulnerability K)) (mappings : List AttackMapping)
    (t : TechniqueKey) : List String :=
  (mappings.filter fun m => m.technique = t).flatMap fun m =>
    (vulns.filter fun v => v.id = m.vulnerabilityId).filterMap scorableIssueKey

variable {vulns vulns' : List (ReportedVulnerability K)} {mappings mappings' : List AttackMapping}

omit [Field K] [LinearOrder K] in
/-- The row under an identifier, when identifiers are distinct. -/
theorem byId_eq_some {A : Type*} {f : ReportedVulnerability K → A}
    (hids : (vulns.map ReportedVulnerability.id).Nodup) {id : Uuid} {a : A} :
    byId f vulns id = some a ↔ ∃ v ∈ vulns, v.id = id ∧ f v = a := by
  induction vulns using List.reverseRecOn with
  | nil => simp [byId]
  | append_singleton vulns v ih =>
    rw [List.map_append, List.map_singleton, List.nodup_append] at hids
    obtain ⟨hnodup, -, hnew⟩ := hids
    have hstep : byId f (vulns ++ [v]) = (byId f vulns).set v.id (f v) := by simp [byId]
    rw [hstep, Table.set_apply]
    by_cases hid : id = v.id
    · have hold : ∀ w ∈ vulns, w.id ≠ id := fun w hw heq =>
        hnew w.id (List.mem_map_of_mem hw) v.id (List.mem_singleton_self _) (heq.trans hid)
      rw [if_pos hid]
      constructor
      · intro h
        exact ⟨v, by simp, hid.symm, Option.some.inj h⟩
      · rintro ⟨w, hw, hwid, rfl⟩
        rcases List.mem_append.mp hw with hw | hw
        · exact absurd hwid (hold w hw)
        · rw [List.mem_singleton.mp hw]
    · rw [if_neg hid, ih hnodup]
      constructor
      · rintro ⟨w, hw, h⟩
        exact ⟨w, List.mem_append_left _ hw, h⟩
      · rintro ⟨w, hw, hwid, h⟩
        rcases List.mem_append.mp hw with hw | hw
        · exact ⟨w, hw, hwid, h⟩
        · rw [List.mem_singleton.mp hw] at hwid
          exact absurd hwid.symm hid

/-- What the cache says of a finding is what `scorable_issue_key` says. -/
def Cached (vulnsById : Table Uuid (ReportedVulnerability K))
    (keyCache : List (Uuid × Option String)) : Prop :=
  ∀ id, ∀ o ∈ keyCache.lookup id, o = (vulnsById id).bind scorableIssueKey

theorem Cached.cacheKey {vulnsById : Table Uuid (ReportedVulnerability K)}
    {keyCache : List (Uuid × Option String)} (h : Cached vulnsById keyCache) (vulnId : Uuid) :
    Cached vulnsById (cacheKey vulnsById keyCache vulnId) ∧
      (ScanPlatform.cacheKey vulnsById keyCache vulnId).lookup vulnId =
        some ((vulnsById vulnId).bind scorableIssueKey) := by
  unfold ScanPlatform.cacheKey
  split_ifs with hsome
  · obtain ⟨o, ho⟩ := Option.isSome_iff_exists.mp hsome
    exact ⟨h, by rw [ho, h vulnId o ho]⟩
  · refine ⟨fun id o ho => ?_, List.lookup_cons_self⟩
    rw [Option.mem_def, List.lookup_cons] at ho
    split at ho
    · next heq => rw [← Option.some.inj ho, beq_iff_eq.mp heq]
    · exact h id o ho

/-- The cache changes nothing. -/
theorem countIssues_fold {vulnsById : Table Uuid (ReportedVulnerability K)}
    (mappings : List AttackMapping) {s : TechniqueTally} (hs : Cached vulnsById s.keyCache) :
    (mappings.foldl (TechniqueTally.step vulnsById) s).keysByTechnique =
      mappings.foldl (fun d m =>
        (((vulnsById m.vulnerabilityId).bind scorableIssueKey).map fun key =>
          (m.technique, key)).elim d fun p => d.add p.1 p.2) s.keysByTechnique := by
  induction mappings generalizing s with
  | nil => rfl
  | cons m mappings ih =>
    obtain ⟨hcached, hlookup⟩ := hs.cacheKey m.vulnerabilityId
    rw [List.foldl_cons, List.foldl_cons]
    cases hkey : (vulnsById m.vulnerabilityId).bind scorableIssueKey with
    | none =>
      have hstep : TechniqueTally.step vulnsById s m =
          ⟨s.keysByTechnique, cacheKey vulnsById s.keyCache m.vulnerabilityId⟩ := by
        simp only [TechniqueTally.step, hlookup, hkey, Option.join_some]
      rw [hstep, ih hcached]
      rfl
    | some key =>
      have hstep : TechniqueTally.step vulnsById s m =
          ⟨s.keysByTechnique.add m.technique key,
            cacheKey vulnsById s.keyCache m.vulnerabilityId⟩ := by
        simp only [TechniqueTally.step, hlookup, hkey, Option.join_some]
      rw [hstep, ih hcached]
      rfl

variable (mappings) in
/-- **What the API collects.** -/
theorem holds_countIssues (hids : (vulns.map ReportedVulnerability.id).Nodup) :
    (mappings.foldl (TechniqueTally.step (byId id vulns)) ⟨[], []⟩).keysByTechnique.Holds
      (Hits vulns mappings) := by
  have hempty : Cached (byId id vulns) [] := fun _ _ ho => nomatch ho
  rw [countIssues_fold mappings hempty]
  refine (SetDict.holds_foldl _ mappings SetDict.holds_nil).congr fun t key => ?_
  simp only [false_or, Option.map_eq_some_iff, Option.bind_eq_some_iff, Prod.mk.injEq,
    byId_eq_some hids, id_eq]
  constructor
  · rintro ⟨m, hm, key', ⟨v, ⟨w, hw, hid, rfl⟩, hkey⟩, rfl, rfl⟩
    exact ⟨m, hm, rfl, w, hw, hid, hkey⟩
  · rintro ⟨m, hm, rfl, v, hv, hid, hkey⟩
    exact ⟨m, hm, key, ⟨v, ⟨v, hv, hid, rfl⟩, hkey⟩, rfl, rfl⟩

/-- The techniques of each finding of the report. -/
theorem holds_techniquesByVuln (vulnIds : List Uuid) (mappings : List AttackMapping) :
    (techniquesByVuln vulnIds mappings).Holds fun id t =>
      id ∈ vulnIds ∧ ∃ m ∈ mappings, m.vulnerabilityId = id ∧ m.technique.reported = t := by
  refine (SetDict.holds_foldl _ mappings SetDict.holds_nil).congr fun id t => ?_
  simp only [false_or, Option.ite_none_right_eq_some, Option.some.injEq, Prod.mk.injEq,
    List.any_eq_true, decide_eq_true_eq, exists_eq_right]
  constructor
  · rintro ⟨m, hm, hmem, rfl, rfl⟩
    exact ⟨hmem, m, hm, rfl, rfl⟩
  · rintro ⟨hmem, m, hm, rfl, rfl⟩
    exact ⟨m, hm, hmem, rfl, rfl⟩

/-- The keys that the report collects of the techniques of the findings. -/
theorem holds_issueKeysByTechnique {rowByVulnId : Table Uuid (VulnRow K)}
    {techniques : SetDict Uuid ReportedTechnique} {R : Uuid → ReportedTechnique → Prop}
    (h : techniques.Holds R) :
    (issueKeysByTechnique rowByVulnId techniques).Holds fun t key =>
      ∃ id, R id t ∧ ∃ row ∈ rowByVulnId id, row.isScorable ∧ row.issueKey = key := by
  -- over any part of the dictionary
  have hfold : ∀ (l : SetDict Uuid ReportedTechnique) (d : SetDict ReportedTechnique String)
      (D : ReportedTechnique → String → Prop), d.Holds D →
      (l.foldl (fun d e => match (rowByVulnId e.1).filter fun row => row.isScorable with
        | none => d
        | some row => e.2.foldl (fun d technique => d.add technique row.issueKey) d) d).Holds
        fun t key => D t key ∨
          ∃ e ∈ l, t ∈ e.2 ∧ ∃ row ∈ rowByVulnId e.1, row.isScorable ∧ row.issueKey = key := by
    intro l
    induction l with
    | nil => exact fun d D hd => hd.congr fun t key => by simp
    | cons e l ih =>
      intro d D hd
      rw [List.foldl_cons]
      cases hrow : (rowByVulnId e.1).filter fun row => row.isScorable with
      | none =>
        have hnone : ∀ row ∈ rowByVulnId e.1, ¬ row.isScorable := by
          simpa [Option.filter_eq_none_iff] using hrow
        refine (ih d D hd).congr fun t key => or_congr_right ?_
        rw [List.exists_mem_cons_iff]
        refine (or_iff_right ?_).symm
        rintro ⟨-, row, hmem, hscorable, -⟩
        exact hnone row hmem hscorable
      | some row =>
        obtain ⟨hmem, hscorable⟩ : rowByVulnId e.1 = some row ∧ row.isScorable := by
          simpa [Option.filter_eq_some_iff] using hrow
        have hadd := SetDict.holds_foldl (fun t => some (t, row.issueKey)) e.2 hd
        refine (ih _ _ hadd).congr fun t key => ?_
        rw [or_assoc, List.exists_mem_cons_iff]
        refine or_congr_right (or_congr_left ?_)
        simp only [Option.some.injEq, Prod.mk.injEq, hmem, Option.mem_some_iff, exists_eq_left']
        constructor
        · rintro ⟨t', ht', rfl, rfl⟩
          exact ⟨ht', hscorable, rfl⟩
        · rintro ⟨ht, -, rfl⟩
          exact ⟨t, ht, rfl, rfl⟩
  refine (hfold techniques [] _ SetDict.holds_nil).congr fun t key => ?_
  rw [false_or]
  constructor
  · rintro ⟨e, he, ht, hrow⟩
    exact ⟨e.1, (h.sound e he t).mp ht, hrow⟩
  · rintro ⟨id, hR, hrow⟩
    obtain ⟨e, he, rfl⟩ := List.mem_map.mp (h.complete id t hR)
    exact ⟨e, he, (h.sound e he t).mpr hR, hrow⟩

variable (mappings) in
/-- **What the report collects** is what the API does, without the identifiers of the tactics. -/
theorem holds_issueKeys (riskByVuln : Uuid → Option K)
    (hids : (vulns.map ReportedVulnerability.id).Nodup) :
    (issueKeysByTechnique (byId (vulnRow riskByVuln) vulns)
      (techniquesByVuln (vulns.map ReportedVulnerability.id) mappings)).Holds fun t key =>
        ∃ t', t'.reported = t ∧ Hits vulns mappings t' key := by
  refine (holds_issueKeysByTechnique (holds_techniquesByVuln _ _)).congr fun t key => ?_
  simp only [Option.mem_def, byId_eq_some hids]
  constructor
  · rintro ⟨_, ⟨-, m, hm, rfl, rfl⟩, row, ⟨v, hv, hid, rfl⟩, hscorable, rfl⟩
    -- the row and the view of a finding are scorable together, and have one key
    exact ⟨m.technique, rfl, m, hm, rfl, v, hv, hid, if_pos hscorable⟩
  · rintro ⟨_, rfl, m, hm, rfl, v, hv, hid, hkey⟩
    obtain ⟨hscorable, hkey⟩ := Option.ite_none_right_eq_some.mp hkey
    refine ⟨v.id, ⟨List.mem_map_of_mem hv, m, hm, hid.symm, rfl⟩, _, ⟨v, hv, rfl, rfl⟩, ?_⟩
    exact ⟨hscorable, Option.some.inj hkey⟩

/-! ## The counts -/

theorem Hits.perm (hv : vulns'.Perm vulns) (hm : mappings'.Perm mappings) (t : TechniqueKey)
    (key : String) : Hits vulns' mappings' t key ↔ Hits vulns mappings t key := by
  unfold Hits
  simp only [hv.mem_iff, hm.mem_iff]

theorem mem_issueKeysOf {t : TechniqueKey} {key : String} :
    key ∈ issueKeysOf vulns mappings t ↔ Hits vulns mappings t key := by
  simp only [issueKeysOf, Hits, List.mem_flatMap, List.mem_filterMap, List.mem_filter,
    decide_eq_true_eq, and_assoc]

/-- **The API and the report agree**: for a mapping table in which the identifier and the name of a
tactic determine each other, whatever the order of the rows, each technique has one count in both,
the number of its distinct issues. -/
theorem attack_coverage_agrees (riskByVuln : Uuid → Option K)
    (hids : (vulns.map ReportedVulnerability.id).Nodup)
    (htactics : ∀ m ∈ mappings, ∀ m' ∈ mappings,
      m.tacticId = m'.tacticId ↔ m.tacticName = m'.tacticName)
    (hv : vulns'.Perm vulns) (hm : mappings'.Perm mappings) :
    ((countIssuesByTechnique mappings (byId id vulns)).map fun e => (e.1.reported, e.2)).Perm
        (attackTechniques riskByVuln vulns' mappings') ∧
      ∀ t n, (t, n) ∈ countIssuesByTechnique mappings (byId id vulns) →
        n = (issueKeysOf vulns mappings t).dedup.length := by
  have hapi := holds_countIssues mappings hids
  have hids' : (vulns'.map ReportedVulnerability.id).Nodup :=
    ((hv.map ReportedVulnerability.id).nodup_iff).mpr hids
  have hreport := holds_issueKeys mappings' riskByVuln hids'
  -- techniques of the table that the report does not tell apart are the same
  have hinj : ∀ t ∈ ((mappings.foldl (TechniqueTally.step (byId id vulns))
      ⟨[], []⟩).keysByTechnique.map Prod.fst), ∃ m ∈ mappings, m.technique = t := by
    intro t ht
    obtain ⟨e, he, rfl⟩ := List.mem_map.mp ht
    obtain ⟨key, hkey⟩ := List.exists_mem_of_ne_nil _ (hapi.nonempty e he)
    obtain ⟨m, hmem, htechnique, -⟩ := (hapi.sound e he key).mp hkey
    exact ⟨m, hmem, htechnique⟩
  constructor
  · refine (hapi.counts_perm hreport TechniqueKey.reported ?_ fun t key => ?_).trans
      (List.perm_insertionSort _ _).symm
    · intro t ht t' ht' heq
      obtain ⟨m, hmem, rfl⟩ := hinj t ht
      obtain ⟨m', hmem', rfl⟩ := hinj t' ht'
      obtain ⟨hname, hid, htechnique⟩ := ReportedTechnique.mk.inj heq
      have htactic := (htactics m hmem m' hmem').mpr hname
      simp only [AttackMapping.technique, TechniqueKey.mk.injEq]
      exact ⟨htactic, hname, hid, htechnique⟩
    · exact exists_congr fun t' => and_congr_right fun _ => Hits.perm hv hm t' key
  · intro t n hn
    exact hapi.count_eq hn _ fun key => mem_issueKeysOf

end

/-- A finding of a template at a location. -/
def mappedFinding (id : Uuid) (fingerprint : String) : ReportedVulnerability ℚ :=
  ⟨id, some fingerprint, some "Command injection", some "high", some "open", some "cwe-78", none⟩

/-- One issue at two locations, and a finding that is mapped to two techniques. -/
theorem attack_coverage_agrees_lab :
    let vulns := [mappedFinding 1 "rce||https://h/a", mappedFinding 2 "rce||https://h/b",
      mappedFinding 3 "sqli||https://h/c"]
    let mappings := [⟨1, "TA0001", "Initial Access", "T1190", "Exploit Public-Facing Application"⟩,
      ⟨2, "TA0001", "Initial Access", "T1190", "Exploit Public-Facing Application"⟩,
      ⟨3, "TA0001", "Initial Access", "T1190", "Exploit Public-Facing Application"⟩,
      ⟨3, "TA0006", "Credential Access", "T1212", "Exploitation for Credential Access"⟩]
    ((countIssuesByTechnique mappings (byId id vulns)).map fun e => (e.1.reported, e.2)).Perm
        (attackTechniques (fun _ => none) vulns.reverse mappings.reverse) ∧
      ∀ t n, (t, n) ∈ countIssuesByTechnique mappings (byId id vulns) →
        n = (issueKeysOf vulns mappings t).dedup.length :=
  attack_coverage_agrees _ (by decide) (by decide) (List.reverse_perm _) (List.reverse_perm _)

end ScanPlatform

import Mathlib.Algebra.GroupWithZero.Nat
import ScanPlatform.Attack.Catalog
import ScanPlatform.Base.CondMachine
import ScanPlatform.Base.Rows
import ScanPlatform.Vulnerabilities.Ingest

/-!
# The mappings of a finding

With every finding the controls and the techniques that the catalogs give for it are stored beside
its row. They are only ever inserted, and an insertion that finds its row gives it a new identifier.

* `cweControlMap`, `controlsForCategory`: the catalog of controls;
* `MappingSignals`, `signals`, `attackRows`: what the catalog of techniques reads of a finding, and
  the rows that it gives;
* `Mappings`, `syncMappings`, `syncAttackMappings`, `ingestMapped`: one row with its mappings, and a
  finding that is ingested;
* `Mappings.Follows`, `Mappings.Exact`, `Mappings.Stable`, **`classification_follows_iff`**: when
  the mappings are those of the latest finding and keep their identifiers; `reclassified_finding`
  has another weakness the next time.
-/

set_option autoImplicit false

namespace ScanPlatform

/-! ## Controls -/

/-- A control of a framework. -/
structure Control where
  framework : String
  controlId : String
  description : String
  deriving DecidableEq

/-- A row of `compliance_mappings` is unique under it. -/
def Control.key (c : Control) : String × String := (c.framework, c.controlId)

def isoSecureCoding : Control := ⟨"iso27001", "A.8.28", "Secure coding"⟩

def isoCrypto : Control := ⟨"iso27001", "A.8.24", "Use of cryptography"⟩

def isoAuth : Control := ⟨"iso27001", "A.8.5", "Secure authentication"⟩

def isoAccess : Control := ⟨"iso27001", "A.8.3", "Information access restriction"⟩

def isoConfig : Control := ⟨"iso27001", "A.8.9", "Configuration management"⟩

def isoTransfer : Control := ⟨"iso27001", "A.5.14", "Information transfer"⟩

def pciSecureSoftware : Control :=
  ⟨"pci_dss", "6.2.4", "Software engineered to prevent common attacks"⟩

def pciCryptoTransit : Control :=
  ⟨"pci_dss", "4.2.1", "Strong cryptography for data in transit"⟩

/-- `CWE_CONTROL_MAP`. -/
def cweControlMap : List (String × List Control) := [
  ("cwe-79", [⟨"owasp", "A03:2021", "Injection"⟩,
    ⟨"nist", "SI-10", "Information Input Validation"⟩, isoSecureCoding,
    ⟨"pci_dss", "6.5.7", "Cross-site scripting (XSS)"⟩]),
  ("cwe-89", [⟨"owasp", "A03:2021", "Injection"⟩,
    ⟨"nist", "SI-10", "Information Input Validation"⟩, isoSecureCoding,
    ⟨"pci_dss", "6.5.1", "Injection flaws, particularly SQL injection"⟩]),
  ("cwe-94", [⟨"owasp", "A03:2021", "Injection"⟩,
    ⟨"nist", "SI-10", "Information Input Validation"⟩, isoSecureCoding, pciSecureSoftware]),
  ("cwe-22", [⟨"owasp", "A01:2021", "Broken Access Control"⟩,
    ⟨"nist", "AC-3", "Access Enforcement"⟩, isoAccess, pciSecureSoftware]),
  ("cwe-200", [⟨"owasp", "A01:2021", "Broken Access Control"⟩,
    ⟨"nist", "AC-3", "Access Enforcement"⟩, isoAccess,
    ⟨"pci_dss", "3.3.1", "Sensitive data protection and masking"⟩]),
  ("cwe-287", [⟨"owasp", "A07:2021", "Identification and Authentication Failures"⟩,
    ⟨"nist", "IA-2", "Identification and Authentication"⟩, isoAuth,
    ⟨"pci_dss", "8.2", "User authentication management"⟩]),
  ("cwe-306", [⟨"owasp", "A07:2021", "Identification and Authentication Failures"⟩,
    ⟨"nist", "IA-2", "Identification and Authentication"⟩, isoAuth,
    ⟨"pci_dss", "8.3", "Strong authentication for access"⟩]),
  ("cwe-352", [⟨"owasp", "A01:2021", "Broken Access Control"⟩,
    ⟨"nist", "SC-8", "Transmission Confidentiality and Integrity"⟩, isoSecureCoding,
    ⟨"pci_dss", "6.5.9", "Cross-site request forgery (CSRF)"⟩]),
  ("cwe-611", [⟨"owasp", "A05:2021", "Security Misconfiguration"⟩,
    ⟨"nist", "SI-10", "Information Input Validation"⟩, isoSecureCoding, pciSecureSoftware]),
  ("cwe-918", [⟨"owasp", "A10:2021", "Server-Side Request Forgery (SSRF)"⟩,
    ⟨"nist", "SC-7", "Boundary Protection"⟩, isoSecureCoding, pciSecureSoftware]),
  ("cwe-693", [⟨"owasp", "A05:2021", "Security Misconfiguration"⟩,
    ⟨"nist", "SC-8", "Transmission Confidentiality and Integrity"⟩, isoConfig,
    ⟨"cis", "16.11",
      "Leverage vetted modules/services for application security components"⟩,
    ⟨"pci_dss", "6.4.1", "Public-facing web application protections"⟩]),
  ("cwe-16", [⟨"owasp", "A05:2021", "Security Misconfiguration"⟩,
    ⟨"nist", "CM-6", "Configuration Settings"⟩, isoConfig,
    ⟨"pci_dss", "2.2", "Secure configuration standards for system components"⟩]),
  ("cwe-1021", [⟨"owasp", "A05:2021", "Security Misconfiguration"⟩,
    ⟨"nist", "SC-18", "Mobile Code"⟩, isoConfig]),
  ("cwe-522", [⟨"owasp", "A07:2021", "Identification and Authentication Failures"⟩,
    ⟨"nist", "IA-5", "Authenticator Management"⟩, isoCrypto,
    ⟨"pci_dss", "8.2.1", "Strong cryptography for credentials"⟩]),
  ("cwe-311", [⟨"owasp", "A02:2021", "Cryptographic Failures"⟩,
    ⟨"nist", "SC-28", "Protection of Information at Rest"⟩, isoCrypto,
    ⟨"pci_dss", "3.5.1", "Render stored account data unreadable"⟩]),
  ("cwe-319", [⟨"owasp", "A02:2021", "Cryptographic Failures"⟩,
    ⟨"nist", "SC-8", "Transmission Confidentiality and Integrity"⟩, isoTransfer,
    pciCryptoTransit]),
  ("cwe-327", [⟨"owasp", "A02:2021", "Cryptographic Failures"⟩,
    ⟨"nist", "SC-13", "Cryptographic Protection"⟩, isoCrypto, pciCryptoTransit]),
  ("cwe-548", [⟨"owasp", "A05:2021", "Security Misconfiguration"⟩,
    ⟨"nist", "CM-6", "Configuration Settings"⟩, isoConfig,
    ⟨"pci_dss", "2.2", "Secure configuration standards for system components"⟩]),
  ("cwe-538", [⟨"owasp", "A01:2021", "Broken Access Control"⟩,
    ⟨"nist", "AC-3", "Access Enforcement"⟩, isoAccess,
    ⟨"pci_dss", "3.3.1", "Sensitive data protection and masking"⟩])]

/-- `controls_for_category`. -/
def controlsForCategory (category : Option String) : List Control :=
  ((truthy category).bind fun c =>
    cweControlMap.lookup (PyStr.lower (PyStr.strip c))).getD []

/-- The catalog gives every control once. -/
theorem controls_nodup (category : Option String) :
    ((controlsForCategory category).map Control.key).Nodup := by
  have hall : ∀ entry ∈ cweControlMap, (entry.2.map Control.key).Nodup := by decide
  unfold controlsForCategory
  cases hfound : (truthy category).bind fun c =>
      cweControlMap.lookup (PyStr.lower (PyStr.strip c)) with
  | none => exact List.nodup_nil
  | some controls =>
    obtain ⟨c, -, hlookup⟩ := Option.bind_eq_some_iff.mp hfound
    obtain ⟨before, after, hsplit, -⟩ := List.lookup_eq_some_iff.mp hlookup
    exact hall (_, controls) (hsplit ▸ List.mem_append_right before List.mem_cons_self)

/-! ## Techniques -/

/-- Everything that the ingestion of a finding with its mappings takes from outside: also `str()` of
a JSON value that is no text. -/
structure MappingServices extends IngestServices where
  str : Json.Value → String

/-- What `techniques_for` reads of the metadata. -/
structure MappingSignals where
  tags : Option Tags
  templateId : Option String
  cve : Option String

def MappingServices.tagText (svc : MappingServices) : Json.Value → String
  | .str s => s
  | v => svc.str v

/-- The tags; a number and `True` cannot be iterated over. -/
def readTags (svc : MappingServices) (v : Json.Value) : Option (Option Tags) :=
  if v.truthy then
    match v with
    | .str s => some (some (.text s))
    | v => v.items.map fun items => some (.items (items.map svc.tagText))
  else some none

/-- Of the CVE it counts whether there is one, and whether it says something. -/
def readCve : Json.Value → Option String
  | .null => none
  | .str s => some s
  | v => if v.truthy then some "CVE" else some ""

/-- What the metadata says; `none` when `techniques_for` raises. A template that is no text is asked
for its prefix unless the CVE or the tags have settled what the finding is. -/
def signals (svc : MappingServices) (metadata : Json.Object) : Option MappingSignals :=
  (readTags svc ((metadata.get "tags").getD .null)).bind fun tags =>
    let cve := readCve ((metadata.get "cve").getD .null)
    match (metadata.get "template_id").getD .null with
    | .null => some ⟨tags, none, cve⟩
    | .str s => some ⟨tags, some s, cve⟩
    | v =>
      if ¬ v.truthy ∨ (truthy cve).isSome ∨ (normTags tags).any (· ∈ exploitTags) then
        some ⟨tags, some "", cve⟩
      else none

/-- What a row of `attack_mappings` says, beside its vulnerability. -/
structure AttackRow where
  tacticId : String
  tacticName : String
  techniqueId : String
  techniqueName : String
  killChainPhase : String
  deriving DecidableEq

def Technique.row (t : Technique) : AttackRow where
  tacticId := t.tacticId
  tacticName := tacticName t.tacticId
  techniqueId := t.techniqueId
  techniqueName := t.techniqueName
  killChainPhase := t.killChainPhase

/-- The rows that `sync_attack_mappings` inserts. -/
def attackRows (category : Option String) (m : MappingSignals) : List AttackRow :=
  (techniquesFor category m.tags m.templateId (none : Option ℕ) m.cve).map Technique.row

theorem addTechniques_nodup {out : List Technique} (h : (out.map (·.techniqueId)).Nodup)
    (entries : List Technique) : ((addTechniques out entries).map (·.techniqueId)).Nodup :=
  Rows.nodup_foldl_addNew h entries

/-- The catalog gives every technique once. -/
theorem attackRows_nodup (category : Option String) (m : MappingSignals) :
    ((attackRows category m).map AttackRow.techniqueId).Nodup := by
  have hids : (attackRows category m).map AttackRow.techniqueId =
      (techniquesFor category m.tags m.templateId (none : Option ℕ) m.cve).map
        (·.techniqueId) := List.map_map
  rw [hids]
  unfold techniquesFor
  split_ifs
  · exact List.nodup_nil
  · have hempty : (([] : List Technique).map (·.techniqueId)).Nodup := List.nodup_nil
    exact Rows.foldl_keeps _ (fun out : List Technique => (out.map (·.techniqueId)).Nodup)
      (fun out tag h => addTechniques_nodup h _) _ (addTechniques_nodup hempty _)

/-! ## Ingestion -/

/-- A vulnerability with its mappings. The rows of the mappings have the numbers of the identifiers
that they have got, of which `drawn` have been drawn; `last` is the latest finding. -/
structure Mappings where
  vulnerability : Option Vulnerability
  compliance : List (ℕ × Control)
  attack : List (ℕ × AttackRow)
  drawn : ℕ
  last : Option FindingCall

def Mappings.empty : Mappings := ⟨none, [], [], 0, none⟩

/-- `sync_mappings`. -/
def syncMappings (category : Option String) (s : Mappings) : Mappings :=
  let controls := controlsForCategory category
  { s with
    compliance := Rows.upsertAll Control.key s.compliance s.drawn controls
    drawn := s.drawn + controls.length }

/-- `sync_attack_mappings`. -/
def syncAttackMappings (category : Option String) (m : MappingSignals) (s : Mappings) :
    Mappings :=
  let rows := attackRows category m
  { s with
    attack := Rows.upsertAll AttackRow.techniqueId s.attack s.drawn rows
    drawn := s.drawn + rows.length }

/-- The row after `ingest_finding`. -/
def Mappings.ingested (svc : MappingServices) (id : Uuid) (call : FindingCall) (s : Mappings) :
    Vulnerability :=
  match s.vulnerability with
  | none => call.row svc.toIngestServices id
  | some v => call.redetect svc.toIngestServices v

/-- One turn of `ingest_vulnerability_findings`. -/
def Mappings.ingest (svc : MappingServices) (id : Uuid) (call : FindingCall) (m : MappingSignals)
    (s : Mappings) : Mappings :=
  let v := s.ingested svc id call
  syncAttackMappings v.category m
    (syncMappings v.category { s with vulnerability := some v, last := some call })

/-- The turn for the vulnerability of this key; `none` when the finding is of another one, and when
it raises. -/
def ingestMapped (svc : MappingServices) (key : Uuid × String) (id : Uuid) (call : FindingCall)
    (s : Mappings) : Option Mappings :=
  if call.key = key then
    (signals svc call.finding.metadata).map fun m => s.ingest svc id call m
  else none

/-! ## What the mappings are to say -/

/-- The canonical weakness of a finding. -/
def FindingCall.weakness (call : FindingCall) : Option String :=
  canonicalCwe call.finding.category

/-- The row has the weakness of the finding, and the mappings are what the catalogs give. -/
structure Mappings.Follows (svc : MappingServices) (call : FindingCall) (s : Mappings) : Prop where
  category : s.vulnerability.map (·.category) = some call.weakness
  compliance : (s.compliance.map Prod.snd).Perm (controlsForCategory call.weakness)
  attack : ∀ m, signals svc call.finding.metadata = some m →
    (s.attack.map Prod.snd).Perm (attackRows call.weakness m)

/-- Every mapping is still there, under its identifier. -/
structure Mappings.KeptBy (s s' : Mappings) : Prop where
  compliance : ∀ r ∈ s.compliance, r ∈ s'.compliance
  attack : ∀ r ∈ s.attack, r ∈ s'.attack

/-- The finding says of its weakness and in its metadata what the one before has said. -/
def Unchanged (previous call : FindingCall) : Prop :=
  previous.finding.category = call.finding.category ∧
    previous.finding.metadata = call.finding.metadata

variable (svc : MappingServices) (key : Uuid × String) (id : Uuid)

/-- The mappings follow the finding, and one that says what the one before has said keeps them. -/
def Mappings.Exact (s : Mappings) (call : FindingCall) : Prop :=
  ∀ s', ingestMapped svc key id call s = some s' → s'.Follows svc call ∧
    ∀ previous, s.last = some previous → Unchanged previous call → s.KeptBy s'

/-- The weakness is that of the row, no technique is mapped that the catalog does not give for the
finding, and if it says what the one before has said the catalogs give nothing. -/
def Mappings.Stable (s : Mappings) (call : FindingCall) : Prop :=
  call.key = key → ∀ m, signals svc call.finding.metadata = some m →
    (∀ v, s.vulnerability = some v → v.category = call.weakness) ∧
    (∀ r ∈ s.attack, r.2 ∈ attackRows call.weakness m) ∧
    (∀ previous, s.last = some previous → Unchanged previous call →
      controlsForCategory call.weakness = [] ∧ attackRows call.weakness m = [])

/-! ## What every finding keeps -/

/-- The controls are those of the row, identifiers are younger than those to be drawn, and the
techniques of the latest finding are mapped. -/
structure Mappings.Sound (s : Mappings) : Prop where
  fresh : s.vulnerability = none → s.compliance = [] ∧ s.attack = [] ∧ s.last = none
  controls : ∀ v, s.vulnerability = some v →
    (s.compliance.map Prod.snd).Perm (controlsForCategory v.category)
  techniques : ((s.attack.map Prod.snd).map AttackRow.techniqueId).Nodup
  drawn : (∀ r ∈ s.compliance, r.1 < s.drawn) ∧ ∀ r ∈ s.attack, r.1 < s.drawn
  latest : ∀ v previous m, s.vulnerability = some v → s.last = some previous →
    signals svc previous.finding.metadata = some m → ∀ t ∈ attackRows v.category m,
      ∃ r ∈ s.attack, r.2.techniqueId = t.techniqueId

variable {svc key id} {s s' : Mappings} {call : FindingCall}

theorem ingestMapped_eq_some : ingestMapped svc key id call s = some s' ↔
    call.key = key ∧ ∃ m, signals svc call.finding.metadata = some m ∧
      s.ingest svc id call m = s' := by
  unfold ingestMapped
  rw [Option.ite_none_right_eq_some, Option.map_eq_some_iff]

theorem ingested_none (h : s.vulnerability = none) :
    (s.ingested svc id call).category = call.weakness := by
  simp only [Mappings.ingested, h, FindingCall.row, FindingCall.weakness]

/-- A row that is detected again keeps its weakness. -/
theorem ingested_some {v : Vulnerability} (h : s.vulnerability = some v) :
    (s.ingested svc id call).category = v.category := by
  simp only [Mappings.ingested, h, FindingCall.redetect]

/-- The controls of the row are among those of the finding's row. -/
theorem controls_sub (hs : s.Sound svc) :
    ∀ c ∈ s.compliance.map Prod.snd,
      c ∈ controlsForCategory (s.ingested svc id call).category := by
  intro c hc
  cases hv : s.vulnerability with
  | none =>
    rw [(hs.fresh hv).1] at hc
    cases hc
  | some v =>
    rw [ingested_some hv]
    exact (hs.controls v hv).mem_iff.mp hc

theorem compliance_nodup (hs : s.Sound svc) :
    ((s.compliance.map Prod.snd).map Control.key).Nodup := by
  cases hv : s.vulnerability with
  | none =>
    rw [(hs.fresh hv).1]
    exact List.nodup_nil
  | some v =>
    have hperm := (hs.controls v hv).map Control.key
    exact hperm.nodup_iff.mpr (controls_nodup v.category)

/-- The controls after a finding are those of its row. -/
theorem controls_after (hs : s.Sound svc) (id' : ℕ) :
    ((Rows.upsertAll Control.key s.compliance id'
      (controlsForCategory (s.ingested svc id call).category)).map Prod.snd).Perm
        (controlsForCategory (s.ingested svc id call).category) := by
  rw [Rows.map_upsertAll]
  exact (Rows.foldl_addNew_perm_iff (compliance_nodup hs) (controls_nodup _)).mpr (controls_sub hs)

/-- **What every finding keeps.** -/
theorem mappings_sound (hs : s.Sound svc) (h : ingestMapped svc key id call s = some s') :
    s'.Sound svc := by
  obtain ⟨-, m, hm, rfl⟩ := ingestMapped_eq_some.mp h
  have hdrawn : ∀ r ∈ s.attack, r.1 <
      s.drawn + (controlsForCategory (s.ingested svc id call).category).length :=
    fun r hr => Nat.lt_of_lt_of_le (hs.drawn.2 r hr) (Nat.le_add_right _ _)
  constructor
  · intro hv
    cases hv
  · rintro v hv
    obtain rfl := Option.some.inj hv
    exact controls_after hs s.drawn
  · unfold Mappings.ingest syncAttackMappings
    dsimp only
    rw [Rows.map_upsertAll]
    exact Rows.nodup_foldl_addNew hs.techniques _
  · constructor
    · intro r hr
      exact Nat.lt_of_lt_of_le (Rows.upsertAll_lt hs.drawn.1 hr) (Nat.le_add_right _ _)
    · intro r hr
      exact Rows.upsertAll_lt hdrawn hr
  · rintro v previous m' hv hlast hm' t ht
    obtain rfl := Option.some.inj hv
    obtain rfl := Option.some.inj hlast
    obtain rfl := Option.some.inj (hm.symm.trans hm')
    exact Rows.exists_upsertAll ht

theorem Mappings.sound_empty : Mappings.empty.Sound svc where
  fresh _ := ⟨rfl, rfl, rfl⟩
  controls _ hv := by cases hv
  techniques := List.nodup_nil
  drawn := ⟨fun _ hr => (by cases hr), fun _ hr => (by cases hr)⟩
  latest _ _ _ hv := by cases hv

/-! ## When the mappings follow -/

/-- Rows that are inserted again have other identifiers. -/
theorem not_kept_of_upsert {α κ : Type} [DecidableEq κ] {k : α → κ} {rows : List (ℕ × α)}
    {as : List α} {id : ℕ} (hold : ∀ r ∈ rows, r.1 < id)
    (hin : ∀ a ∈ as, ∃ r ∈ rows, k r.2 = k a)
    (hkept : ∀ r ∈ rows, r ∈ Rows.upsertAll k rows id as) : as = [] := by
  refine List.eq_nil_iff_forall_not_mem.mpr fun a ha => ?_
  obtain ⟨r, hr, hkey⟩ := hin a ha
  have hnew := Rows.upsertAll_new (hkept r hr) (hkey ▸ List.mem_map_of_mem ha)
  exact absurd (hold r hr) (Nat.not_lt.mpr hnew)

theorem ingest_compliance (m : MappingSignals) : (s.ingest svc id call m).compliance =
    Rows.upsertAll Control.key s.compliance s.drawn
      (controlsForCategory (s.ingested svc id call).category) := rfl

theorem ingest_attack (m : MappingSignals) : (s.ingest svc id call m).attack =
    Rows.upsertAll AttackRow.techniqueId s.attack
      (s.drawn + (controlsForCategory (s.ingested svc id call).category).length)
      (attackRows (s.ingested svc id call).category m) := rfl

/-- Where a finding that says what the one before has said keeps the mappings, there are none. -/
theorem catalogs_empty {m : MappingSignals} {previous : FindingCall} (hs : s.Sound svc)
    (hm : signals svc call.finding.metadata = some m)
    (hcategory : (s.ingested svc id call).category = call.weakness)
    (hlast : s.last = some previous) (hsame : Unchanged previous call)
    (hkept : s.KeptBy (s.ingest svc id call m)) :
    controlsForCategory call.weakness = [] ∧ attackRows call.weakness m = [] := by
  obtain ⟨hcompliance, hattack⟩ := hkept
  rw [ingest_compliance, hcategory] at hcompliance
  rw [ingest_attack, hcategory] at hattack
  cases hv : s.vulnerability with
  | none =>
    rw [(hs.fresh hv).2.2] at hlast
    cases hlast
  | some v =>
    have hrow : v.category = call.weakness := (ingested_some hv).symm.trans hcategory
    constructor
    · refine not_kept_of_upsert hs.drawn.1 (fun c hc => ?_) hcompliance
      rw [← hrow] at hc
      obtain ⟨r, hr, rfl⟩ := List.mem_map.mp ((hs.controls v hv).mem_iff.mpr hc)
      exact ⟨r, hr, rfl⟩
    · refine not_kept_of_upsert (fun r hr => ?_) (fun t ht => ?_) hattack
      · exact Nat.lt_of_lt_of_le (hs.drawn.2 r hr) (Nat.le_add_right _ _)
      · rw [← hrow] at ht
        exact hs.latest v previous m hv hlast (hsame.2 ▸ hm) t ht

theorem map_attack (m : MappingSignals) : (s.ingest svc id call m).attack.map Prod.snd =
    (attackRows (s.ingested svc id call).category m).foldl (Rows.addNew AttackRow.techniqueId)
      (s.attack.map Prod.snd) := Rows.map_upsertAll ..

/-- **The mappings follow a finding** exactly when it is stable. -/
theorem exact_iff_stable (hs : s.Sound svc) :
    Mappings.Exact svc key id s call ↔ Mappings.Stable svc key s call := by
  constructor
  · intro hexact hkey m hm
    obtain ⟨hfollows, hkept⟩ := hexact _ (ingestMapped_eq_some.mpr ⟨hkey, m, hm, rfl⟩)
    have hcategory : (s.ingested svc id call).category = call.weakness :=
      Option.some.inj hfollows.category
    have hattack := hfollows.attack m hm
    rw [map_attack, hcategory] at hattack
    refine ⟨fun v hv => ingested_some hv ▸ hcategory, fun r hr => ?_,
      fun previous hlast hsame => ?_⟩
    · exact (Rows.foldl_addNew_perm_iff hs.techniques (attackRows_nodup _ m)).mp hattack r.2
        (List.mem_map_of_mem hr)
    · exact catalogs_empty hs hm hcategory hlast hsame (hkept previous hlast hsame)
  · intro hstable s' hstep
    obtain ⟨hkey, m, hm, rfl⟩ := ingestMapped_eq_some.mp hstep
    obtain ⟨hrow, htechniques, hnothing⟩ := hstable hkey m hm
    have hcategory : (s.ingested svc id call).category = call.weakness := by
      cases hv : s.vulnerability with
      | none => exact ingested_none hv
      | some v => exact (ingested_some hv).trans (hrow v hv)
    refine ⟨⟨congrArg some hcategory, hcategory ▸ controls_after hs s.drawn, fun m' hm' => ?_⟩,
      fun previous hlast hsame => ?_⟩
    · obtain rfl := Option.some.inj (hm.symm.trans hm')
      rw [map_attack, hcategory]
      refine (Rows.foldl_addNew_perm_iff hs.techniques (attackRows_nodup _ m)).mpr fun t ht => ?_
      obtain ⟨r, hr, rfl⟩ := List.mem_map.mp ht
      exact htechniques r hr
    · obtain ⟨hcontrols, hrows⟩ := hnothing previous hlast hsame
      constructor
      · intro r hr
        rw [ingest_compliance, hcategory, hcontrols]
        exact hr
      · intro r hr
        rw [ingest_attack, hcategory, hrows]
        exact hr

/-- **The classification follows the findings** of every history exactly when each of them finds its
weakness in the row and no technique that it is not given itself, and the catalogs give nothing for
one that says what the one before has said. -/
theorem classification_follows_iff (svc : MappingServices) (key : Uuid × String) (id : Uuid)
    (σ : List FindingCall) :
    CondMachine.Along (ingestMapped svc key id) (Mappings.Exact svc key id) .empty σ ↔
      CondMachine.Along (ingestMapped svc key id) (Mappings.Stable svc key) .empty σ :=
  CondMachine.along_congr (I := Mappings.Sound svc) (fun _ _ _ hs h => mappings_sound hs h)
    (fun _ _ hs => exact_iff_stable hs) Mappings.sound_empty σ

/-! ## A finding with another weakness -/

def mappingServices : MappingServices where
  isDetection _ := false
  isoformat _ := ""
  str _ := ""
  tenths _ := 0
  normalizeLocation s := some s

/-- A finding of this weakness. -/
def weaknessCall (category : String) : FindingCall where
  projectId := 1
  scanId := 2
  finding := {
    fingerprint := "t||https://h/a"
    title := "finding"
    severity := "high"
    category := some category
    description := none
    cvssVector := none
    cvssScore := none
    matchedAt := none
    metadata := [] }
  toolRunId := 3
  evidenceId := 4
  assetId := none

/-- **The row keeps the weakness** with which the finding has been detected first. -/
theorem reclassified_finding : ¬ CondMachine.Along
    (ingestMapped mappingServices (1, "t||https://h/a") 5)
    (Mappings.Exact mappingServices (1, "t||https://h/a") 5) .empty
    [weaknessCall "cwe-79", weaknessCall "cwe-89"] := by
  intro h
  have hstep : ∀ s category, ingestMapped mappingServices (1, "t||https://h/a") 5
      (weaknessCall category) s =
        some (s.ingest mappingServices 5 (weaknessCall category) ⟨none, none, none⟩) :=
    fun s category => ingestMapped_eq_some.mpr ⟨rfl, _, rfl, rfl⟩
  have hexact := h [weaknessCall "cwe-79"] (weaknessCall "cwe-89") [] rfl
  rw [CondMachine.run_cons, CondMachine.run_nil, CondMachine.next_some (hstep _ _)] at hexact
  have hcategory := (hexact _ (hstep _ _)).1.category
  have hsame : canonicalCwe (some "cwe-79") = canonicalCwe (some "cwe-89") :=
    Option.some.inj hcategory
  exact absurd hsame (by decide)

end ScanPlatform

import ScanPlatform.Base.Inheritance
import ScanPlatform.Vulnerabilities.Revival

/-!
# The order of a batch of findings

The findings of a scan are stored one after the other, and a new one looks for its ancestor among
all that are there. What decides about a status is the keys and the statuses of the findings.

* `storeBatch`, `storeBatch_verdicts`: a batch;
* `Vulnerability.ofKey`, `verdictRules`, `lawful_verdictRules`: what a search reads of a finding;
* `FindingsDb.verdicts`, **`verdicts_ingest`**: the keys and the statuses, and what storing a
  finding does to them;
* **`batch_order_iff`**: when the order does not matter; `sibling_decides` is a batch in which it
  does.
-/

set_option autoImplicit false

namespace ScanPlatform

open Inheritance UnitOfWork

/-! ## Batches -/

/-- The findings of a batch, stored one after the other. -/
def storeBatch (svc : IngestServices) (batch : List (Moment × FindingCall)) (db : FindingsDb) :
    Option FindingsDb :=
  batch.foldlM (fun db f => storeFinding svc f.1 f.2 db) db

/-! ## What a search reads -/

/-- A finding of which nothing is known but its key. -/
def Vulnerability.ofKey (key : Uuid × String) : Vulnerability where
  id := 0
  projectId := key.1
  fingerprint := key.2
  title := ""
  category := none
  severity := ""
  status := .open
  cvssScore := none
  lastSeenScanId := none

/-- How findings decide about each other's statuses: a search reads those of its project with its
template, finds those with its normalized location, and fails on one that has no readable one. -/
def verdictRules (svc : IngestServices) : Rules (Uuid × String) VulnerabilityStatus where
  finds key key' := (ancestorSearch svc (.ofKey key)).any fun search =>
    key'.1 = key.1 ∧ (Vulnerability.ofKey key').templateId = some search.1 ∧
      (Vulnerability.ofKey key').matchedAt.bind svc.normalizeLocation = some search.2
  spoils key key' := (ancestorSearch svc (.ofKey key)).any fun search =>
    key'.1 = key.1 ∧ (Vulnerability.ofKey key').templateId = some search.1 ∧
      (Vulnerability.ofKey key').unreadable svc
  sticky status := status ∈ stickyStatuses
  fresh := .open
  again status := if status = .fixed then .reopened else status

section

variable {svc : IngestServices}

theorem ancestorSearch_eq_some {v : Vulnerability} {search : String × String} :
    ancestorSearch svc v = some search ↔ v.templateId = some search.1 ∧
      v.matchedAt.bind svc.normalizeLocation = some search.2 ∧ search.2 ≠ "" := by
  unfold ancestorSearch
  rw [Option.bind_eq_some_iff]
  constructor
  · rintro ⟨template, htemplate, h⟩
    obtain ⟨location, hlocation, h⟩ := Option.bind_eq_some_iff.mp h
    obtain ⟨normalized, hnormalized, h⟩ := Option.bind_eq_some_iff.mp h
    split_ifs at h with hempty
    cases h
    exact ⟨htemplate, Option.bind_eq_some_iff.mpr ⟨location, hlocation, hnormalized⟩, hempty⟩
  · rintro ⟨htemplate, hlocation, hempty⟩
    obtain ⟨location, hmatched, hnormalized⟩ := Option.bind_eq_some_iff.mp hlocation
    exact ⟨search.1, htemplate, by rw [hmatched, Option.bind_some, hnormalized, Option.bind_some,
      if_neg hempty]⟩

variable (svc) in
theorem lawful_verdictRules : (verdictRules svc).Lawful where
  trans key key' key'' h h' := by
    obtain ⟨search, hsearch, hfinds⟩ := (Option.any_eq_true _ _).mp h
    obtain ⟨hproject, htemplate, hlocation⟩ := of_decide_eq_true hfinds
    have hsame : ancestorSearch svc (.ofKey key') = some search :=
      ancestorSearch_eq_some.mpr ⟨htemplate, hlocation, (ancestorSearch_eq_some.mp hsearch).2.2⟩
    obtain ⟨search', hsearch', hfinds'⟩ := (Option.any_eq_true _ _).mp h'
    obtain rfl : search = search' := Option.some.inj (hsame.symm.trans hsearch')
    obtain ⟨hproject', hrest⟩ := of_decide_eq_true hfinds'
    refine (Option.any_eq_true _ _).mpr ⟨search, hsearch, decide_eq_true ?_⟩
    exact ⟨hproject'.trans hproject, hrest⟩
  fresh := rfl
  again status := by cases status <;> rfl
  kept status h := by
    cases status with
    | falsePositive | acceptedRisk => rfl
    | «open» | confirmed | reopened | fixed => cases h

/-! ## Keys and statuses -/

/-- The keys and the statuses of the findings. -/
def FindingsDb.verdicts (db : FindingsDb) : List ((Uuid × String) × VulnerabilityStatus) :=
  db.vulnerabilities.map fun v => (v.key, v.status)

variable {db : FindingsDb} {call : FindingCall} {moment : Moment}

theorem status_verdicts (db : FindingsDb) (key : Uuid × String) :
    status db.verdicts key = (db.finding key).map (·.status) := by
  unfold status FindingsDb.verdicts FindingsDb.finding Rows.row
  rw [List.find?_map, Option.map_map]
  rfl

/-- The findings that a search reads, which are not the one that is new. -/
theorem reads_iff {v u : Vulnerability} (hnew : db.finding v.key = none)
    (hu : u ∈ db.vulnerabilities) (template : String) :
    (u.projectId = v.projectId ∧ u.fingerprint ≠ v.fingerprint ∧ u.templateId = some template) ↔
      u.projectId = v.projectId ∧ u.templateId = some template := by
  have hne : u.projectId = v.projectId → u.fingerprint ≠ v.fingerprint := fun hproject heq =>
    FindingsDb.key_ne hnew hu (Prod.ext hproject heq)
  exact ⟨fun h => ⟨h.1, h.2.2⟩, fun h => ⟨h.1, hne h.1, h.2⟩⟩

/-- **What a search finds** is decided by the keys. -/
theorem findAncestor_eq {v : Vulnerability} {search : String × String}
    (hnew : db.finding v.key = none) (hsearch : ancestorSearch svc v = some search) :
    findAncestor svc v search db =
      if db.vulnerabilities.any fun u => (verdictRules svc).spoils v.key u.key then none
      else match db.vulnerabilities.filter fun u => (verdictRules svc).finds v.key u.key with
      | [ancestor] => some ancestor
      | _ => none := by
  have hkey : ancestorSearch svc (.ofKey v.key) = some search := hsearch
  unfold findAncestor
  dsimp only
  have hspoils : (db.vulnerabilities.filter fun u => u.projectId = v.projectId ∧
      u.fingerprint ≠ v.fingerprint ∧ u.templateId = some search.1).any (·.unreadable svc) =
        db.vulnerabilities.any fun u => (verdictRules svc).spoils v.key u.key := by
    have hone : ∀ u : Vulnerability, (verdictRules svc).spoils v.key u.key =
        decide (u.projectId = v.projectId ∧ u.templateId = some search.1 ∧ u.unreadable svc) := by
      intro u
      unfold verdictRules
      dsimp only
      rw [hkey]
      rfl
    rw [List.any_filter, Bool.eq_iff_iff, List.any_eq_true, List.any_eq_true]
    refine exists_congr fun u => and_congr_right fun hu => ?_
    rw [Bool.and_eq_true, decide_eq_true_eq, reads_iff hnew hu, hone, decide_eq_true_eq, and_assoc]
  have hfinds : (db.vulnerabilities.filter fun u => u.projectId = v.projectId ∧
      u.fingerprint ≠ v.fingerprint ∧ u.templateId = some search.1).filter (fun u =>
        u.matchedAt.bind svc.normalizeLocation = some search.2) =
          db.vulnerabilities.filter fun u => (verdictRules svc).finds v.key u.key := by
    rw [List.filter_filter]
    refine List.filter_congr fun u hu => ?_
    have hone : (verdictRules svc).finds v.key u.key = decide (u.projectId = v.projectId ∧
        u.templateId = some search.1 ∧
          u.matchedAt.bind svc.normalizeLocation = some search.2) := by
      unfold verdictRules
      dsimp only
      rw [hkey]
      rfl
    rw [hone, Bool.eq_iff_iff, Bool.and_eq_true, decide_eq_true_eq, decide_eq_true_eq,
      decide_eq_true_eq, reads_iff hnew hu]
    tauto
  exact hspoils ▸ hfinds ▸ rfl

/-- **What a new finding inherits** is decided by the keys and the statuses. -/
theorem status_createdRow (svc : IngestServices) (id : Uuid) (hnew : db.finding call.key = none) :
    (createdRow svc id call db).status = (verdictRules svc).initial call.key db.verdicts := by
  unfold createdRow Rules.initial FindingsDb.verdicts
  dsimp only
  rw [List.any_map, List.filter_map]
  cases hsearch : ancestorSearch svc (call.row svc id) with
  | none =>
    have hkey : ancestorSearch svc (.ofKey call.key) = none := hsearch
    have hfinds : ∀ key, (verdictRules svc).finds call.key key = false := fun key => by
      simp [verdictRules, hkey]
    simp only [Function.comp_def, hfinds, List.filter_false, List.map_nil, ite_self]
    rfl
  | some search =>
    rw [Option.bind_some, findAncestor_eq hnew hsearch]
    split_ifs with hspoiled hspoils hspoils
    · rfl
    · exact absurd hspoiled hspoils
    · exact absurd hspoils hspoiled
    · have hsame : db.vulnerabilities.filter ((fun e => (verdictRules svc).finds call.key e.1) ∘
          fun v : Vulnerability => (v.key, v.status)) = db.vulnerabilities.filter fun u =>
            (verdictRules svc).finds (call.row svc id).key u.key := rfl
      rw [hsame]
      generalize (db.vulnerabilities.filter fun u =>
        (verdictRules svc).finds (call.row svc id).key u.key) = found
      rcases found with _ | ⟨ancestor, _ | ⟨other, rest⟩⟩
      · rfl
      · by_cases hsticky : ancestor.status ∈ stickyStatuses
        · simp [Vulnerability.inherit, verdictRules, hsticky]
        · simp [Vulnerability.inherit, verdictRules, hsticky, FindingCall.row]
      · rfl

/-- **What storing a finding does to the keys and the statuses.** -/
theorem verdicts_ingest (svc : IngestServices) (hkeyed : db.Keyed)
    (hfresh : ∀ u ∈ db.vulnerabilities, u.id ≠ moment.newId) :
    (actAll (ingestWrites svc moment call db) db).verdicts =
      (verdictRules svc).store db.verdicts call.key := by
  have hkeys : db.verdicts.map Prod.fst = db.vulnerabilities.map (·.key) := by
    unfold FindingsDb.verdicts
    rw [List.map_map]
    rfl
  unfold ingestWrites Rules.store
  rw [hkeys]
  cases hfound : db.finding call.key with
  | none =>
    have hnew : call.key ∉ db.vulnerabilities.map (·.key) := by
      rintro hmem
      obtain ⟨u, hu, hkey⟩ := List.mem_map.mp hmem
      exact FindingsDb.key_ne hfound hu hkey
    have hkey : (createdRow svc moment.newId call db).key = call.key :=
      createdRow_kept (fun ancestor => ancestor.inherit_assigns.key) _
    rw [if_neg hnew, ← status_createdRow svc moment.newId hfound]
    unfold FindingsDb.verdicts
    dsimp only
    rw [rows_createWrites svc call hfresh, List.map_append, List.map_singleton, hkey]
  | some v =>
    have hv : v ∈ db.vulnerabilities := Rows.mem_of_row hfound
    have hkey : v.key = call.key := Rows.row_key hfound
    rw [if_pos (hkey ▸ List.mem_map_of_mem hv)]
    unfold FindingsDb.verdicts
    dsimp only
    rw [rows_redetectWrites, List.map_map, List.map_map]
    refine List.map_congr_left fun u hu => ?_
    have hiff : u.id = v.id ↔ u.key = call.key :=
      ⟨fun hid => by rw [List.inj_on_of_nodup_map hkeyed.ids hu hv hid, hkey],
        fun h => by rw [List.inj_on_of_nodup_map hkeyed.keys hu hv (h.trans hkey.symm)]⟩
    simp only [Function.comp_apply, hiff]
    split_ifs
    · rfl
    · rfl

/-! ## Every order of a batch -/

/-- An order of what is read off a list is read off an order of the list. -/
theorem exists_map_perm {α β : Type} {f : α → β} {l : List α} {k : List β}
    (h : k.Perm (l.map f)) : ∃ l' : List α, l'.Perm l ∧ l'.map f = k := by
  have hpairs : List.Forall₂ (fun b a => b = f a) (l.map f) l := by
    rw [List.forall₂_map_left_iff]
    exact List.forall₂_same.mpr fun _ _ => rfl
  obtain ⟨l', hl', hperm⟩ := List.perm_comp_forall₂ h hpairs
  refine ⟨l', hperm, ?_⟩
  rw [← List.forall₂_map_right_iff (R := Eq), List.forall₂_eq_eq_eq] at hl'
  exact hl'.symm

/-- What a batch needs: fresh ids for the rows that it may insert, distinct keys, and the evidence
of each finding. -/
structure Storable (db : FindingsDb) (batch : List (Moment × FindingCall)) : Prop where
  fresh : ∀ f ∈ batch, ∀ u ∈ db.vulnerabilities, u.id ≠ f.1.newId
  ids : (batch.map (·.1.newId)).Nodup
  keys : (batch.map (·.2.key)).Nodup
  evidence : ∀ f ∈ batch, ∃ e ∈ db.evidence, e.id = f.2.evidenceId

theorem evidence_actAll (ws : List IngestWrite) (db : FindingsDb) :
    (actAll ws db).evidence = db.evidence := by
  induction ws generalizing db with
  | nil => rfl
  | cons w ws ih =>
    refine (ih _).trans ?_
    show (w.apply db).evidence = db.evidence
    cases w with
    | insertRow row _ | assign id f _ | addHistory entry | workflow c => rfl
    | insertLineage entry =>
      unfold IngestWrite.apply
      dsimp only
      split_ifs <;> rfl
    | linkEvidence vulnerabilityId evidenceId toolRunId =>
      unfold IngestWrite.apply
      dsimp only
      split <;> rfl

/-- A finding that is stored brings no id but its own. -/
theorem ids_ingest (svc : IngestServices) (hfresh : ∀ u ∈ db.vulnerabilities, u.id ≠ moment.newId)
    {u : Vulnerability} (hu : u ∈ (actAll (ingestWrites svc moment call db) db).vulnerabilities) :
    u.id = moment.newId ∨ ∃ w ∈ db.vulnerabilities, u.id = w.id := by
  unfold ingestWrites at hu
  cases hfound : db.finding call.key with
  | none =>
    rw [hfound] at hu
    dsimp only at hu
    rw [rows_createWrites svc call hfresh, List.mem_append, List.mem_singleton] at hu
    rcases hu with hu | rfl
    · exact .inr ⟨u, hu, rfl⟩
    · exact .inl (createdRow_kept (fun ancestor => ancestor.inherit_assigns.id) _)
  | some v =>
    rw [hfound] at hu
    dsimp only at hu
    rw [rows_redetectWrites] at hu
    obtain ⟨w, hw, rfl⟩ := List.mem_map.mp hu
    refine .inr ⟨w, hw, ?_⟩
    split_ifs
    · rfl
    · rfl

theorem Storable.tail {f : Moment × FindingCall} {batch : List (Moment × FindingCall)}
    (h : Storable db (f :: batch)) :
    Storable (actAll (ingestWrites svc f.1 f.2 db) db) batch where
  fresh g hg u hu heq := by
    have hfirst : ∀ u ∈ db.vulnerabilities, u.id ≠ f.1.newId := h.fresh f List.mem_cons_self
    rcases ids_ingest svc hfirst hu with hid | ⟨w, hw, hid⟩
    · refine (List.nodup_cons.mp h.ids).1 ?_
      exact List.mem_map.mpr ⟨g, hg, heq.symm.trans hid⟩
    · exact h.fresh g (List.mem_cons_of_mem _ hg) w hw (hid.symm.trans heq)
  ids := (List.nodup_cons.mp h.ids).2
  keys := (List.nodup_cons.mp h.keys).2
  evidence g hg := by
    rw [evidence_actAll]
    exact h.evidence g (List.mem_cons_of_mem _ hg)

/-- **A batch is stored**, and its keys and statuses are as the rules say. -/
theorem storeBatch_verdicts (svc : IngestServices) (hkeyed : db.Keyed)
    {batch : List (Moment × FindingCall)} (h : Storable db batch) :
    ∃ db', storeBatch svc batch db = some db' ∧
      db'.verdicts = (verdictRules svc).storeAll db.verdicts (batch.map (·.2.key)) := by
  induction batch generalizing db with
  | nil => exact ⟨db, rfl, rfl⟩
  | cons f batch ih =>
    have hfresh : ∀ u ∈ db.vulnerabilities, u.id ≠ f.1.newId := h.fresh f List.mem_cons_self
    obtain ⟨row, hstored⟩ := stored_of_ingestWrites svc f.2 hkeyed hfresh
    obtain ⟨db', hdb', hverdicts⟩ := ih hstored.keyed h.tail
    refine ⟨db', ?_, ?_⟩
    · unfold storeBatch at hdb' ⊢
      rw [List.foldlM_cons, storeFinding_eq_some svc f.1 (h.evidence f List.mem_cons_self)]
      exact hdb'
    · rw [hverdicts, verdicts_ingest svc hkeyed hfresh]
      rfl

theorem Storable.perm {l batch : List (Moment × FindingCall)} (h : Storable db batch)
    (hl : l.Perm batch) : Storable db l where
  fresh f hf := h.fresh f (hl.mem_iff.mp hf)
  ids := (hl.map _).nodup_iff.mpr h.ids
  keys := (hl.map _).nodup_iff.mpr h.keys
  evidence f hf := h.evidence f (hl.mem_iff.mp hf)

end

/-- The status of the row of a finding after a batch. -/
def finalStatus (svc : IngestServices) (batch : List (Moment × FindingCall)) (db : FindingsDb)
    (key : Uuid × String) : Option VulnerabilityStatus :=
  (storeBatch svc batch db).bind fun db' => (db'.finding key).map (·.status)

/-- **The order of a batch does not matter** exactly when none of its new findings inherits the
decision on the only finding that its search finds while another new one, which the search finds
too or fails on, is still to be stored. -/
theorem batch_order_iff (svc : IngestServices) {db : FindingsDb} (hkeyed : db.Keyed)
    {batch : List (Moment × FindingCall)} (h : Storable db batch) :
    (∀ l₁ l₂ : List (Moment × FindingCall), l₁.Perm batch → l₂.Perm batch → ∀ f ∈ batch,
        finalStatus svc l₁ db f.2.key = finalStatus svc l₂ db f.2.key) ↔
      ∀ f ∈ batch, ∀ g ∈ batch, ¬ Torn (verdictRules svc) db.verdicts f.2.key g.2.key := by
  have hfinal : ∀ l : List (Moment × FindingCall), l.Perm batch → ∀ key, finalStatus svc l db key =
      status ((verdictRules svc).storeAll db.verdicts (l.map (·.2.key))) key := by
    intro l hl key
    obtain ⟨db', hdb', hverdicts⟩ := storeBatch_verdicts svc hkeyed (h.perm hl)
    unfold finalStatus
    rw [hdb', Option.bind_some, ← hverdicts, status_verdicts]
  have hkeys := order_independent_iff (lawful_verdictRules svc) db.verdicts h.keys
  constructor
  · intro hsame f hf g hg
    refine hkeys.mp (fun k₁ k₂ h₁ h₂ key hkey => ?_) f.2.key (List.mem_map_of_mem hf) g.2.key
      (List.mem_map_of_mem hg)
    obtain ⟨l₁, hl₁, rfl⟩ := exists_map_perm h₁
    obtain ⟨l₂, hl₂, rfl⟩ := exists_map_perm h₂
    obtain ⟨f', hf', rfl⟩ := List.mem_map.mp hkey
    rw [← hfinal l₁ hl₁, ← hfinal l₂ hl₂]
    exact hsame l₁ l₂ hl₁ hl₂ f' hf'
  · intro hwhole l₁ l₂ hl₁ hl₂ f hf
    rw [hfinal l₁ hl₁, hfinal l₂ hl₂]
    refine hkeys.mpr (fun k hk k' hk' => ?_) _ _ (hl₁.map _) (hl₂.map _) f.2.key
      (List.mem_map_of_mem hf)
    obtain ⟨f', hf', rfl⟩ := List.mem_map.mp hk
    obtain ⟨g', hg', rfl⟩ := List.mem_map.mp hk'
    exact hwhole f' hf' g' hg'

/-- A finding of a matcher, at one place. -/
def siblingCall (matcher : String) : FindingCall :=
  { plainCall with
    finding := { plainFinding with fingerprint := "sqli|" ++ matcher ++ "|https://a/x" } }

/-- A dismissed finding of the same template at the same place, and the evidence. -/
def dismissedDb : FindingsDb :=
  { FindingsDb.empty with
    vulnerabilities := [{ (siblingCall "old").row plainServices 7 with status := .falsePositive }]
    evidence := [⟨6, some 5, "log_excerpt", "", ""⟩] }

def siblings : List (Moment × FindingCall) :=
  [(⟨3, 8⟩, siblingCall "one"), (⟨3, 9⟩, siblingCall "two")]

theorem keyed_dismissedDb : dismissedDb.Keyed := ⟨by decide, by decide⟩

theorem storable_siblings : Storable dismissedDb siblings :=
  ⟨by decide, by decide, by decide, by decide⟩

theorem batch_order_iff_siblings :
    (∀ l₁ l₂ : List (Moment × FindingCall), l₁.Perm siblings → l₂.Perm siblings → ∀ f ∈ siblings,
        finalStatus plainServices l₁ dismissedDb f.2.key =
          finalStatus plainServices l₂ dismissedDb f.2.key) ↔
      ∀ f ∈ siblings, ∀ g ∈ siblings,
        ¬ Torn (verdictRules plainServices) dismissedDb.verdicts f.2.key g.2.key :=
  batch_order_iff plainServices keyed_dismissedDb storable_siblings

/-- **A sibling decides**: the finding that is stored first inherits the decision. -/
theorem sibling_decides : ¬ ∀ (svc : IngestServices) (db : FindingsDb), db.Keyed →
    ∀ batch : List (Moment × FindingCall), Storable db batch →
      ∀ l₁ l₂ : List (Moment × FindingCall), l₁.Perm batch → l₂.Perm batch → ∀ f ∈ batch,
        finalStatus svc l₁ db f.2.key = finalStatus svc l₂ db f.2.key := by
  intro hall
  have hsame : finalStatus plainServices siblings dismissedDb (siblingCall "one").key =
      finalStatus plainServices siblings.reverse dismissedDb (siblingCall "one").key :=
    hall plainServices dismissedDb keyed_dismissedDb siblings storable_siblings
      siblings siblings.reverse (.refl _) (List.reverse_perm _) _ List.mem_cons_self
  have hfirst : finalStatus plainServices siblings dismissedDb (siblingCall "one").key =
      some .falsePositive := rfl
  have hlater : finalStatus plainServices siblings.reverse dismissedDb (siblingCall "one").key =
      some .open := rfl
  exact absurd (hfirst.symm.trans (hsame.trans hlater)) (by decide)

end ScanPlatform

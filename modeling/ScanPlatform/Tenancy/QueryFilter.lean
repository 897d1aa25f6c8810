import ScanPlatform.Tenancy.InsertGuard

/-!
# The filter of queries

The rows that a statement reads or writes are restricted to those of the bound workspace: by a
workspace of their own, by the rows that they refer to, or, for proof of remediation, by the row
that links it.

* `Row`, `columnKeys`, `otherKeys`: rows, with the foreign keys of the schema;
* `viaCriterion`, `evidenceCriterion`, `workspaceCriterion`, `scopeByWorkspace`: the filter;
* `Visible`, **`visible_iff`**: the rows that a workspace sees, as a relation;
* **`scopeByWorkspace_spec`**, `workspaceCriterion_spec`: a query and a count are restricted alike;
* `view`, `view_view`: what a workspace sees of a database.
-/

set_option autoImplicit false

namespace ScanPlatform.QueryFilter

open InsertGuard

/-! ## Rows -/

abbrev Column := InsertGuard.Column

/-- What becomes of a row when one that it refers to is deleted. -/
inductive OnDelete
  | cascade
  | setNull
  | restrict
  deriving DecidableEq

/-- The foreign keys of a table, of the columns that `Obj` has; those that name a user or a
workspace are left out. -/
def columnKeys : TableName → List (Column × TableName × OnDelete)
  | .targets | .reports | .vulnerabilities | .notifications | .riskAssessments =>
    [(.projectId, .projects, .cascade)]
  | .assets | .scans | .scanSchedules =>
    [(.projectId, .projects, .cascade), (.targetId, .targets, .cascade)]
  | .authorizationScopes => [(.targetId, .targets, .cascade)]
  | .toolRuns | .aiPlans | .attackNarratives | .engagementState | .agentSteps | .agentDecisions =>
    [(.scanId, .scans, .cascade)]
  | .evidence => [(.toolRunId, .toolRuns, .cascade)]
  | .vulnerabilityEvidence =>
    [(.vulnerabilityId, .vulnerabilities, .cascade), (.toolRunId, .toolRuns, .cascade)]
  | .vulnerabilityHistory =>
    [(.projectId, .projects, .cascade), (.vulnerabilityId, .vulnerabilities, .cascade),
      (.scanId, .scans, .setNull), (.toolRunId, .toolRuns, .setNull)]
  | .vulnerabilityLineage =>
    [(.projectId, .projects, .cascade), (.newVulnerabilityId, .vulnerabilities, .cascade)]
  | .remediations | .riskScores | .attackMappings | .complianceMappings =>
    [(.vulnerabilityId, .vulnerabilities, .cascade)]
  | .verificationRequests => [(.scanId, .scans, .setNull)]
  | .remediationItems =>
    [(.projectId, .projects, .cascade), (.vulnerabilityId, .vulnerabilities, .setNull)]
  | .riskAcceptances =>
    [(.projectId, .projects, .cascade), (.vulnerabilityId, .vulnerabilities, .cascade)]
  | .riskAssessmentFindings => [(.vulnerabilityId, .vulnerabilities, .setNull)]
  | _ => []

/-- The foreign keys of the other columns, `evidence_id` apart. -/
def otherKeys : TableName → List (TableName × OnDelete)
  | .targets => [(.privateSites, .restrict)]
  | .vulnerabilities => [(.assets, .setNull), (.scans, .setNull)]
  | .vulnerabilityLineage => [(.vulnerabilities, .cascade)]
  | .agentDecisions => [(.agentSteps, .setNull)]
  | .riskAssessments => [(.riskAssessments, .setNull), (.reports, .setNull)]
  | .riskAssessmentFindings => [(.riskAssessments, .cascade)]
  | .remediationItems => [(.remediations, .setNull)]
  | .remediationEvents | .remediationEvidence | .verificationRequests =>
    [(.remediationItems, .cascade)]
  | .riskAcceptances => [(.remediationItems, .setNull)]
  | .scannerWorkers => [(.privateSites, .cascade)]
  | _ => []

/-- A foreign key of a row that is not null. -/
structure ForeignKey where
  table : TableName
  id : Uuid
  onDelete : OnDelete

/-- A stored row; `data` is what its table has besides. -/
structure Row (D : Type) extends Obj where
  /-- The `evidence_id` of a link. -/
  evidenceId : Option Uuid
  others : List ForeignKey
  data : D
  links : evidenceId ≠ none → table = .vulnerabilityEvidence ∨ table = .remediationEvidence
  keyed : ∀ k ∈ others, (k.table, k.onDelete) ∈ otherKeys table

variable {D : Type}

/-- The foreign keys of a row that are not null. -/
def Row.foreignKeys (r : Row D) : List ForeignKey :=
  ((columnKeys r.table).filterMap fun x => (r.get x.1).map fun id => ⟨x.2.1, id, x.2.2⟩) ++
    (r.evidenceId.map fun id => ⟨.evidence, id, .cascade⟩).toList ++ r.others

/-- The row is the one that a foreign key names. -/
def ForeignKey.names (k : ForeignKey) (r : Row D) : Bool := r.table = k.table && r.id = some k.id

/-! ## The filter -/

/-- What a context variable says of the workspace. -/
structure Context where
  bypass : Bool
  workspaceId : Option Uuid

inductive QueryError
  /-- The `KeyError` of `table_scope`. -/
  | unclassified (table : TableName)
  | tenancyNotBound (tables : List TableName)

/-- A predicate of the rows of a database. -/
abbrev Criterion (D : Type) := List (Row D) → Row D → Bool

/-- `_direct_criterion`. -/
def directCriterion (w : Uuid) (r : Row D) : Bool := r.get .workspaceId = some w

/-- `SELECT id FROM table WHERE p`. -/
def idsWhere (db : List (Row D)) (table : TableName) (p : Row D → Bool) : List Uuid :=
  db.filterMap fun r => if r.table = table && p r then r.id else none

/-- `x IN ids`, which is not true of `NULL`. -/
def isIn (x : Option Uuid) (ids : List Uuid) : Bool := x.any fun id => ids.any (· = id)

/-- `_via_criterion`, along the hops of a chain, of which the registry has one or two. -/
def viaCriterion (w : Uuid) : List (Column × TableName) → Criterion D
  | [] => fun _ => directCriterion w
  | (fk, table) :: hops => fun db r => isIn (r.get fk) (idsWhere db table (viaCriterion w hops db))

/-- `_evidence_criterion`. -/
def evidenceCriterion (w : Uuid) (chain : List (Column × TableName)) : Criterion D := fun db r =>
  viaCriterion w chain db r ||
    isIn r.id (db.filterMap fun l =>
      if l.table = .remediationEvidence && directCriterion w l then l.evidenceId else none)

/-- The expression that is built for a table. -/
def criterionOf (w : Uuid) (table : TableName) : Criterion D :=
  if table ∈ directTables then fun _ => directCriterion w
  else if table = .evidence then evidenceCriterion w (viaTables table)
  else viaCriterion w (viaTables table)

def workspaceCriterion (ctx : Context) (table : TableName) :
    Except QueryError (Option (Criterion D)) :=
  match tableScope table with
  | none => .error (.unclassified table)
  | some .tenantScoped =>
    if ctx.bypass then .ok none
    else match ctx.workspaceId with
      | none => .error (.tenancyNotBound [table])
      | some w => .ok (some (criterionOf w table))
  | some _ => .ok none

/-- The tables of `scoped_tables`. -/
def filtered (table : TableName) : Bool := table ∈ directTables ∨ viaTables table ≠ []

/-- `_scope_by_workspace`, of a statement that touches the tables: the criteria it is given. -/
def scopeByWorkspace (ctx : Context) (touched : List TableName) :
    Except QueryError (List (TableName × Criterion D)) :=
  if ctx.bypass then .ok []
  else
    let touchedScoped := touched.filter filtered
    if touchedScoped = [] then .ok []
    else match ctx.workspaceId with
      | none => .error (.tenancyNotBound touchedScoped)
      | some w => .ok (touchedScoped.map fun t => (t, criterionOf w t))

/-! ## What a workspace sees -/

/-- The tables with a workspace, whose statements have it from the filter or as a predicate of their
own. -/
def Scoped (table : TableName) : Prop :=
  table ∈ exemptTables ∨ table ∈ directTables ∨ viaTables table ≠ []

instance (table : TableName) : Decidable (Scoped table) := inferInstanceAs (Decidable (_ ∨ _ ∨ _))

/-- The rows that the statements of a workspace are about. -/
def visible (w : Uuid) : Criterion D := fun db r =>
  Scoped r.table && criterionOf w r.table db r

/-- A row belongs to a workspace by itself, through the row that it refers to, or through the link
that refers to it. -/
inductive Visible (w : Uuid) (db : List (Row D)) : Row D → Prop
  | own {r : Row D} (hchain : viaTables r.table = []) (hscoped : Scoped r.table)
      (hw : r.get .workspaceId = some w) : Visible w db r
  | via {r p : Row D} {fk : Column} {hops : List (Column × TableName)} {id : Uuid}
      (hchain : viaTables r.table = (fk, p.table) :: hops) (hp : p ∈ db) (hfk : r.get fk = some id)
      (hid : p.id = some id) (hvisible : Visible w db p) : Visible w db r
  | linked {r l : Row D} {id : Uuid} (hevidence : r.table = .evidence) (hid : r.id = some id)
      (hl : l ∈ db) (hlink : l.table = .remediationEvidence) (hfk : l.evidenceId = some id)
      (hw : l.get .workspaceId = some w) : Visible w db r

variable {w v : Uuid} {db : List (Row D)} {r p : Row D}

theorem isIn_idsWhere {x : Option Uuid} {table : TableName} {q : Row D → Bool} :
    isIn x (idsWhere db table q) = true ↔
      ∃ p ∈ db, ∃ id, p.table = table ∧ q p = true ∧ x = some id ∧ p.id = some id := by
  cases x with
  | none => simp [isIn]
  | some id =>
    simp only [isIn, idsWhere, Option.any_some, List.any_eq_true, decide_eq_true_eq,
      exists_eq_right, List.mem_filterMap, Option.ite_none_right_eq_some, Bool.and_eq_true,
      Option.some.injEq]
    refine exists_congr fun p => and_congr_right fun _ => ?_
    constructor
    · rintro ⟨⟨htable, hq⟩, hid⟩
      exact ⟨id, htable, hq, rfl, hid⟩
    · rintro ⟨_, htable, hq, rfl, hid⟩
      exact ⟨⟨htable, hq⟩, hid⟩

/-- A chain goes on as that of the table it has come to. -/
theorem viaTables_tail {table table' : TableName} {fk : Column} {hops : List (Column × TableName)}
    (h : viaTables table = (fk, table') :: hops) :
    hops = viaTables table' ∧ Scoped table' ∧ table' ≠ .evidence ∧
      (fk, table', .cascade) ∈ columnKeys table := by
  revert h
  cases table <;> rintro ⟨⟩ <;> decide

theorem visible_of_viaCriterion {hops : List (Column × TableName)}
    (hhops : hops = viaTables r.table) (hscoped : Scoped r.table)
    (h : viaCriterion w hops db r = true) : Visible w db r := by
  induction hops generalizing r with
  | nil => exact .own hhops.symm hscoped (of_decide_eq_true h)
  | cons hop hops ih =>
    cases hop with | mk fk table =>
    obtain ⟨p, hp, id, rfl, hq, hfk, hid⟩ := isIn_idsWhere.mp h
    obtain ⟨htail, hscoped', -, -⟩ := viaTables_tail hhops.symm
    exact .via hhops.symm hp hfk hid (ih htail hscoped' hq)

theorem criterionOf_eq (table : TableName) (db : List (Row D)) (r : Row D) :
    criterionOf w table db r = (viaCriterion w (viaTables table) db r || table = .evidence &&
      isIn r.id (db.filterMap fun l =>
        if l.table = .remediationEvidence && directCriterion w l then l.evidenceId else none)) := by
  unfold criterionOf
  split_ifs with hdirect hevidence
  · rw [viaTables_of_direct hdirect]
    have hne : table ≠ .evidence := by
      rintro rfl
      revert hdirect
      decide
    simp [hne, viaCriterion]
  · simp [hevidence, evidenceCriterion]
  · simp [hevidence]

theorem isIn_links {x : Option Uuid} :
    isIn x (db.filterMap fun l =>
        if l.table = .remediationEvidence && directCriterion w l then l.evidenceId else none) =
      true ↔ ∃ l ∈ db, ∃ id, l.table = .remediationEvidence ∧ l.get .workspaceId = some w ∧
        x = some id ∧ l.evidenceId = some id := by
  cases x with
  | none => simp [isIn]
  | some id =>
    simp only [isIn, Option.any_some, List.any_eq_true, decide_eq_true_eq, exists_eq_right,
      List.mem_filterMap, Option.ite_none_right_eq_some, Bool.and_eq_true, Option.some.injEq,
      directCriterion]
    grind

/-- **The criteria say** which rows belong to a workspace. -/
theorem visible_iff : visible w db r = true ↔ Visible w db r := by
  rw [visible, Bool.and_eq_true, decide_eq_true_eq, criterionOf_eq, Bool.or_eq_true]
  constructor
  · rintro ⟨hscoped, h | h⟩
    · exact visible_of_viaCriterion rfl hscoped h
    · obtain ⟨hevidence, hlink⟩ := Bool.and_eq_true_iff.mp h
      obtain ⟨l, hl, id, htable, hw, hid, hfk⟩ := isIn_links.mp hlink
      exact .linked (of_decide_eq_true hevidence) hid hl htable hfk hw
  · intro h
    induction h with
    | own hchain hscoped hw =>
      refine ⟨hscoped, .inl ?_⟩
      rw [hchain]
      exact decide_eq_true hw
    | @via r p fk hops id hchain hp hfk hid _ ih =>
      obtain ⟨htail, -, hne, -⟩ := viaTables_tail hchain
      refine ⟨.inr (.inr (hchain ▸ List.cons_ne_nil _ _)), .inl ?_⟩
      have hq : viaCriterion w hops db p = true := by
        rw [htail]
        exact ih.2.resolve_right (by simp [hne])
      rw [hchain]
      exact isIn_idsWhere.mpr ⟨p, hp, id, rfl, hq, hfk, hid⟩
    | @linked r l id hevidence hid hl hlink hfk hw =>
      refine ⟨hevidence ▸ by decide, .inr (Bool.and_eq_true_iff.mpr ⟨decide_eq_true hevidence, ?_⟩)⟩
      exact isIn_links.mpr ⟨l, hl, id, hlink, hw, hid, hfk⟩

theorem visible_of_exempt {table : TableName} (htable : r.table = table)
    (hexempt : table ∈ exemptTables) : visible w db r = directCriterion w r := by
  subst htable
  have hscoped : Scoped r.table := .inl hexempt
  rw [visible, decide_eq_true hscoped, Bool.true_and, criterionOf_eq]
  revert hexempt
  cases r.table <;> simp [exemptTables, viaTables, viaCriterion]

theorem link_visible (hlink : r.table = .remediationEvidence) (hw : r.get .workspaceId = some w) :
    Visible w db r :=
  .own (by rw [hlink]; rfl) (by rw [hlink]; decide) hw

/-- A row is visible wherever the visible rows are that it belongs through. -/
theorem Visible.transfer {db' : List (Row D)} (h : Visible w db r)
    (hmem : ∀ p ∈ db, Visible w db p → p ∈ db') : Visible w db' r := by
  induction h with
  | own hchain hscoped hw => exact .own hchain hscoped hw
  | via hchain hp hfk hid hvisible ih => exact .via hchain (hmem _ hp hvisible) hfk hid ih
  | linked hevidence hid hl hlink hfk hw =>
    exact .linked hevidence hid (hmem _ hl (link_visible hlink hw)) hlink hfk hw

theorem Visible.mono {db' : List (Row D)} (h : Visible w db r) (hsub : ∀ p ∈ db, p ∈ db') :
    Visible w db' r :=
  h.transfer fun p hp _ => hsub p hp

/-- What a workspace sees of a database. -/
def view (w : Uuid) (db : List (Row D)) : List (Row D) := db.filter (visible w db)

theorem mem_view : r ∈ view w db ↔ r ∈ db ∧ Visible w db r := by
  rw [view, List.mem_filter, visible_iff]

/-- Whether a row belongs to a workspace is up to the rows of that workspace. -/
theorem visible_view (w : Uuid) (db : List (Row D)) : visible w (view w db) = visible w db := by
  funext r
  rw [Bool.eq_iff_iff, visible_iff, visible_iff]
  constructor
  · exact fun h => h.mono fun p hp => (mem_view.mp hp).1
  · exact fun h => h.transfer fun p hp hw => mem_view.mpr ⟨hp, hw⟩

theorem view_view (w : Uuid) (db : List (Row D)) : view w (view w db) = view w db := by
  rw [view, visible_view]
  exact List.filter_filter.trans (by simp [view])

/-! ## Queries -/

/-- The predicate of its own that a statement on an exempt table has. -/
def ownPredicate (w : Uuid) (r : Row D) : Bool := r.table ∉ exemptTables || directCriterion w r

/-- The rows of a table that a statement of a workspace is about, with the criteria it is given. -/
def matched (w : Uuid) (criteria : List (TableName × Criterion D)) (db : List (Row D))
    (table : TableName) (r : Row D) : Bool :=
  r.table = table && criteria.all (fun c => c.1 ≠ table || c.2 db r) && ownPredicate w r

theorem scopeByWorkspace_eq (w : Uuid) (tables : List TableName) :
    scopeByWorkspace (D := D) ⟨false, some w⟩ tables =
      .ok ((tables.filter filtered).map fun t => (t, criterionOf w t)) := by
  simp only [scopeByWorkspace, Bool.false_eq_true, if_false]
  split_ifs with hnone
  · rw [hnone]
    rfl
  · rfl

/-- The criterion of a table is among those of a statement when the table is filtered. -/
theorem all_criteria {tables : List TableName} {table : TableName} (htable : table ∈ tables)
    (db : List (Row D)) (r : Row D) :
    (((tables.filter filtered).map fun t => (t, criterionOf w t)).all fun c =>
      c.1 ≠ table || c.2 db r) = (!filtered table || criterionOf w table db r) := by
  rw [Bool.eq_iff_iff, List.all_map, List.all_eq_true]
  constructor
  · intro h
    cases hfiltered : filtered table with
    | false => rfl
    | true => simpa using h table (List.mem_filter.mpr ⟨htable, hfiltered⟩)
  · intro h t ht
    by_cases heq : t = table
    · subst heq
      rw [(List.mem_filter.mp ht).2] at h
      simpa using h
    · simp [heq]

theorem filtered_of_exempt {table : TableName} (h : table ∈ exemptTables) :
    filtered table = false := by
  revert h
  cases table <;> decide

/-- **The criteria of a statement** leave it the rows of the workspace. -/
theorem scopeByWorkspace_spec (w : Uuid) (tables : List TableName) :
    ∃ criteria : List (TableName × Criterion D),
      scopeByWorkspace ⟨false, some w⟩ tables = .ok criteria ∧
        ∀ table ∈ tables, Scoped table → ∀ db r,
          matched w criteria db table r = (r.table = table && visible w db r) := by
  refine ⟨_, scopeByWorkspace_eq w tables, fun table htable hscoped db r => ?_⟩
  rw [matched, all_criteria htable]
  by_cases hr : r.table = table
  · by_cases hexempt : table ∈ exemptTables
    · rw [filtered_of_exempt hexempt, visible_of_exempt hr hexempt]
      simp [hr, ownPredicate, hexempt]
    · have hfiltered : filtered table = true := decide_eq_true (hscoped.resolve_left hexempt)
      simp [hr, ownPredicate, hexempt, visible, hscoped, hfiltered]
  · simp [hr]

/-- **The criterion of a count** leaves it the rows of the workspace. -/
theorem workspaceCriterion_spec (w : Uuid) {table : TableName} (hscoped : Scoped table) :
    ∃ criterion : Option (Criterion D), workspaceCriterion ⟨false, some w⟩ table = .ok criterion ∧
      ∀ db r, r.table = table →
        (ownPredicate w r && criterion.all fun c => c db r) = visible w db r := by
  by_cases hexempt : table ∈ exemptTables
  · have hscope : tableScope table = some .systemScoped := by
      revert hexempt
      cases table <;> decide
    refine ⟨none, by simp [workspaceCriterion, hscope], ?_⟩
    rintro db r rfl
    simp [visible_of_exempt rfl hexempt, ownPredicate, hexempt]
  · have hscope : tableScope table = some .tenantScoped := if_pos (hscoped.resolve_left hexempt)
    refine ⟨some (criterionOf w table), by simp [workspaceCriterion, hscope], ?_⟩
    rintro db r rfl
    simp [visible, ownPredicate, hexempt, hscoped]

/-- `Pagination`. -/
structure Pagination where
  limit : ℕ
  offset : ℕ

/-- A query that is paginated, with an order. -/
structure Query (D : Type) where
  table : TableName
  where' : Row D → Bool
  orderBy : Row D → Row D → Bool

/-- What `paginate` returns. -/
structure Page (D : Type) where
  items : List (Row D)
  total : ℕ

def paginate (ctx : Context) (w : Uuid) (query : Query D) (page : Pagination) (db : List (Row D)) :
    Except QueryError (Page D) := do
  let criterion ← workspaceCriterion ctx query.table
  let where' := fun r => r.table = query.table && ownPredicate w r && query.where' r
  let counted := db.filter fun r => where' r && criterion.all fun c => c db r
  let criteria ← scopeByWorkspace ctx [query.table]
  let items := (db.filter fun r => matched w criteria db query.table r && query.where' r).mergeSort
    query.orderBy
  return ⟨(items.drop page.offset).take page.limit, counted.length⟩

/-- The `X-Has-More` of `set_page_headers`. -/
def hasMore (total : ℕ) (page : Pagination) : Bool := page.offset + page.limit < total

/-- What a query is about, in its order. -/
def Query.run (query : Query D) (rows : List (Row D)) : List (Row D) :=
  (rows.filter fun r => r.table = query.table && query.where' r).mergeSort query.orderBy

/-- **A page and its total** are of what the workspace sees. -/
theorem paginate_spec (query : Query D) (hscoped : Scoped query.table) (page : Pagination)
    (db : List (Row D)) :
    paginate ⟨false, some w⟩ w query page db =
      .ok ⟨((query.run (view w db)).drop page.offset).take page.limit,
        (query.run (view w db)).length⟩ := by
  obtain ⟨criterion, hcriterion, hcount⟩ := workspaceCriterion_spec (D := D) w hscoped
  obtain ⟨criteria, hcriteria, hrows⟩ := scopeByWorkspace_spec (D := D) w [query.table]
  have hitems : (db.filter fun r => matched w criteria db query.table r && query.where' r) =
      (view w db).filter fun r => r.table = query.table && query.where' r := by
    rw [view, List.filter_filter]
    refine List.filter_congr fun r _ => ?_
    rw [hrows query.table List.mem_cons_self hscoped, Bool.and_right_comm]
  have hcounted : (db.filter fun r => (r.table = query.table && ownPredicate w r &&
      query.where' r) && criterion.all fun c => c db r) =
        (view w db).filter fun r => r.table = query.table && query.where' r := by
    rw [view, List.filter_filter]
    refine List.filter_congr fun r _ => ?_
    by_cases hr : r.table = query.table
    · rw [← hcount db r hr]
      simp only [hr, decide_true, Bool.true_and]
      rw [Bool.and_right_comm, Bool.and_comm]
    · simp [hr]
  simp only [paginate, hcriterion, hcriteria]
  show Except.ok _ = Except.ok _
  rw [hitems, hcounted, Query.run, List.length_mergeSort]

/-- Without a workspace neither a query nor a count is made of a table that is filtered. -/
theorem paginate_unbound {query : Query D} (hfiltered : tableScope query.table = some .tenantScoped)
    (page : Pagination) (db : List (Row D)) :
    paginate ⟨false, none⟩ w query page db = .error (.tenancyNotBound [query.table]) := by
  simp only [paginate, workspaceCriterion, hfiltered]
  rfl

end ScanPlatform.QueryFilter

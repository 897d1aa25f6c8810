import ScanPlatform.Base.Checks
import ScanPlatform.Base.Uuid

/-!
# The guard of insertions

The rows that a flush inserts are checked against the bound workspace. A row of a table with a
workspace of its own is checked by that; a row of another table by a parent, if one is in the
session.

* `TableName`, `viaTables`, `tableScope`: the registry of the tables;
* `assertInsertAllowed`, `guardInserts`: the guard;
* `Refused`, **`guardInserts_eq_ok_iff`**: the rows that are refused;
* `chainEnd`, `ForeignChain`: whole chains of parents in the session;
* **`guard_sees_chains_iff`**: when the guard sees every chain, and refuses nothing else.
-/

set_option autoImplicit false

namespace ScanPlatform.InsertGuard

/-! ## The registry -/

/-- The tables of the mapper registry. -/
inductive TableName
  | users | roles | permissions | rolePermissions | workspaceMembers | refreshTokens
  | mfaRecoveryCodes | workspaces | projects | targets | authorizationScopes | scanSchedules
  | privateSites | scans | toolRuns | evidence | aiPlans | aiUsage | assets | vulnerabilities
  | vulnerabilityEvidence | vulnerabilityHistory | vulnerabilityLineage | remediations | riskScores
  | attackMappings | attackNarratives | complianceMappings | reports | notifications | apiKeys
  | auditEvents | platformAuditEvents | scannerWorkers | engagementState | agentSteps
  | agentDecisions | remediationItems | remediationEvents | remediationEvidence
  | verificationRequests | riskAcceptances | riskAssessments | riskAssessmentFindings
  deriving DecidableEq

/-- The columns that the guard reads, other than the primary key. -/
inductive Column
  | workspaceId
  | projectId
  | scanId
  | toolRunId
  | targetId
  | vulnerabilityId
  | newVulnerabilityId
  deriving DecidableEq

/-- `EXEMPT_TABLES`. -/
def exemptTables : List TableName := [.scans, .apiKeys, .scanSchedules, .scannerWorkers]

/-- `_DIRECT_TABLES`. -/
def directTables : List TableName :=
  [.workspaceMembers, .projects, .attackNarratives, .agentDecisions, .notifications, .auditEvents,
    .aiUsage, .engagementState, .agentSteps, .remediationItems, .remediationEvents,
    .remediationEvidence, .verificationRequests, .riskAcceptances, .riskAssessments,
    .riskAssessmentFindings, .privateSites]

/-- `_VIA_TABLES`; a table that is not there has no hops. -/
def viaTables : TableName → List (Column × TableName)
  | .targets => [(.projectId, .projects)]
  | .assets => [(.projectId, .projects)]
  | .vulnerabilities => [(.projectId, .projects)]
  | .reports => [(.projectId, .projects)]
  | .toolRuns => [(.scanId, .scans)]
  | .aiPlans => [(.scanId, .scans)]
  | .evidence => [(.toolRunId, .toolRuns), (.scanId, .scans)]
  | .authorizationScopes => [(.targetId, .targets), (.projectId, .projects)]
  | .vulnerabilityEvidence => [(.vulnerabilityId, .vulnerabilities), (.projectId, .projects)]
  | .vulnerabilityLineage => [(.newVulnerabilityId, .vulnerabilities), (.projectId, .projects)]
  | .vulnerabilityHistory => [(.vulnerabilityId, .vulnerabilities), (.projectId, .projects)]
  | .remediations => [(.vulnerabilityId, .vulnerabilities), (.projectId, .projects)]
  | .attackMappings => [(.vulnerabilityId, .vulnerabilities), (.projectId, .projects)]
  | .riskScores => [(.vulnerabilityId, .vulnerabilities), (.projectId, .projects)]
  | .complianceMappings => [(.vulnerabilityId, .vulnerabilities), (.projectId, .projects)]
  | _ => []

def userScopedTables : List TableName := [.users, .refreshTokens, .mfaRecoveryCodes]

def globalScopedTables : List TableName :=
  [.workspaces, .roles, .permissions, .rolePermissions, .platformAuditEvents]

inductive TableScope
  | tenantScoped
  | systemScoped
  | userScoped
  | globalScoped
  deriving DecidableEq

/-- `table_scope`; `none` is the `KeyError` of a table that is in no bucket. -/
def tableScope (table : TableName) : Option TableScope :=
  if table ∈ directTables ∨ viaTables table ≠ [] then some .tenantScoped
  else if table ∈ exemptTables then some .systemScoped
  else if table ∈ userScopedTables then some .userScoped
  else if table ∈ globalScopedTables then some .globalScoped
  else none

/-- Which of the columns the model of a table has. -/
def columnsOf : TableName → List Column
  | .users | .permissions | .rolePermissions | .refreshTokens | .mfaRecoveryCodes
  | .workspaces => []
  | .targets | .reports | .vulnerabilities => [.projectId]
  | .assets => [.projectId, .targetId]
  | .authorizationScopes => [.targetId]
  | .toolRuns | .aiPlans => [.scanId]
  | .evidence => [.toolRunId]
  | .vulnerabilityEvidence => [.vulnerabilityId, .toolRunId]
  | .vulnerabilityHistory => [.projectId, .vulnerabilityId, .scanId, .toolRunId]
  | .vulnerabilityLineage => [.projectId, .newVulnerabilityId]
  | .remediations | .riskScores | .attackMappings | .complianceMappings => [.vulnerabilityId]
  | .scans | .scanSchedules => [.workspaceId, .projectId, .targetId]
  | .attackNarratives | .engagementState | .agentSteps | .agentDecisions | .aiUsage
  | .verificationRequests => [.workspaceId, .scanId]
  | .notifications => [.workspaceId, .projectId, .scanId]
  | .remediationItems | .riskAcceptances => [.workspaceId, .projectId, .vulnerabilityId]
  | .riskAssessments => [.workspaceId, .projectId]
  | .riskAssessmentFindings => [.workspaceId, .vulnerabilityId]
  | .roles | .workspaceMembers | .projects | .privateSites | .apiKeys | .auditEvents
  | .platformAuditEvents | .scannerWorkers | .remediationEvents | .remediationEvidence =>
    [.workspaceId]

/-- Every table is in a bucket. -/
theorem tableScope_isSome (table : TableName) : (tableScope table).isSome = true := by
  cases table <;> rfl

/-- A table is in one bucket alone. -/
theorem viaTables_of_direct {table : TableName} (h : table ∈ directTables) :
    viaTables table = [] := by
  revert h
  cases table <;> decide

/-! ## Sessions -/

/-- An object of a session. -/
structure Obj where
  table : TableName
  id : Option Uuid
  /-- `getattr(obj, column, None)`. -/
  get : Column → Option Uuid
  columns : ∀ c, get c ≠ none → c ∈ columnsOf table

/-- What is loaded, and what is pending. -/
structure Session where
  identityMap : List Obj
  new : List Obj

inductive InsertError
  /-- The `KeyError` of `table_scope`. -/
  | unclassified (table : TableName)
  | tenancyNotBound (table : TableName)
  /-- `CrossTenantWriteError`, of a row with a workspace of its own. -/
  | crossTenantRow (table : TableName) (rowWs workspaceId : Uuid)
  /-- `CrossTenantWriteError`, of a row with a parent. -/
  | crossTenantParent (table parentTable : TableName) (parentId : Option Uuid)
      (parentWs workspaceId : Uuid)

/-- Whether the error is a `CrossTenantWriteError`. -/
def InsertError.crossTenant : InsertError → Bool
  | .crossTenantRow .. | .crossTenantParent .. => true
  | _ => false

/-! ## The guard -/

/-- `_resident_parent`. -/
def residentParent (session : Session) (parentTable : TableName) (parentId : Option Uuid) :
    Option Obj :=
  if parentId = none then none
  else (session.identityMap ++ session.new).find? fun obj =>
    obj.table = parentTable && obj.id = parentId

/-- The loop of `_assert_via_parent_allowed`; the first hop with a parent in the session decides. -/
def assertViaParentAllowed (session : Session) (obj : Obj) (workspaceId : Uuid) :
    List (Column × TableName) → Except InsertError Unit
  | [] => .ok ()
  | (fkAttr, parentTable) :: hops =>
    match residentParent session parentTable (obj.get fkAttr) with
    | none => assertViaParentAllowed session obj workspaceId hops
    | some parent =>
      match parent.get .workspaceId with
      | none => .ok ()
      | some parentWs =>
        if parentWs ≠ workspaceId then
          .error (.crossTenantParent obj.table parentTable (obj.get fkAttr) parentWs workspaceId)
        else .ok ()

/-- The body of the loop of `_assert_insert_allowed`. -/
def assertRowAllowed (currentWorkspaceId : Option Uuid) (session : Session) (obj : Obj) :
    Except InsertError Unit :=
  match tableScope obj.table with
  | none => .error (.unclassified obj.table)
  | some .tenantScoped =>
    match currentWorkspaceId with
    | none => .error (.tenancyNotBound obj.table)
    | some workspaceId =>
      if obj.table ∈ directTables then
        match obj.get .workspaceId with
        | none => .ok ()
        | some rowWs =>
          if rowWs ≠ workspaceId then .error (.crossTenantRow obj.table rowWs workspaceId)
          else .ok ()
      else assertViaParentAllowed session obj workspaceId (viaTables obj.table)
  | some _ => .ok ()

def assertInsertAllowed (bypass : Bool) (currentWorkspaceId : Option Uuid) (instances : List Obj)
    (session : Session) : Except InsertError Unit :=
  if bypass then .ok () else instances.forM (assertRowAllowed currentWorkspaceId session)

/-- The listener for `before_flush`. -/
def guardInserts (bypass : Bool) (currentWorkspaceId : Option Uuid) (session : Session) :
    Except InsertError Unit :=
  assertInsertAllowed bypass currentWorkspaceId session.new session

/-! ## Refused rows -/

variable {s : Session} {w : Uuid} {obj : Obj}

/-- The row has a workspace, and it is another one. -/
def Foreign (w : Uuid) (obj : Obj) : Prop := ∃ v, obj.get .workspaceId = some v ∧ v ≠ w

/-- The parent of a hop, looked up by the row itself. -/
def parentOf (s : Session) (obj : Obj) (hop : Column × TableName) : Option Obj :=
  residentParent s hop.2 (obj.get hop.1)

/-- A row is refused for its own workspace, or for that of the first of its own hops with a parent
in the session. -/
def Refused (s : Session) (w : Uuid) (obj : Obj) : Prop :=
  obj.table ∈ directTables ∧ Foreign w obj ∨
    ∃ p, (viaTables obj.table).findSome? (parentOf s obj) = some p ∧ Foreign w p

theorem assertViaParentAllowed_eq_ok_iff {hops : List (Column × TableName)} :
    assertViaParentAllowed s obj w hops = .ok () ↔
      ¬ ∃ p, hops.findSome? (parentOf s obj) = some p ∧ Foreign w p := by
  induction hops with
  | nil => simp [assertViaParentAllowed]
  | cons hop hops ih =>
    rw [assertViaParentAllowed, List.findSome?_cons]
    change (match parentOf s obj hop with
      | none => assertViaParentAllowed s obj w hops
      | some parent => _) = _ ↔ _
    cases parentOf s obj hop with
    | none => exact ih
    | some p =>
      cases hws : p.get .workspaceId with
      | none => simp [Foreign, hws]
      | some v => simp [Foreign, hws]

theorem assertRowAllowed_eq_ok_iff :
    assertRowAllowed (some w) s obj = .ok () ↔ ¬ Refused s w obj := by
  unfold assertRowAllowed Refused
  by_cases hdirect : obj.table ∈ directTables
  · have hscope : tableScope obj.table = some .tenantScoped := by simp [tableScope, hdirect]
    rw [hscope, viaTables_of_direct hdirect]
    cases hws : obj.get .workspaceId with
    | none => simp [Foreign, hdirect, hws]
    | some v => simp [Foreign, hdirect, hws]
  · by_cases hvia : viaTables obj.table = []
    · have hscope : tableScope obj.table ≠ some .tenantScoped := by
        simp only [tableScope, hdirect, hvia]
        grind
      obtain ⟨scope, hsome⟩ := Option.isSome_iff_exists.mp (tableScope_isSome obj.table)
      rw [hsome] at hscope ⊢
      cases scope with
      | tenantScoped => exact absurd rfl hscope
      | systemScoped => simp [hdirect, hvia]
      | userScoped => simp [hdirect, hvia]
      | globalScoped => simp [hdirect, hvia]
    · have hscope : tableScope obj.table = some .tenantScoped := by simp [tableScope, hvia]
      rw [hscope]
      simp only [hdirect, if_false, false_and, false_or]
      exact assertViaParentAllowed_eq_ok_iff

/-- **The guard refuses** a flush when it refuses one of the pending rows. -/
theorem guardInserts_eq_ok_iff :
    guardInserts false (some w) s = .ok () ↔ ∀ obj ∈ s.new, ¬ Refused s w obj := by
  rw [guardInserts, assertInsertAllowed, if_neg Bool.false_ne_true, Checks.forM_eq_ok]
  exact forall₂_congr fun _ _ => assertRowAllowed_eq_ok_iff

theorem crossTenant_of_assertViaParentAllowed {hops : List (Column × TableName)} {e : InsertError}
    (h : assertViaParentAllowed s obj w hops = .error e) : e.crossTenant = true := by
  induction hops with
  | nil => cases h
  | cons hop hops ih =>
    unfold assertViaParentAllowed at h
    split at h
    · exact ih h
    · split at h
      · cases h
      · split_ifs at h
        cases h
        rfl

/-- With a workspace bound, a refusal is a `CrossTenantWriteError`. -/
theorem crossTenant_of_guardInserts {e : InsertError}
    (h : guardInserts false (some w) s = .error e) : e.crossTenant = true := by
  rw [guardInserts, assertInsertAllowed, if_neg Bool.false_ne_true] at h
  obtain ⟨obj, -, hrow⟩ := Checks.forM_eq_error h
  unfold assertRowAllowed at hrow
  obtain ⟨scope, hscope⟩ := Option.isSome_iff_exists.mp (tableScope_isSome obj.table)
  rw [hscope] at hrow
  cases scope with
  | tenantScoped =>
    simp only at hrow
    split_ifs at hrow
    · split at hrow
      · cases hrow
      · split_ifs at hrow
        cases hrow
        rfl
    · exact crossTenant_of_assertViaParentAllowed hrow
  | systemScoped => cases hrow
  | userScoped => cases hrow
  | globalScoped => cases hrow

/-! ## Whole chains -/

/-- The row at the end of a chain of parents that are all in the session. -/
def chainEnd (s : Session) : Obj → List (Column × TableName) → Option Obj
  | obj, [] => some obj
  | obj, hop :: hops => (parentOf s obj hop).bind fun parent => chainEnd s parent hops

/-- The whole chain of the row is in the session, and it ends in a row that does not carry the
workspace. -/
def ForeignChain (s : Session) (w : Uuid) (obj : Obj) : Prop :=
  viaTables obj.table ≠ [] ∧
    ∃ last, chainEnd s obj (viaTables obj.table) = some last ∧ last.get .workspaceId ≠ some w

/-- A row that is judged by the workspace that it belongs to: its own, or that of its parent where
the chain has one hop. -/
def Judged (s : Session) (w : Uuid) (obj : Obj) : Prop :=
  obj.table ∈ directTables ∧ Foreign w obj ∨
    ∃ hop p, viaTables obj.table = [hop] ∧ parentOf s obj hop = some p ∧ Foreign w p

/-- A row with a foreign chain that is not looked at to its end: a chain of two hops, or a parent
that carries no workspace. -/
def Unjudged (s : Session) (w : Uuid) (obj : Obj) : Prop :=
  (∃ hop hop', viaTables obj.table = [hop, hop'] ∧ ForeignChain s w obj) ∨
    ∃ hop p, viaTables obj.table = [hop] ∧ parentOf s obj hop = some p ∧
      p.get .workspaceId = none

/-- A row whose first parent is not in the session, but whose own project is, and is foreign. -/
def Astray (s : Session) (w : Uuid) (obj : Obj) : Prop :=
  ∃ hop hop' p, viaTables obj.table = [hop, hop'] ∧ parentOf s obj hop = none ∧
    parentOf s obj hop' = some p ∧ Foreign w p

/-- A row of its own workspace that names none. -/
def Blank (obj : Obj) : Prop := obj.table ∈ directTables ∧ obj.get .workspaceId = none

/-- A chain has one hop or two. -/
theorem viaTables_cases (table : TableName) :
    viaTables table = [] ∨ (∃ hop, viaTables table = [hop]) ∨
      ∃ hop hop', viaTables table = [hop, hop'] := by
  cases table <;> simp [viaTables]

/-- The parent in the middle of a chain has no workspace of its own. -/
theorem no_workspace_of_two_hops {table : TableName} {hop hop' : Column × TableName}
    (h : viaTables table = [hop, hop']) : .workspaceId ∉ columnsOf hop.2 := by
  cases table <;> simp [viaTables] at h <;> obtain ⟨rfl, rfl⟩ := h <;> decide

theorem table_of_parentOf {hop : Column × TableName} {p : Obj} (h : parentOf s obj hop = some p) :
    p.table = hop.2 := by
  unfold parentOf residentParent at h
  split_ifs at h
  have hfound := List.find?_some h
  simp only [Bool.and_eq_true, decide_eq_true_eq] at hfound
  exact hfound.1

/-- The parent in the middle of a chain lets every row pass. -/
theorem not_foreign_of_two_hops {hop hop' : Column × TableName} {p : Obj}
    (h : viaTables obj.table = [hop, hop']) (hp : parentOf s obj hop = some p) : ¬ Foreign w p := by
  rintro ⟨v, hv, -⟩
  have hcolumn : .workspaceId ∈ columnsOf p.table := p.columns _ (by rw [hv]; simp)
  rw [table_of_parentOf hp] at hcolumn
  exact no_workspace_of_two_hops h hcolumn

theorem refused_iff : Refused s w obj ↔ Judged s w obj ∨ Astray s w obj := by
  unfold Refused Judged Astray
  rcases viaTables_cases obj.table with hnone | ⟨hop, hone⟩ | ⟨hop, hop', htwo⟩
  · simp [hnone]
  · simp [hone]
  · rw [htwo]
    cases hp : parentOf s obj hop with
    | none => grind
    | some p =>
      have hpass : ¬ Foreign w p := not_foreign_of_two_hops htwo hp
      grind

theorem foreign_iff : obj.table ∈ directTables ∧ Foreign w obj ∨ ForeignChain s w obj ↔
    Judged s w obj ∨ Unjudged s w obj := by
  unfold Judged Unjudged
  rcases viaTables_cases obj.table with hnone | ⟨hop, hone⟩ | ⟨hop, hop', htwo⟩
  · simp [hnone, ForeignChain]
  · have hchain : ForeignChain s w obj ↔
        ∃ p, parentOf s obj hop = some p ∧ p.get .workspaceId ≠ some w := by
      simp [ForeignChain, hone, chainEnd]
    have hsplit : ∀ p : Obj, p.get .workspaceId ≠ some w ↔
        Foreign w p ∨ p.get .workspaceId = none := by
      intro p
      cases hws : p.get .workspaceId with
      | none => simp [Foreign, hws]
      | some v => simp [Foreign, hws]
    rw [hchain]
    simp only [hsplit, hone]
    grind
  · simp [htwo]

/-- A pending row of a kind. -/
def SomePending (s : Session) (P : Obj → Prop) : Prop := ∃ obj ∈ s.new, P obj

theorem somePending_or {P Q : Obj → Prop} :
    SomePending s (fun obj => P obj ∨ Q obj) ↔ SomePending s P ∨ SomePending s Q := by
  simp only [SomePending, and_or_left, exists_or]

theorem not_somePending_iff {P : Obj → Prop} :
    ¬ SomePending s P ↔ ∀ obj ∈ s.new, ¬ P obj := by
  simp [SomePending]

theorem guardInserts_eq_ok_iff_judged :
    guardInserts false (some w) s = .ok () ↔
      ¬ SomePending s (Judged s w) ∧ ¬ SomePending s (Astray s w) := by
  rw [← not_or, ← somePending_or, not_somePending_iff, guardInserts_eq_ok_iff]
  exact forall₂_congr fun _ _ => not_congr refused_iff

/-- A flush is refused by a `CrossTenantWriteError`. -/
theorem exists_crossTenant_iff :
    (∃ e, guardInserts false (some w) s = .error e ∧ e.crossTenant = true) ↔
      SomePending s (Judged s w) ∨ SomePending s (Astray s w) := by
  have hok := guardInserts_eq_ok_iff_judged (s := s) (w := w)
  cases hguard : guardInserts false (some w) s with
  | error e =>
    refine iff_of_true ⟨e, rfl, crossTenant_of_guardInserts hguard⟩ ?_
    by_contra hnone
    rw [hok.mpr (not_or.mp hnone)] at hguard
    cases hguard
  | ok u =>
    refine iff_of_false (fun ⟨e, he, _⟩ => by cases he) ?_
    rw [not_or]
    exact hok.mp hguard

/-- **When the guard sees through the chains of the session**: it refuses every flush with a foreign
row or a foreign chain, and none where the rows and the chains are those of the workspace, exactly
when a row is judged by the workspace that it belongs to, or no row is unjudged or astray, or one is
astray where another is unjudged or blank. -/
theorem guard_sees_chains_iff :
    (((∃ obj ∈ s.new, obj.table ∈ directTables ∧ Foreign w obj ∨ ForeignChain s w obj) →
        ∃ e, guardInserts false (some w) s = .error e ∧ e.crossTenant = true) ∧
      ((∀ obj ∈ s.new, (obj.table ∈ directTables → obj.get .workspaceId = some w) ∧
          ¬ ForeignChain s w obj) → guardInserts false (some w) s = .ok ())) ↔
      (∃ obj ∈ s.new, Judged s w obj) ∨
        (∀ obj ∈ s.new, ¬ Unjudged s w obj ∧ ¬ Astray s w obj) ∨
        (∃ obj ∈ s.new, Astray s w obj) ∧ ∃ obj ∈ s.new, Unjudged s w obj ∨ Blank obj := by
  have hforeign : (∃ obj ∈ s.new, obj.table ∈ directTables ∧ Foreign w obj ∨
      ForeignChain s w obj) ↔ SomePending s (Judged s w) ∨ SomePending s (Unjudged s w) := by
    rw [← somePending_or]
    simp only [foreign_iff, SomePending]
  have hclean : (∀ obj ∈ s.new, (obj.table ∈ directTables → obj.get .workspaceId = some w) ∧
      ¬ ForeignChain s w obj) ↔
        ¬ ((SomePending s (Judged s w) ∨ SomePending s (Unjudged s w)) ∨ SomePending s Blank) := by
    rw [← somePending_or, ← somePending_or, not_somePending_iff]
    refine forall₂_congr fun obj _ => ?_
    rw [← foreign_iff]
    unfold Foreign Blank
    cases hws : obj.get .workspaceId with
    | none => grind
    | some v => grind
  have hleft : (∀ obj ∈ s.new, ¬ Unjudged s w obj ∧ ¬ Astray s w obj) ↔
      ¬ (SomePending s (Unjudged s w) ∨ SomePending s (Astray s w)) := by
    rw [← somePending_or, not_somePending_iff]
    exact forall₂_congr fun _ _ => not_or.symm
  have hmissed : (∃ obj ∈ s.new, Unjudged s w obj ∨ Blank obj) ↔
      SomePending s (Unjudged s w) ∨ SomePending s Blank := somePending_or
  rw [hforeign, hclean, hleft, hmissed, exists_crossTenant_iff, guardInserts_eq_ok_iff_judged]
  change _ ↔ SomePending s (Judged s w) ∨ _ ∨ SomePending s (Astray s w) ∧ _
  generalize SomePending s (Judged s w) = judged, SomePending s (Astray s w) = astray,
    SomePending s (Unjudged s w) = unjudged, SomePending s Blank = blank
  grind

section Lab

def labProject : Obj where
  table := .projects
  id := some 10
  get
    | .workspaceId => some 2
    | _ => none
  columns c h := by cases c <;> simp_all [columnsOf]

def labTarget : Obj where
  table := .targets
  id := some 11
  get
    | .projectId => some 10
    | _ => none
  columns c h := by cases c <;> simp_all [columnsOf]

def labScope : Obj where
  table := .authorizationScopes
  id := none
  get
    | .targetId => some 11
    | _ => none
  columns c h := by cases c <;> simp_all [columnsOf]

/-- An authorization is added to a target of another workspace that has been loaded. -/
def labSession : Session where
  identityMap := [labProject, labTarget]
  new := [labScope]

theorem foreign_chain_passes :
    ¬ ∀ (s : Session) (w : Uuid),
      ((∃ obj ∈ s.new, obj.table ∈ directTables ∧ Foreign w obj ∨ ForeignChain s w obj) →
        ∃ e, guardInserts false (some w) s = .error e ∧ e.crossTenant = true) ∧
      ((∀ obj ∈ s.new, (obj.table ∈ directTables → obj.get .workspaceId = some w) ∧
          ¬ ForeignChain s w obj) → guardInserts false (some w) s = .ok ()) := by
  intro h
  have hchain : ForeignChain labSession 1 labScope :=
    ⟨by decide, labProject, by rfl, by decide⟩
  obtain ⟨e, he, -⟩ := (h labSession 1).1 ⟨labScope, List.mem_singleton_self _, .inr hchain⟩
  have hpass : guardInserts false (some 1) labSession = .ok () := by rfl
  rw [hpass] at he
  cases he

end Lab

end ScanPlatform.InsertGuard

import ScanPlatform.Engine.Runner
import ScanPlatform.Manager.Db

/-!
# Authorization scopes

A target may be scanned while its newest authorization scope is verified and has not expired.
Submitting a scope adds an unverified row; only verifying it makes it count.

* `submitScope`, `verifyScope`, `currentScope`: the rows of a target;
* `requireVerifiedTarget`: the guardrail of scan creation and of `run_scan`;
* `ScopeAllows`: what the guardrail and the gate of active testing promise of a set of modules;
* `requireVerifiedTarget_ok`: the guardrail keeps its promise.
-/

set_option autoImplicit false

namespace ScanPlatform

def getProject (db : Db) (workspaceId projectId : Uuid) : Except Fault Project :=
  match (db.projects projectId).filter (·.workspaceId = workspaceId) with
  | none => .error (.http 404 "Project not found")
  | some project => .ok project

def getTarget (db : Db) (workspaceId projectId targetId : Uuid) : Except Fault Target := do
  let _ ← getProject db workspaceId projectId
  match (db.targets targetId).filter (·.projectId = projectId) with
  | none => .error (.http 404 "Target not found")
  | some target => .ok target

/-- The newest scope of a target. -/
def Db.currentScope (db : Db) (targetId : Uuid) : Option AuthorizationScope :=
  (db.scopes.filter (·.targetId = targetId)).maxOn? (·.createdAt)

def getCurrentScope (db : Db) (workspaceId projectId targetId : Uuid) :
    Except Fault AuthorizationScope := do
  let _ ← getTarget db workspaceId projectId targetId
  match db.currentScope targetId with
  | none => .error (.http 404 "No authorization scope submitted for this target")
  | some scope => .ok scope

/-- `submit_scope`: a fresh, unverified row. -/
def submitScope (db : Db) (now : ℤ) (id workspaceId projectId targetId : Uuid)
    (proofType proofReference : String) (scopeNotes : Option String) (expiresAt : Option ℤ) :
    Except Fault Db := do
  let _ ← getTarget db workspaceId projectId targetId
  return { db with
    scopes := db.scopes ++ [{
      id, targetId, proofType, proofReference, verified := false, verifiedBy := none
      verifiedAt := none, activeTestingAllowed := false, scopeNotes, expiresAt
      createdAt := now }] }

/-- `verify_scope`: the newest row of the target is verified. -/
def verifyScope (db : Db) (now : ℤ) (workspaceId projectId targetId verifierId : Uuid)
    (activeTestingAllowed : Bool) (expiresAt : Option ℤ) (scopeNotes : Option String) :
    Except Fault Db := do
  let current ← getCurrentScope db workspaceId projectId targetId
  let verified : AuthorizationScope := { current with
    verified := true, verifiedBy := some verifierId, verifiedAt := some now
    activeTestingAllowed
    expiresAt := expiresAt.or current.expiresAt
    scopeNotes := scopeNotes.or current.scopeNotes }
  return { db with
    scopes := db.scopes.map fun scope => if scope.id = current.id then verified else scope }

/-- `require_verified_target`, without the escape hatch of local development. -/
def requireVerifiedTarget (db : Db) (now : ℤ) (workspaceId projectId targetId : Uuid) :
    Except Fault AuthorizationScope :=
  match getCurrentScope db workspaceId projectId targetId with
  | .error (.http 404 _) =>
    .error (.http 403 "No authorization scope has been submitted for this target")
  | .error fault => .error fault
  | .ok scope =>
    if !scope.verified then
      .error (.http 403 "This target's authorization scope is not verified")
    else if scope.expiresAt.any (· < now) then
      .error (.http 403 "This target's authorization scope has expired")
    else .ok scope

/-! ## Histories -/

/-- A request that changes the scopes of a target. -/
inductive ScopeOp where
  | submit (now : ℤ) (id workspaceId projectId targetId : Uuid)
      (proofType proofReference : String) (scopeNotes : Option String) (expiresAt : Option ℤ)
  | verify (now : ℤ) (workspaceId projectId targetId verifierId : Uuid)
      (activeTestingAllowed : Bool) (expiresAt : Option ℤ) (scopeNotes : Option String)

def ScopeOp.apply (db : Db) : ScopeOp → Except Fault Db
  | .submit now id ws proj tgt ptype pref notes exp =>
    submitScope db now id ws proj tgt ptype pref notes exp
  | .verify now ws proj tgt who active exp notes =>
    verifyScope db now ws proj tgt who active exp notes

/-- The database after a history of requests; a refused request changes nothing. -/
def scopeHistory (db : Db) (ops : List ScopeOp) : Db :=
  ops.foldl (fun db op => (op.apply db).toOption.getD db) db

/-! ## The promise -/

/-- The newest scope of the target is verified and not expired at `t`, and it allows active testing
if one of the modules needs that. -/
def ScopeAllows (db : Db) (t : ℤ) (targetId : Uuid) (modules : List Json.Value) : Prop :=
  ∃ scope, db.currentScope targetId = some scope ∧ scope.verified = true ∧
    (∀ e ∈ scope.expiresAt, t ≤ e) ∧
    ∀ m, .str m ∈ modules → requiresActiveTesting m = true → scope.activeTestingAllowed = true

theorem requireVerifiedTarget_ok {db : Db} {now : ℤ} {ws proj tgt : Uuid}
    {scope : AuthorizationScope} (h : requireVerifiedTarget db now ws proj tgt = .ok scope) :
    db.currentScope tgt = some scope ∧ scope.verified = true ∧
      ∀ e ∈ scope.expiresAt, now ≤ e := by
  unfold requireVerifiedTarget at h
  split at h
  · cases h
  · cases h
  · rename_i s hs
    split_ifs at h with hv he
    cases h
    refine ⟨?_, by simpa using hv, ?_⟩
    · unfold getCurrentScope at hs
      cases htgt : getTarget db ws proj tgt with
      | error f => rw [htgt] at hs; cases hs
      | ok t =>
        rw [htgt] at hs
        cases hcur : db.currentScope tgt with
        | none => simp [hcur, bind, Except.bind] at hs
        | some s => simpa [hcur, bind, Except.bind] using hs
    · intro e hmem
      rw [Option.mem_def] at hmem
      simpa [hmem] using he

end ScanPlatform

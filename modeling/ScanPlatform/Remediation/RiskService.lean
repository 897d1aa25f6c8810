import ScanPlatform.Remediation.Workflow

/-!
# Revocation and expiry

An acceptance ends when it is revoked, or when the sweep finds that its time has passed. Both write
the acceptance and record an event for the item that it names.

* `revokeRiskAcceptance`, `RevocationCall.write`: a revocation, and what it writes;
* `expireDueAcceptances`, `expireAll`: the sweep of a workspace;
* `RemediationOperation`, `operationStep`: all calls of the remediation functions in progress at
  once.
-/

set_option autoImplicit false

namespace ScanPlatform

open Sessions

def AcceptanceStatus.text : AcceptanceStatus → String
  | .active => "active"
  | .expired => "expired"
  | .revoked => "revoked"

/-- The item that an acceptance names, if it is there. -/
def namedItem (a : RiskAcceptance) : RemediationTxn (Option Uuid) :=
  match a.remediationItemId with
  | none => pure none
  | some id => query fun _ db => .ok (if (db.items id).isSome then some id else none)

/-! ## Revocation -/

structure RevocationCall where
  workspaceId : Uuid
  projectId : Uuid
  acceptanceId : Uuid
  actorUserId : Uuid
  reason : String

/-- `_get_acceptance`. -/
def getAcceptance (workspaceId projectId acceptanceId : Uuid) (db : RemediationDb) :
    Except Fault RiskAcceptance :=
  match db.acceptances.find? fun a =>
      a.id = acceptanceId ∧ a.workspaceId = workspaceId ∧ a.projectId = projectId with
  | none => .error (.http 404 "Risk acceptance not found")
  | some a => .ok a

/-- An acceptance as a revocation leaves it. -/
def RiskAcceptance.revoke (call : RevocationCall) (now : ℤ) (a : RiskAcceptance) :
    RiskAcceptance :=
  { a with
    status := .revoked
    revokedBy := some call.actorUserId
    revokedAt := some now
    revokeReason := some call.reason }

/-- What a revocation writes, for an acceptance as the session has read it. -/
def RevocationCall.write (call : RevocationCall) (a : RiskAcceptance) (item : Option Uuid) :
    RemediationWrite := fun moment db =>
  let db := { db with
    acceptances := db.acceptances.map fun row =>
      if row.id = a.id then row.revoke call moment.now else row }
  .ok (item.elim db fun id => db.recordEvent id .riskAcceptanceRevoked (some call.actorUserId)
    none none (some ("acceptance=" ++ a.id.str ++ ": " ++ PyStr.upTo 200 call.reason)))

/-- `revoke_risk_acceptance`. -/
def revokeRiskAcceptance (call : RevocationCall) : RemediationTxn RemediationWrite := do
  let a ← query fun _ db => getAcceptance call.workspaceId call.projectId call.acceptanceId db
  raiseIf (a.status ≠ .active) (.http 409 (
    s!"Only an active acceptance can be revoked (this one is '{a.status.text}')"))
  let item ← namedItem a
  return call.write a item

/-! ## Expiry -/

/-- The acceptances that the sweep of a workspace finds due. -/
def dueAcceptances (workspaceId : Uuid) (now : ℤ) (db : RemediationDb) : List RiskAcceptance :=
  db.acceptances.filter fun a =>
    a.workspaceId = workspaceId ∧ a.status = .active ∧ a.expiresAt ≤ now

/-- The items that acceptances name, looked up one after the other. -/
def namedItems : List RiskAcceptance → RemediationTxn (List (Uuid × RiskAcceptance))
  | [] => pure []
  | a :: l => do
    let item ← namedItem a
    let items ← namedItems l
    return (item.map fun id => (id, a)).toList ++ items

/-- What the sweep writes. -/
def expireAll (due : List RiskAcceptance) (items : List (Uuid × RiskAcceptance)) :
    RemediationWrite := fun _ db =>
  let db := { db with
    acceptances := db.acceptances.map fun row =>
      if due.any (·.id = row.id) then { row with status := .expired } else row }
  .ok (items.foldl (fun db item => db.recordEvent item.1 .riskAcceptanceExpired none none none
    (some ("acceptance=" ++ item.2.id.str))) db)

/-- `expire_due_acceptances`. -/
def expireDueAcceptances (workspaceId : Uuid) : RemediationTxn RemediationWrite := do
  let due ← query fun moment db => .ok (dueAcceptances workspaceId moment.now db)
  if due.isEmpty then return fun _ db => .ok db
  else
    let items ← namedItems due
    return expireAll due items

/-! ## All operations -/

inductive RemediationOperation where
  | workflow (call : RemediationCall)
  | revokeRiskAcceptance (call : RevocationCall)
  | expireDueAcceptances (workspaceId : Uuid)

def RemediationOperation.prog (svc : RemediationServices) :
    RemediationOperation → RemediationTxn RemediationWrite
  | .workflow call => call.prog svc
  | .revokeRiskAcceptance call => ScanPlatform.revokeRiskAcceptance call
  | .expireDueAcceptances workspaceId => ScanPlatform.expireDueAcceptances workspaceId

abbrev OperationSystem := System RemediationOperation Moment RemediationDb Fault

abbrev OperationStep := Action RemediationOperation Moment Elsewhere

def operationStep (svc : RemediationServices) :
    OperationStep → OperationSystem → Option OperationSystem :=
  act (RemediationOperation.prog svc) Elsewhere.apply

/-- Nobody has called yet, and nothing has been recorded. -/
structure OperationSystem.Start (S : OperationSystem) : Prop where
  sessions : ∀ n, S.sessions n = none
  items : ∀ id, S.db.items id = none
  events : S.db.events = []
  requests : S.db.requests = []
  acceptances : S.db.acceptances = []

end ScanPlatform

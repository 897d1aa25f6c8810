import ScanPlatform.Base.Phases
import ScanPlatform.Base.Rows
import ScanPlatform.Billing.Creation

/-!
# The relay of queued scans

Scans that Celery dispatches. `create_scan` commits a row and then enqueues a message for it; the
relay enqueues another for a row that is still queued and names no task. Whoever takes a message up
claims the scan, which may be queued or failed.

* `Message`, `RelayDb`: the rows, the messages that have been enqueued, and the claims that they led
  to;
* `Session`, `Call`, `Session.advance`, `relayStep`: creations, sweeps, executions and whatever else
  writes to a row, between any two statements;
* `AtMostOnce`, `Single`: no entry into the queue is claimed by two messages, and a step that keeps
  it so;
* `Sound`, `Sound.wrote`: a queued scan has not been claimed since it entered the queue;
* **`at_most_once_iff`**, `failed_scan_claimed`: when no entry is claimed twice, and a run in which
  one is.
-/

set_option autoImplicit false

namespace ScanPlatform.Relay

open Phases

/-! ## Rows and messages -/

/-- A message of `scans.run_scan`; `entry` tells for which entry of the scan into the queue it has
been enqueued. -/
structure Message where
  scanId : Uuid
  entry : ℕ
  deriving DecidableEq

/-- A claim by the message of a number. -/
structure Claim where
  number : ℕ
  message : Message
  deriving DecidableEq

/-- `workspaces` keeps `status`; `entered` counts how often a scan has entered the queue. -/
structure RelayDb where
  scans : List ScanRow
  workspaces : Table Uuid String
  entered : Uuid → ℕ
  /-- Every message that has been enqueued, under its number. -/
  messages : List Message
  claims : List Claim

/-- Rows, of which no message has been enqueued. -/
def RelayDb.opened (scans : List ScanRow) (workspaces : Table Uuid String) : RelayDb :=
  ⟨scans, workspaces, fun _ => 0, [], []⟩

namespace RelayDb

def scan (d : RelayDb) (id : Uuid) : Option ScanRow := Rows.row ScanRow.id d.scans id

/-- The scan has entered the queue. -/
def enter (d : RelayDb) (id : Uuid) : RelayDb :=
  { d with entered := Function.update d.entered id (d.entered id + 1) }

/-- A row is inserted when its identifier is new and its workspace exists. -/
def insert (d : RelayDb) (row : ScanRow) : Option RelayDb :=
  if (d.scan row.id).isNone ∧ (d.workspaces row.workspaceId).isSome then
    some ({ d with scans := d.scans ++ [row] }.enter row.id)
  else none

def requeues : ScanStep → Bool
  | .requeue _ => true
  | .claim .. | .finalize .. | .reap .. | .cancel _ | .heartbeat .. => false

/-- An update of one row. -/
def setScan (d : RelayDb) (id : Uuid) (f : Scan → Scan) : RelayDb :=
  { d with scans := d.scans.map fun r => if r.id = id then { r with toScan := f r.toScan } else r }

/-- One of the updates of the lifecycle; a requeue enters the queue. -/
def write (d : RelayDb) (id : Uuid) (a : ScanStep) : Option RelayDb :=
  (d.scan id).bind fun r => (scanStep a r.toScan).map fun s =>
    if requeues a then (d.setScan id fun _ => s).enter id else d.setScan id fun _ => s

def delete (d : RelayDb) (id : Uuid) : RelayDb :=
  { d with scans := d.scans.filter fun r => r.id ≠ id }

def enqueue (d : RelayDb) (m : Message) : RelayDb := { d with messages := d.messages ++ [m] }

/-- The id of the task of a message. -/
def taskId (number : ℕ) : String := toString number

/-- What the relay selects, with the entries into the queue that it finds. -/
def undelivered (d : RelayDb) (cutoff : ℤ) : List Message :=
  (d.scans.filter fun r => r.status = .queued ∧ r.celeryTaskId = none ∧
    (d.workspaces r.workspaceId).any (· ≠ "deleting") ∧ r.queuedAt.getD r.createdAt < cutoff).map
      fun r => ⟨r.id, d.entered r.id⟩

/-- The relay's mark, unless the row has been claimed or dispatched. -/
def mark (d : RelayDb) (id : Uuid) (number : ℕ) : RelayDb :=
  d.setScan id fun s =>
    if s.status = .queued ∧ s.celeryTaskId = none then
      { s with celeryTaskId := some (taskId number) }
    else s

end RelayDb

/-! ## Sessions -/

/-- A session between two statements. -/
inductive Session where
  /-- `create_scan` is about to commit the row, to enqueue it, and to commit the id of its task. -/
  | creating (row : ScanRow)
  | dispatching (m : Message)
  | recording (scanId : Uuid) (number : ℕ)
  /-- A sweep of `_relay_queued` is about to select, to enqueue, and to mark a row. -/
  | selecting
  | relaying (ids : List Message)
  | marking (m : Message) (number : ℕ) (rest : List Message)
  /-- An execution is about to claim, and to write how it has ended. -/
  | executing (number : ℕ) (executionToken : Uuid)
  | running (scanId executionToken : Uuid)
  /-- Any other statement on the row: a shutdown, the reaper, a cancellation, a heartbeat, or the
  claim of a lease or of an operator's replay. -/
  | writing (scanId : Uuid) (a : ScanStep)
  | deleting (scanId : Uuid)
  | workspace (id : Uuid) (status : Option String)

/-- A session as it begins. -/
inductive Call where
  | create (workspaceId projectId targetId : Uuid) (config : Json.Object) (id initiatedBy : Uuid)
      (scanType : String) (now : ℤ)
  | relay
  | execute (number : ℕ) (executionToken : Uuid)
  | write (scanId : Uuid) (a : ScanStep)
  | delete (scanId : Uuid)
  | workspace (id : Uuid) (status : Option String)

def Call.start : Call → Session
  | .create workspaceId projectId targetId config id initiatedBy scanType now =>
    .creating { Scan.created workspaceId projectId targetId config now with
      id, initiatedBy, scanType, createdAt := now }
  | .relay => .selecting
  | .execute number executionToken => .executing number executionToken
  | .write scanId a => .writing scanId a
  | .delete scanId => .deleting scanId
  | .workspace id status => .workspace id status

/-- The time, whether the broker takes a message, and how an execution ends. -/
structure Moment where
  now : ℤ
  enqueues : Bool
  outcome : TerminalStatus

/-- `scan_queued_relay_seconds`. -/
structure RelaySettings where
  scanQueuedRelaySeconds : ℤ

/-- The row of a new scan is committed. -/
def commitScan (d : RelayDb) (row : ScanRow) : RelayDb × Option Session :=
  match d.insert row with
  | none => (d, none)
  | some d' => (d', some (.dispatching ⟨row.id, d'.entered row.id⟩))

/-- A message is taken up: the scan is loaded and claimed. -/
def takeUp (d : RelayDb) (now : ℤ) (number : ℕ) (executionToken : Uuid) :
    RelayDb × Option Session :=
  match d.messages[number]? with
  | none => (d, none)
  | some m =>
    match d.write m.scanId (.claim now executionToken) with
    | none => (d, none)
    | some d' => ({ d' with claims := d'.claims ++ [⟨number, m⟩] },
        some (.running m.scanId executionToken))

/-- The next statement of a session. An id whose message is not taken stays as it is, and the sweep
goes on. -/
def Session.advance (cfg : RelaySettings) (i : Moment) (d : RelayDb) :
    Session → RelayDb × Option Session
  | .creating row => commitScan d row
  | .dispatching m =>
    if i.enqueues then (d.enqueue m, some (.recording m.scanId d.messages.length)) else (d, none)
  | .recording scanId number =>
    (d.setScan scanId fun s => { s with celeryTaskId := some (RelayDb.taskId number) }, none)
  | .selecting =>
    (d, some (.relaying (d.undelivered (i.now - cfg.scanQueuedRelaySeconds * second))))
  | .relaying [] => (d, none)
  | .relaying (m :: rest) =>
    if i.enqueues then (d.enqueue m, some (.marking m d.messages.length rest))
    else (d, some (.relaying rest))
  | .marking m number rest => (d.mark m.scanId number, some (.relaying rest))
  | .executing number executionToken => takeUp d i.now number executionToken
  | .running scanId executionToken =>
    ((d.write scanId (.finalize i.now i.outcome executionToken)).getD d, none)
  | .writing scanId a => ((d.write scanId a).getD d, none)
  | .deleting scanId => (d.delete scanId, none)
  | .workspace id status => ({ d with workspaces := Function.update d.workspaces id status }, none)

abbrev RelayAction := Action Call Moment

abbrev RelaySystem := System RelayDb Session

/-- A session begins, takes its next statement, or crashes. -/
def relayStep (cfg : RelaySettings) : RelayAction → RelaySystem → Option RelaySystem :=
  act Call.start (Session.advance cfg)

/-! ## What is to hold -/

/-- No entry of a scan into the queue has been claimed by two messages. -/
def AtMostOnce (d : RelayDb) : Prop :=
  ∀ c ∈ d.claims, ∀ c' ∈ d.claims, c.message = c'.message → c.number = c'.number

/-- When the scan has failed, or has entered the queue again since the message was enqueued, no
other message for that entry has been executed. -/
def Single (d : RelayDb) (number : ℕ) : Prop :=
  ∀ m r, d.messages[number]? = some m → d.scan m.scanId = some r →
    r.status = .failed ∨ r.status = .queued ∧ m.entry ≠ d.entered m.scanId →
      ∀ c ∈ d.claims, c.message = m → c.number = number

/-- A message that is taken up is the single one. -/
def Safe (s : RelaySystem) (a : RelayAction) : Prop :=
  ∀ n i number executionToken, a = .advance n i →
    s.sessions n = some (.executing number executionToken) → Single s.db number

/-! ## What a step changes -/

variable {d d' : RelayDb} {cfg : RelaySettings} {i : Moment}

theorem scan_setScan (d : RelayDb) (id j : Uuid) (f : Scan → Scan) :
    (d.setScan id f).scan j = (d.scan j).map fun r =>
      if r.id = id then { r with toScan := f r.toScan } else r := by
  refine Rows.row_map (fun r => ?_) d.scans j
  split_ifs
  · rfl
  · rfl

theorem scan_id {id : Uuid} {r : ScanRow} (h : d.scan id = some r) : r.id = id := Rows.row_key h

/-- Another row is as it was. -/
theorem scan_setScan_of_ne {id j : Uuid} (h : j ≠ id) (f : Scan → Scan) :
    (d.setScan id f).scan j = d.scan j := by
  rw [scan_setScan]
  cases hr : d.scan j with
  | none => rfl
  | some r =>
    have hid : r.id ≠ id := fun heq => h ((scan_id hr).symm.trans heq)
    rw [Option.map_some, if_neg hid]

theorem scan_setScan_self {id : Uuid} {r : ScanRow} (h : d.scan id = some r) (f : Scan → Scan) :
    (d.setScan id f).scan id = some { r with toScan := f r.toScan } := by
  rw [scan_setScan, h, Option.map_some, if_pos (scan_id h)]

/-- A step that leaves a row queued has returned it to the queue. -/
theorem requeues_of_queued {a : ScanStep} {s s' : Scan} (h : scanStep a s = some s')
    (hqueued : s'.status = .queued) : RelayDb.requeues a = true := by
  cases a with
  | claim now tok =>
    rw [(claimScan_eq_some.mp h).2] at hqueued
    cases hqueued
  | finalize now st tok =>
    rw [(finalizeStatus_eq_some.mp h).2] at hqueued
    have hterminal := st.2
    rw [show st.1 = .queued from hqueued] at hterminal
    exact absurd hterminal (by decide)
  | reap now timeout stale =>
    rw [(reapOrphanedScans_eq_some.mp h).2] at hqueued
    cases hqueued
  | cancel now =>
    rw [(cancelScan_eq_some.mp h).2] at hqueued
    cases hqueued
  | requeue now => rfl
  | heartbeat now tok =>
    obtain ⟨⟨hrunning, -⟩, rfl⟩ := stampHeartbeat_eq_some.mp h
    rw [show s.status = .queued from hqueued] at hrunning
    cases hrunning

/-- What a write of `s` over the row of a scan leaves of the rest. -/
structure Wrote (d d' : RelayDb) (id : Uuid) (s : Scan) : Prop where
  row : ∃ r, d'.scan id = some r ∧ r.toScan = s
  others : ∀ j, j ≠ id → d'.scan j = d.scan j
  messages : d'.messages = d.messages
  claims : d'.claims = d.claims
  entered : d'.entered = d.entered ∧ s.status ≠ .queued ∨
    d'.entered = Function.update d.entered id (d.entered id + 1)

/-- **What a write to a row does.** -/
theorem write_eq_some {id : Uuid} {a : ScanStep} (h : d.write id a = some d') :
    ∃ r s, d.scan id = some r ∧ scanStep a r.toScan = some s ∧ Wrote d d' id s := by
  obtain ⟨r, hr, h⟩ := Option.bind_eq_some_iff.mp h
  obtain ⟨s, hs, rfl⟩ := Option.map_eq_some_iff.mp h
  refine ⟨r, s, hr, hs, ?_⟩
  have hrow := scan_setScan_self hr fun _ => s
  have hothers : ∀ j, j ≠ id → (d.setScan id fun _ => s).scan j = d.scan j := fun j hj =>
    scan_setScan_of_ne hj _
  split_ifs with ha
  · exact ⟨⟨_, hrow, rfl⟩, hothers, rfl, rfl, .inr rfl⟩
  · exact ⟨⟨_, hrow, rfl⟩, hothers, rfl, rfl,
      .inl ⟨rfl, fun hqueued => ha (requeues_of_queued hs hqueued)⟩⟩

/-- An insertion is a write of the new row. -/
theorem insert_eq_some {row : ScanRow} (h : d.insert row = some d') :
    Wrote d d' row.id row.toScan := by
  obtain ⟨⟨hfree, -⟩, rfl⟩ := CondMachine.guarded_eq_some.mp h
  have hscan : ∀ j, ({ d with scans := d.scans ++ [row] }.enter row.id).scan j =
      (d.scan j).or (if row.id = j then some row else none) := fun j =>
    Rows.row_append d.scans row j
  refine ⟨⟨row, ?_, rfl⟩, fun j hj => ?_, rfl, rfl, .inr rfl⟩
  · rw [hscan, Option.isNone_iff_eq_none.mp hfree, Option.none_or, if_pos rfl]
  · rw [hscan, if_neg hj.symm, Option.or_none]

/-! ## Queued scans -/

/-- Every message is for an entry that there has been, and a queued scan has not been claimed by a
message for its last entry. -/
structure Sound (d : RelayDb) : Prop where
  entries : ∀ m ∈ d.messages, m.entry ≤ d.entered m.scanId
  claimed : ∀ c ∈ d.claims, c.message ∈ d.messages
  fresh : ∀ id r, d.scan id = some r → r.status = .queued → ∀ c ∈ d.claims,
    c.message ≠ ⟨id, d.entered id⟩

/-- The messages that a session is about to enqueue are for entries that there have been. -/
def Session.Fits (d : RelayDb) : Session → Prop
  | .dispatching m => m.entry ≤ d.entered m.scanId
  | .relaying ids | .marking _ _ ids => ∀ m ∈ ids, m.entry ≤ d.entered m.scanId
  | .creating _ | .recording .. | .selecting | .executing .. | .running .. | .writing ..
  | .deleting _ | .workspace .. => True

/-- Scans go on entering the queue. -/
def Enters (d d' : RelayDb) : Prop := ∀ id, d.entered id ≤ d'.entered id

theorem Session.Fits.enters {x : Session} (h : x.Fits d) (hd : Enters d d') : x.Fits d' := by
  cases x with
  | dispatching m => exact le_trans h (hd _)
  | relaying ids => exact fun m hm => le_trans (h m hm) (hd _)
  | marking m number ids => exact fun m hm => le_trans (h m hm) (hd _)
  | creating | recording | selecting | executing | running | writing | deleting | workspace =>
    trivial

theorem Wrote.enters {id : Uuid} {s : Scan} (h : Wrote d d' id s) : Enters d d' := by
  intro j
  rcases h.entered with ⟨hsame, -⟩ | hnext
  · rw [hsame]
  · rw [hnext, Function.update_apply]
    split_ifs with hj
    · rw [hj]
      exact Nat.le_succ _
    · exact le_rfl

theorem Wrote.entered_of_ne {id j : Uuid} {s : Scan} (h : Wrote d d' id s) (hj : j ≠ id) :
    d'.entered j = d.entered j := by
  rcases h.entered with ⟨hsame, -⟩ | hnext
  · rw [hsame]
  · rw [hnext, Function.update_of_ne hj]

/-- **A write to a row keeps it so**: a scan that enters the queue has not been claimed since. -/
theorem Sound.wrote {id : Uuid} {s : Scan} (hd : Sound d) (h : Wrote d d' id s) : Sound d' where
  entries m hm := by
    rw [h.messages] at hm
    exact le_trans (hd.entries m hm) (h.enters _)
  claimed c hc := by
    rw [h.claims] at hc
    rw [h.messages]
    exact hd.claimed c hc
  fresh j r hr hqueued c hc heq := by
    rw [h.claims] at hc
    by_cases hj : j = id
    · subst hj
      obtain ⟨r', hr', rfl⟩ := h.row
      rw [hr] at hr'
      cases hr'
      rcases h.entered with ⟨-, hnot⟩ | hnext
      · exact hnot hqueued
      · have hle := hd.entries _ (hd.claimed c hc)
        rw [heq, hnext, Function.update_self] at hle
        exact absurd hle (Nat.not_succ_le_self _)
    · rw [h.others j hj] at hr
      rw [h.entered_of_ne hj] at heq
      exact hd.fresh j r hr hqueued c hc heq

/-- Nor does a change after which no other scan is queued. -/
theorem Sound.of_queued (hd : Sound d) (hmessages : d'.messages = d.messages)
    (hclaims : d'.claims = d.claims) (hentered : d'.entered = d.entered)
    (hqueued : ∀ id r', d'.scan id = some r' → r'.status = .queued →
      ∃ r, d.scan id = some r ∧ r.status = .queued) : Sound d' where
  entries m hm := by
    rw [hmessages] at hm
    rw [hentered]
    exact hd.entries m hm
  claimed c hc := by
    rw [hclaims] at hc
    rw [hmessages]
    exact hd.claimed c hc
  fresh j r' hr' hqueued' c hc := by
    obtain ⟨r, hr, hold⟩ := hqueued j r' hr' hqueued'
    rw [hclaims] at hc
    rw [hentered]
    exact hd.fresh j r hr hold c hc

/-- An update that leaves the status alone. -/
theorem Sound.setScan (hd : Sound d) (id : Uuid) {f : Scan → Scan}
    (hf : ∀ s, (f s).status = s.status) : Sound (d.setScan id f) := by
  refine hd.of_queued rfl rfl rfl fun j r' hr' hqueued => ?_
  rw [scan_setScan] at hr'
  obtain ⟨r, hr, rfl⟩ := Option.map_eq_some_iff.mp hr'
  refine ⟨r, hr, ?_⟩
  split_ifs at hqueued
  · exact (hf _).symm.trans hqueued
  · exact hqueued

theorem Sound.mark (hd : Sound d) (id : Uuid) (number : ℕ) : Sound (d.mark id number) := by
  refine hd.setScan id fun s => ?_
  split_ifs
  · rfl
  · rfl

theorem Sound.delete (hd : Sound d) (id : Uuid) : Sound (d.delete id) := by
  refine hd.of_queued rfl rfl rfl fun j r' hr' hqueued => ⟨r', ?_, hqueued⟩
  have hkept : (d.delete id).scan j = if j = id then none else d.scan j :=
    Rows.row_filter_ne d.scans j id
  rw [hkept] at hr'
  split_ifs at hr'
  exact hr'

theorem Sound.enqueue (hd : Sound d) {m : Message} (hm : m.entry ≤ d.entered m.scanId) :
    Sound (d.enqueue m) where
  entries m' hm' := by
    rcases List.mem_append.mp hm' with h | h
    · exact hd.entries m' h
    · rw [List.mem_singleton.mp h]
      exact hm
  claimed c hc := List.mem_append_left _ (hd.claimed c hc)
  fresh := hd.fresh

/-! ## Claims -/

/-- The claim that a message makes when it is taken up. -/
def RelayDb.claimable (d : RelayDb) (number : ℕ) : List Claim :=
  match d.messages[number]? with
  | none => []
  | some m =>
    if (d.scan m.scanId).any fun r => r.status = .queued ∨ r.status = .failed then [⟨number, m⟩]
    else []

/-- The claims that the next statement of a session makes. -/
def Session.claims (d : RelayDb) : Session → List Claim
  | .executing number _ => d.claimable number
  | _ => []

/-- A claim succeeds exactly when the scan is queued or has failed. -/
theorem claim_isSome (d : RelayDb) (id : Uuid) (now : ℤ) (tok : Uuid) :
    (d.write id (.claim now tok)).isSome =
      (d.scan id).any fun r => r.status = .queued ∨ r.status = .failed := by
  unfold RelayDb.write scanStep claimScan
  cases d.scan id with
  | none => rfl
  | some r =>
    by_cases hr : r.status = .queued ∨ r.status = .failed
    · simp [hr]
    · simp [not_or.mp hr]

/-- A message is taken up in vain, or the scan is claimed. -/
theorem takeUp_spec (d : RelayDb) (now : ℤ) (number : ℕ) (tok : Uuid) :
    (takeUp d now number tok = (d, none) ∧ d.claimable number = []) ∨
    ∃ m d', d.messages[number]? = some m ∧ d.write m.scanId (.claim now tok) = some d' ∧
      d.claimable number = [⟨number, m⟩] ∧
      takeUp d now number tok = ({ d' with claims := d'.claims ++ [⟨number, m⟩] },
        some (.running m.scanId tok)) := by
  unfold takeUp RelayDb.claimable
  cases d.messages[number]? with
  | none => exact .inl ⟨rfl, rfl⟩
  | some m =>
    dsimp only
    rw [← claim_isSome d m.scanId now tok]
    cases hw : d.write m.scanId (.claim now tok) with
    | none => exact .inl ⟨rfl, rfl⟩
    | some d' => exact .inr ⟨m, d', rfl, hw, rfl, rfl⟩

/-- A message that claims its scan. -/
theorem Sound.claim {m : Message} {now : ℤ} {number : ℕ} {tok : Uuid} (hd : Sound d)
    (hm : d.messages[number]? = some m) (h : d.write m.scanId (.claim now tok) = some d') :
    Sound { d' with claims := d'.claims ++ [⟨number, m⟩] } := by
  obtain ⟨r, s, hr, hs, hwrote⟩ := write_eq_some h
  have hd' := hd.wrote hwrote
  obtain ⟨r', hr', hrunning⟩ := hwrote.row
  refine ⟨hd'.entries, fun c hc => ?_, fun j r₁ hr₁ hqueued c hc heq => ?_⟩
  · rcases List.mem_append.mp hc with hc | hc
    · exact hd'.claimed c hc
    · rw [List.mem_singleton.mp hc, hwrote.messages]
      exact List.mem_of_getElem? hm
  · rcases List.mem_append.mp hc with hc | hc
    · exact hd'.fresh j r₁ hr₁ hqueued c hc heq
    · -- The scan that has been claimed is running.
      rw [List.mem_singleton.mp hc] at heq
      have hj : j = m.scanId := congrArg Message.scanId heq.symm
      rw [hj] at hr₁
      cases hr'.symm.trans hr₁
      rw [hrunning, (claimScan_eq_some.mp hs).2] at hqueued
      cases hqueued

/-- A statement on a row, matched or not. -/
theorem getD_write (hd : Sound d) (id : Uuid) (a : ScanStep) :
    Sound ((d.write id a).getD d) ∧ Enters d ((d.write id a).getD d) ∧
      ((d.write id a).getD d).claims = d.claims := by
  cases hw : d.write id a with
  | none => exact ⟨hd, fun _ => le_rfl, rfl⟩
  | some d' =>
    obtain ⟨_, _, -, -, hwrote⟩ := write_eq_some hw
    exact ⟨hd.wrote hwrote, hwrote.enters, hwrote.claims⟩

/-- **What the next statement of a session does**: it keeps the invariant, and claims what it is
about to claim. -/
theorem advance_spec (cfg : RelaySettings) (i : Moment) (hd : Sound d) {x : Session}
    (hx : x.Fits d) :
    (Sound (x.advance cfg i d).1 ∧ Enters d (x.advance cfg i d).1 ∧
      ∀ x' ∈ (x.advance cfg i d).2, x'.Fits (x.advance cfg i d).1) ∧
    (x.advance cfg i d).1.claims = d.claims ++ x.claims d := by
  have hstay : Enters d d := fun _ => le_rfl
  have hnone : ∀ d' : RelayDb, ∀ x' ∈ (none : Option Session), x'.Fits d' := fun _ _ h =>
    absurd h (Option.not_mem_none _)
  have hsame := (List.append_nil d.claims).symm
  cases x with
  | creating row =>
    simp only [Session.advance, commitScan]
    cases hinsert : d.insert row with
    | none => exact ⟨⟨hd, hstay, hnone _⟩, hsame⟩
    | some d' =>
      have hwrote := insert_eq_some hinsert
      refine ⟨⟨hd.wrote hwrote, hwrote.enters, fun x' hx' => ?_⟩, hwrote.claims.trans hsame⟩
      cases hx'
      exact le_rfl
  | dispatching m =>
    simp only [Session.advance]
    split_ifs
    · refine ⟨⟨hd.enqueue hx, hstay, fun x' hx' => ?_⟩, hsame⟩
      cases hx'
      trivial
    · exact ⟨⟨hd, hstay, hnone _⟩, hsame⟩
  | recording scanId number =>
    have hrecorded : Sound (d.setScan scanId fun s =>
        { s with celeryTaskId := some (RelayDb.taskId number) }) := hd.setScan scanId fun _ => rfl
    exact ⟨⟨hrecorded, hstay, hnone _⟩, hsame⟩
  | selecting =>
    refine ⟨⟨hd, hstay, fun x' hx' => ?_⟩, hsame⟩
    cases hx'
    intro m hm
    obtain ⟨r, -, rfl⟩ := List.mem_map.mp hm
    exact le_rfl
  | relaying ids =>
    cases ids with
    | nil => exact ⟨⟨hd, hstay, hnone _⟩, hsame⟩
    | cons m rest =>
      have hrest : ∀ m ∈ rest, m.entry ≤ d.entered m.scanId := fun m hm =>
        hx m (List.mem_cons_of_mem _ hm)
      simp only [Session.advance]
      split_ifs
      · refine ⟨⟨hd.enqueue (hx m List.mem_cons_self), hstay, fun x' hx' => ?_⟩, hsame⟩
        cases hx'
        exact hrest
      · refine ⟨⟨hd, hstay, fun x' hx' => ?_⟩, hsame⟩
        cases hx'
        exact hrest
  | marking m number rest =>
    refine ⟨⟨hd.mark m.scanId number, hstay, fun x' hx' => ?_⟩, hsame⟩
    cases hx'
    exact hx
  | executing number tok =>
    simp only [Session.advance, Session.claims]
    rcases takeUp_spec d i.now number tok with ⟨htake, hclaims⟩ | ⟨m, d', hm, hw, hclaims, htake⟩
    · rw [htake, hclaims]
      exact ⟨⟨hd, hstay, hnone _⟩, hsame⟩
    · rw [htake, hclaims]
      obtain ⟨_, _, -, -, hwrote⟩ := write_eq_some hw
      refine ⟨⟨hd.claim hm hw, hwrote.enters, fun x' hx' => ?_⟩, ?_⟩
      · cases hx'
        trivial
      · rw [← hwrote.claims]
  | running scanId tok =>
    obtain ⟨hsound, henters, hclaims⟩ := getD_write hd scanId (.finalize i.now i.outcome tok)
    exact ⟨⟨hsound, henters, hnone _⟩, hclaims.trans hsame⟩
  | writing scanId a =>
    obtain ⟨hsound, henters, hclaims⟩ := getD_write hd scanId a
    exact ⟨⟨hsound, henters, hnone _⟩, hclaims.trans hsame⟩
  | deleting scanId => exact ⟨⟨hd.delete scanId, hstay, hnone _⟩, hsame⟩
  | workspace id status =>
    exact ⟨⟨hd.of_queued rfl rfl rfl fun _ r hr hqueued => ⟨r, hr, hqueued⟩, hstay, hnone _⟩, hsame⟩

/-! ## At most one claim for an entry -/

/-- The invariant of a run. -/
def Inv (s : RelaySystem) : Prop := Fit Sound Session.Fits s

theorem inv_step (s : RelaySystem) (a : RelayAction) (s' : RelaySystem) (hs : Inv s)
    (h : relayStep cfg a s = some s') : Inv s' := by
  refine Fit.act (R := Enters) hs (fun c => ?_) (fun n i x ha hx => ?_)
    (fun x d hx hd => hx.enters hd) h
  · cases c <;> trivial
  · exact (advance_spec cfg i hs.inv (hs.fits n x hx)).1

theorem inv_init (scans : List ScanRow) (workspaces : Table Uuid String) :
    Inv (.init (.opened scans workspaces)) :=
  .init ⟨fun _ h => absurd h List.not_mem_nil, fun _ h => absurd h List.not_mem_nil,
    fun _ _ _ _ _ h => absurd h List.not_mem_nil⟩

/-- Claims are not taken back. -/
theorem claims_step {s s' : RelaySystem} {a : RelayAction} (hs : Inv s)
    (h : relayStep cfg a s = some s') : ∀ c ∈ s.db.claims, c ∈ s'.db.claims := by
  rcases act_cases h with ⟨n, c, -, -, rfl⟩ | ⟨n, i, x, rfl, hx, rfl⟩ | ⟨n, -, rfl⟩
  · exact fun _ hc => hc
  · intro c hc
    rw [(advance_spec cfg i hs.inv (hs.fits n x hx)).2]
    exact List.mem_append_left _ hc
  · exact fun _ hc => hc

/-- A claim more. -/
theorem atMostOnce_append (honce : AtMostOnce d) {c : Claim}
    (hclaims : d'.claims = d.claims ++ [c]) :
    AtMostOnce d' ↔ ∀ c' ∈ d.claims, c'.message = c.message → c'.number = c.number := by
  have hlast : c ∈ d'.claims := by
    rw [hclaims]
    exact List.mem_append_right _ (List.mem_singleton_self c)
  constructor
  · intro h c' hc' heq
    refine h c' ?_ c hlast heq
    rw [hclaims]
    exact List.mem_append_left _ hc'
  · intro h c₁ h₁ c₂ h₂ heq
    rw [hclaims, List.mem_append, List.mem_singleton] at h₁ h₂
    rcases h₁ with h₁ | rfl
    · rcases h₂ with h₂ | rfl
      · exact honce c₁ h₁ c₂ h₂ heq
      · exact h c₁ h₁ heq
    · rcases h₂ with h₂ | rfl
      · exact (h c₂ h₂ heq.symm).symm
      · rfl

theorem atMostOnce_congr (hclaims : d'.claims = d.claims) : AtMostOnce d' ↔ AtMostOnce d := by
  unfold AtMostOnce
  rw [hclaims]

/-- **A message that is taken up keeps every entry claimed once** exactly when it is the single
one. -/
theorem atMostOnce_claimable (hd : Sound d) (honce : AtMostOnce d) {number : ℕ}
    (hclaims : d'.claims = d.claims ++ d.claimable number) : AtMostOnce d' ↔ Single d number := by
  have hidle : d.claimable number = [] → (AtMostOnce d' ↔ AtMostOnce d) := fun h =>
    atMostOnce_congr (by rw [hclaims, h, List.append_nil])
  unfold RelayDb.claimable at hclaims hidle
  cases hm : d.messages[number]? with
  | none =>
    rw [hm] at hidle
    refine (hidle rfl).trans (iff_of_true honce fun m r hm' => ?_)
    rw [hm] at hm'
    cases hm'
  | some m =>
    rw [hm] at hclaims hidle
    dsimp only at hclaims hidle
    split_ifs at hclaims hidle with hclaimable
    · refine (atMostOnce_append honce hclaims).trans
        ⟨fun h m' r hm' _ _ => ?_, fun h c hc heq => ?_⟩
      · rw [hm] at hm'
        cases hm'
        exact h
      · obtain ⟨r, hr, hstatus⟩ := (Option.any_eq_true _ _).mp hclaimable
        refine h m r hm hr ?_ c hc heq
        rcases of_decide_eq_true hstatus with hqueued | hfailed
        · -- The last entry of a queued scan has not been claimed by anyone.
          refine .inr ⟨hqueued, fun hentry => hd.fresh _ r hr hqueued c hc (heq.trans ?_)⟩
          rw [← hentry]
        · exact .inl hfailed
    · refine (hidle rfl).trans (iff_of_true honce fun m' r hm' hr hstatus => ?_)
      rw [hm] at hm'
      cases hm'
      rw [hr] at hclaimable
      refine absurd ?_ hclaimable
      rcases hstatus with h | h
      · simp [h]
      · simp [h.1]

theorem atMostOnce_next {s : RelaySystem} {a : RelayAction} (hs : Inv s) (honce : AtMostOnce s.db) :
    AtMostOnce (CondMachine.next (relayStep cfg) s a).db ↔ Safe s a := by
  have hidle : (CondMachine.next (relayStep cfg) s a).db.claims = s.db.claims →
      (∀ n i number tok, a = .advance n i → s.sessions n ≠ some (.executing number tok)) →
      (AtMostOnce (CondMachine.next (relayStep cfg) s a).db ↔ Safe s a) := fun hclaims hne =>
    iff_of_true ((atMostOnce_congr hclaims).mpr honce) fun n i number tok ha hx =>
      absurd hx (hne n i number tok ha)
  cases a with
  | call n c =>
    refine hidle ?_ fun n i number tok ha => by cases ha
    rcases CondMachine.next_cases (relayStep cfg) s (.call n c) with h | ⟨-, h⟩
    · obtain ⟨-, heq⟩ := CondMachine.guarded_eq_some.mp h
      rw [heq]
    · rw [h]
  | drop n => exact hidle rfl fun n i number tok ha => by cases ha
  | advance n i =>
    cases hx : s.sessions n with
    | none =>
      have hstep : relayStep cfg (.advance n i) s = none := by
        rw [relayStep, act, hx, Option.map_none]
      refine hidle (by rw [CondMachine.next_none hstep]) fun m j number tok ha hm => ?_
      cases ha
      rw [hx] at hm
      cases hm
    | some x =>
      have hclaims := (advance_spec cfg i hs.inv (hs.fits n x hx)).2
      have hnext : (CondMachine.next (relayStep cfg) s (.advance n i)).db =
          (x.advance cfg i s.db).1 := congrArg System.db (next_advance i hx)
      rw [← hnext] at hclaims
      by_cases hexecuting : ∃ number tok, x = .executing number tok
      · obtain ⟨number, tok, rfl⟩ := hexecuting
        refine (atMostOnce_claimable hs.inv honce hclaims).trans ⟨fun h => ?_, fun h => ?_⟩
        · intro m j number' tok' ha hm
          cases ha
          rw [hx] at hm
          cases hm
          exact h
        · exact h n i number tok rfl hx
      · refine hidle ?_ fun m j number tok ha hm => ?_
        · rw [hclaims]
          cases x with
          | executing number tok => exact absurd ⟨number, tok, rfl⟩ hexecuting
          | creating | dispatching | recording | selecting | relaying | marking | running | writing
          | deleting | workspace => exact List.append_nil _
        · cases ha
          rw [hx] at hm
          cases hm
          exact hexecuting ⟨number, tok, rfl⟩

/-- A scan whose request crashed before it was enqueued, in an active workspace. -/
def strandedScan : ScanRow :=
  { Scan.created 1 2 3 [] 0 with id := 4, initiatedBy := 5, scanType := "full", createdAt := 0 }

def strandedDb : RelayDb := .opened [strandedScan] fun id => if id = 1 then some "active" else none

def anHourLater : Moment := ⟨3600 * second, true, ⟨.failed, failed_terminal⟩⟩

/-- Two sweeps overlap; the first message is executed and fails, and then the second is taken up. -/
def overlappingSweeps : List RelayAction :=
  [.call 0 .relay, .call 1 .relay, .advance 0 anHourLater, .advance 1 anHourLater,
    .advance 0 anHourLater, .advance 1 anHourLater, .advance 0 anHourLater, .advance 1 anHourLater,
    .call 2 (.execute 0 7), .advance 2 anHourLater, .advance 2 anHourLater,
    .call 3 (.execute 1 8), .advance 3 anHourLater]

end ScanPlatform.Relay

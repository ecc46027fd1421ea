import Deadbolt.Execution.Sweeps

/-!
# The database of one organization

Runs with their children, the rows other services own (workers, sessions, admission,
deployments, recovery controls), and the queries the engine selects its work with. A
query that skips locked rows takes the runs other transactions hold as an argument; a
`LIMIT` is a `take` after the order.
-/

namespace Deadbolt.Execution

open Base Contracts Artifacts

/-! ### Rows of other services -/

inductive WorkerStatus where
  | active | draining | revoked
  deriving DecidableEq

structure Worker where
  environmentID : EnvironmentID
  poolName : String
  status : WorkerStatus

/-- A row of `worker_sessions` with its `worker_deployments`. -/
structure Session where
  workerID : WorkerID
  environmentID : EnvironmentID
  expiresAt : Time
  revokedAt : Option Time
  bundles : List String

/-- A row of `environment_admissions`. The token bucket is kept as the time it takes to
refill: one token is 200 ms, ten tokens are the most. -/
structure Admission where
  maxConcurrency : Int
  createCredit : Time
  createRateUpdatedAt : Time

inductive RecoveryMode where
  | active | readOnly | draining | disasterRecovery | resuming
  deriving DecidableEq

def RecoveryMode.closed : RecoveryMode → Bool
  | .readOnly | .disasterRecovery => true
  | _ => false

/-- The row of `system_recovery_controls`. -/
structure Controls where
  admissionEnabled : Bool
  dispatchEnabled : Bool
  mode : RecoveryMode

/-- The rows the engine reads and other services own. -/
structure Fleet where
  workers : Table WorkerID Worker
  sessions : Table SessionID Session
  admissions : Table EnvironmentID Admission
  deployments : Table DeploymentID Deployment
  channels : List ((EnvironmentID × String) × DeploymentID)
  controls : Option Controls

structure IdempotencyRecord where
  environmentID : EnvironmentID
  keyHash : String
  requestHash : String
  runID : RunID

structure Db where
  runs : Table RunID Run
  fleet : Fleet
  records : List IdempotencyRecord
  sys : Sys

abbrev DbTx := Tx Db EngineError

/-! ### Runs as parts of the database -/

namespace Db

def scope? (id : RunID) (db : Db) : Option RunScope :=
  (db.runs.find? id).map fun r => ⟨id, r, db.sys⟩

def putScope (id : RunID) (c : RunScope) (db : Db) : Db :=
  { db with runs := db.runs.modify id fun _ => c.run, sys := c.sys }

def runsByID (db : Db) : List (RunID × Run) := db.runs.rows.insertionSort fun a b => a.1 ≤ b.1

def runOfAttempt? (db : Db) (id : AttemptID) : Option RunID :=
  (db.runs.rows.find? fun e => (e.2.attempt? id).isSome).map Prod.fst

def stepOfCase? (db : Db) (id : CaseID) : Option (RunID × StepID) :=
  db.runs.rows.findSome? fun e =>
    (e.2.steps.rows.find? fun s => s.2.cases.any fun c => c.id == id).map fun s => (e.1, s.1)

def stepOfApproval? (db : Db) (id : ApprovalID) : Option (RunID × StepID × String) :=
  db.runs.rows.findSome? fun e =>
    (e.2.steps.rows.find? fun s => s.2.approval.any fun a => a.id == id).map
      fun s => (e.1, s.1, s.2.nodeID)

end Db

def onRun {α : Type} (id : RunID) (x : RunTx α) : DbTx α :=
  Tx.zoom (Db.scope? id) (Db.putScope id) .runNotFound x

def dbClock [Platform] : DbTx Time := do
  let now ← Tx.read fun db => Platform.clock db.sys.ticks
  Tx.write fun db => { db with sys := { db.sys with ticks := db.sys.ticks + 1 } }
  return now

def dbNewID [Platform] : DbTx Nat := do
  let id ← Tx.read fun db => Platform.uuid db.sys.draws
  Tx.write fun db => { db with sys := { db.sys with draws := db.sys.draws + 1 } }
  return id

/-! ### Queries -/

structure DueTimer where
  runID : RunID
  stepID : StepID
  timerID : TimerID
  dueAt : Time
  deriving DecidableEq

structure DueApproval where
  runID : RunID
  stepID : StepID
  nodeID : String
  approvalID : ApprovalID
  expiresAt : Time
  deriving DecidableEq

namespace Run

def dueTimers (r : Run) (id : RunID) (kind : TimerKind) (now : Time) : List DueTimer :=
  r.steps.rows.flatMap fun e =>
    (e.2.timers.filter fun t => t.kind == kind && t.state == .pending && decide (t.dueAt ≤ now)).map
      fun t => ⟨id, e.1, t.id, t.dueAt⟩

def dueApprovals (r : Run) (id : RunID) (now : Time) : List DueApproval :=
  r.steps.rows.filterMap fun e =>
    match e.2.approval with
    | none => none
    | some a =>
      match a.expiresAt with
      | none => none
      | some t =>
        if a.status = .pending ∧ t ≤ now then some ⟨id, e.1, e.2.nodeID, a.id, t⟩ else none

/-- The run tests of the claim snapshot, `internal/execution/worker_engine.go:1168-1176`. -/
def claimable (r : Run) (now : Time) : Bool :=
  (r.status.active || (r.status == .waiting && r.reasonCode == some "QUOTA_WAIT")) &&
    !r.pauseRequested && !r.overdue now && !r.hasOpenCase

/-- A `READY` step whose time has come. -/
def hasEligibleReady (r : Run) (now : Time) : Bool :=
  r.anyStep fun s => s.state == .ready && s.eligibleAt.any fun t => decide (t ≤ now)

def unexpiredLeases (r : Run) (now : Time) : List Lease :=
  r.steps.rows.filterMap fun e => e.2.lease.filter fun l => decide (now < l.expiresAt)

end Run

namespace Db

/-- The due timers of a kind in firing order. -/
def dueTimers (db : Db) (kind : TimerKind) (now : Time) : List DueTimer :=
  (db.runs.rows.flatMap fun e => e.2.dueTimers e.1 kind now).insertionSort
    fun a b => a.dueAt < b.dueAt ∨ (a.dueAt = b.dueAt ∧ a.timerID ≤ b.timerID)

/-- The expired approvals in expiry order. -/
def dueApprovals (db : Db) (now : Time) : List DueApproval :=
  (db.runs.rows.flatMap fun e => e.2.dueApprovals e.1 now).insertionSort
    fun a b => a.expiresAt ≤ b.expiresAt

/-- The expired-lease query, `worker_engine.go:3212-3235`. -/
def expiredAttempts (db : Db) (now : Time) (locked : List RunID) :
    List (RunID × StepID × AttemptID) :=
  db.runsByID.flatMap fun e =>
    if locked.contains e.1 then [] else (e.2.expiredAttempts now).map fun c => (e.1, c)

/-- The handoff query, `worker_engine.go:3264-3280`. -/
def handoffSteps (db : Db) (locked : List RunID) : List (RunID × StepID) :=
  db.runsByID.flatMap fun e =>
    if locked.contains e.1 then [] else e.2.handoffSteps.map fun s => (e.1, s)

/-- The overdue-run query, `cancel.go:353-366`. -/
def overdueRuns (db : Db) (now : Time) : List RunID :=
  (db.runsByID.filter fun e => e.2.overdueSelected now).map Prod.fst

/-- The query of `settleCancellingRunsTx`. -/
def cancellingRuns (db : Db) : List RunID :=
  (db.runsByID.filter fun e => e.2.status == .cancelling).map Prod.fst

/-- `checked_at NULLS FIRST, id`. -/
def checkedBefore (a b : RunID × Run) : Bool :=
  match a.2.reconciliationCheckedAt, b.2.reconciliationCheckedAt with
  | none, none => decide (a.1 ≤ b.1)
  | none, some _ => true
  | some _, none => false
  | some s, some t => decide (s < t) || (decide (s = t) && decide (a.1 ≤ b.1))

/-- The candidates of `ReconcileReadyWork`, `worker_engine.go:3065-3088`: the
first unchecked run of every environment, then the second ones, and so on. -/
def readyWorkRuns (db : Db) (locked : List RunID) : List RunID :=
  let candidates := db.runs.rows.filter fun e =>
    e.2.status.active && e.2.anyStep fun s => s.state == .blocked
  let position (e : RunID × Run) : Nat := (candidates.filter fun o =>
    o.2.environmentID == e.2.environmentID && checkedBefore o e).length
  let ordered := candidates.insertionSort fun a b =>
    position a < position b ∨ (position a = position b ∧ checkedBefore a b = true)
  (ordered.filter fun e => !locked.contains e.1).map Prod.fst

def environmentLeases (db : Db) (env : EnvironmentID) (now : Time) : List Lease :=
  db.runs.rows.flatMap fun e =>
    if e.2.environmentID = env then e.2.unexpiredLeases now else []

def poolOfSession? (db : Db) (id : SessionID) : Option String :=
  (db.fleet.sessions.find? id).bind fun s => (db.fleet.workers.find? s.workerID).map Worker.poolName

def effectivePool (session : WorkerSession) : String :=
  if session.poolName = "" then "default" else session.poolName

/-- The steps the claim snapshot selects, `worker_engine.go:1156-1180`. -/
def claimCandidates (db : Db) (session : WorkerSession) (now : Time) (locked : List RunID) :
    List (RunID × StepID × Step) :=
  match db.fleet.sessions.find? session.sessionID with
  | none => []
  | some row =>
    let pool := effectivePool session
    let poolMatches := (db.fleet.workers.find? row.workerID).any fun w =>
      w.poolName == pool || pool == "" || w.poolName == "default"
    let steps := db.runs.rows.flatMap fun e =>
      if poolMatches && !locked.contains e.1 && e.2.environmentID == session.environmentID
          && row.bundles.contains e.2.deployment.bundleDigest && e.2.claimable now then
        (e.2.steps.rows.filter fun s => s.2.kind == .task && s.2.state == .ready
          && s.2.eligibleAt.any fun t => decide (t ≤ now)).map fun s => (e.1, s)
      else []
    steps.insertionSort fun a b =>
      (a.2.2.eligibleAt.getD 0) < (b.2.2.eligibleAt.getD 0) ∨
        ((a.2.2.eligibleAt.getD 0) = (b.2.2.eligibleAt.getD 0) ∧ a.2.1 ≤ b.2.1)

end Db

end Deadbolt.Execution

import Deadbolt.Execution.Database

/-!
# Transactions on the database

Run creation (`internal/execution/create_run_tx.go`), the two transactions of `Claim`, session
fencing (`internal/worker/service.go`) and the sweeps of one organization
(`worker_engine.go`, `cancel.go`, `approval.go`).
-/

namespace Deadbolt.Execution

open Base Contracts Artifacts Tx

variable [Platform]

def sweepLimit : Nat := 50

/-! ### Run creation -/

/-- A `CreateRun` request for a resolved environment. -/
structure CreateRunRequest where
  environmentID : EnvironmentID
  workflowName : String
  idempotencyKey : String
  deploymentID : Option DeploymentID
  input : Json

namespace CreateRunRequest

def keyHash (req : CreateRunRequest) : String := Platform.canonicalDigest (.str req.idempotencyKey)

/-- What the hash of the request is taken of, `internal/execution/service.go:162-168`. -/
def payload (req : CreateRunRequest) : Json :=
  .obj ([("workflow", .str req.workflowName), ("input", req.input)] ++
    match req.deploymentID with
    | none => []
    | some id => [("deploymentId", idJson id)])

/-- The hash of the request, `internal/execution/service.go:169-173`. -/
def requestHash (req : CreateRunRequest) : String := Platform.canonicalDigest req.payload

end CreateRunRequest

def maxWorkflowNodes : Nat := 50

def maxNonterminalRuns : Nat := 100

def createTokenTime : Time := 200000

def createBucketTime : Time := 10 * createTokenTime

namespace Admission

def creditAt (a : Admission) (now : Time) : Time :=
  min createBucketTime (a.createCredit + (now - a.createRateUpdatedAt))

end Admission

namespace Db

/-- The deployment of a request, `create_run_tx.go:118-147`. -/
def resolveDeployment (db : Db) (req : CreateRunRequest) : Except EngineError Deployment :=
  match req.deploymentID with
  | some id =>
    match db.fleet.deployments.find? id with
    | some d => if d.environmentID = req.environmentID then .ok d else .error .deploymentNotFound
    | none => .error .deploymentNotFound
  | none =>
    match (db.fleet.channels.lookup (req.environmentID, req.workflowName)).bind
        db.fleet.deployments.find? with
    | some d => .ok d
    | none => .error .noActiveDeployment

def nonterminalRuns (db : Db) (env : EnvironmentID) : Nat :=
  (db.runs.rows.filter fun e => e.2.environmentID == env && !e.2.status.terminal).length

end Db

/-- The admission gates of a new run, `create_run_tx.go:71-116`. -/
def admitRun (env : EnvironmentID) : DbTx Unit := do
  let db ← Tx.read id
  match db.fleet.controls with
  | none => Tx.fail .recoveryControlsUnavailable
  | some controls => do
    Tx.require (controls.admissionEnabled = true ∧ controls.mode.closed = false) .admissionDisabled
    match db.fleet.admissions.find? env with
    | none => Tx.fail .noRows
    | some a => do
      let now ← dbClock
      Tx.require (createTokenTime ≤ a.creditAt now) .createRateLimited
      Tx.write fun db =>
        { db with fleet := { db.fleet with
            admissions := db.fleet.admissions.modify env fun a =>
              { a with
                createCredit := a.creditAt now - createTokenTime
                createRateUpdatedAt := now } } }
      Tx.require (db.nonterminalRuns env < maxNonterminalRuns) .runQuotaExceeded

/-- The step row of a node, `create_run_tx.go:192-222`: only a task without
dependencies starts `READY`. -/
def initialStep (node : WorkflowNode) (now : Time) : Step :=
  let ready := node.after.isEmpty && node.type == .task
  { nodeID := node.id, kind := node.type
    state := if ready then .ready else .blocked
    waitReason := none, currentEpoch := 0, nextAttemptNumber := 1
    eligibleAt := if ready then some now else none
    output := none, completionSource := none, idempotencyValidUntil := none
    attempts := [], lease := none, timers := [], cases := [], approval := none }

/-- The step rows of a workflow; a repeated node id violates `UNIQUE (run_id, node_id)`. -/
def insertSteps : List WorkflowNode → Table StepID Step → DbTx (Table StepID Step)
  | [], steps => pure steps
  | node :: rest, steps => do
    let id ← dbNewID
    let now ← dbClock
    Tx.require ((steps.any fun s => s.nodeID == node.id) = false) .uniqueViolation
    match steps.insert? id (initialStep node now) with
    | none => Tx.fail .uniqueViolation
    | some steps => insertSteps rest steps

/-- The new run, `create_run_tx.go:167-190` and `:235-256`. -/
def initialRun (req : CreateRunRequest) (d : Deployment) (runID : RunID) (now : Time)
    (steps : Table StepID Step) : Run :=
  { id := runID, environmentID := req.environmentID, deployment := d
    workflowName := req.workflowName, idempotencyKey := req.idempotencyKey, status := .queued
    reasonCode := none, revision := 1
    input := req.input, output := none, deadlineAt := some (now + millis runLifetimeMs)
    lastEventSequence := 1, terminationConfirmed := none, pauseRequested := false
    reconciliationCheckedAt := none, createdAt := now, steps
    events := [⟨1, .runCreated, [("runId", idJson runID), ("workflowName", .str req.workflowName),
      ("deploymentId", idJson d.id)]⟩]
    outbox := [⟨none, .runCreated⟩] }

/-- A workflow whose first evaluation happens at creation,
`create_run_tx.go:199-201`. Approvals are not among its reasons. -/
def hasControlNode (wf : WorkflowManifest) : Bool :=
  wf.nodes.any fun n => n.type == .choice || n.type == .merge || n.type == .delay

/-- The evaluation at creation, `create_run_tx.go:305-334`. -/
def evaluateInitialDAG (wf : WorkflowManifest) : RunTx Unit := do
  let r ← RunTx.getRun
  let res ← evaluateBlockedDAGTx (r.dag wf "") r.dagSteps []
  if res.2 then pure ()
  else do
    let _ ← settleRunTerminalTx wf res.1.state? res.1.outputs r.input .null

/-- The insertion of an admitted run, `create_run_tx.go:118-342`. -/
def insertRun (req : CreateRunRequest) : DbTx RunID := do
  let db ← Tx.read id
  match db.resolveDeployment req with
  | .error err => Tx.fail err
  | .ok d =>
    match d.manifest.workflow? req.workflowName with
    | none => Tx.fail .workflowNotFound
    | some wf => do
      Tx.require (wf.nodes.length ≤ maxWorkflowNodes) .workflowTooLarge
      Tx.require (schemaAccepts wf.inputSchema req.input = true) .schemaViolation
      let runID ← dbNewID
      let now ← dbClock
      let steps ← insertSteps wf.nodes Table.empty
      let db ← Tx.read id
      match db.runs.insert? runID (initialRun req d runID now steps) with
      | none => Tx.fail .uniqueViolation
      | some runs => do
        Tx.write fun db =>
          { db with
            runs := runs
            records := db.records ++
              [⟨req.environmentID, req.keyHash, req.requestHash, runID⟩] }
        if hasControlNode wf then do
          onRun runID (evaluateInitialDAG wf)
          pure runID
        else pure runID

/-- `CreateRunInTx`, `create_run_tx.go:32-343`: the run and whether it is a
replay. -/
def createRunInTx (req : CreateRunRequest) : DbTx (RunID × Bool) := do
  let db ← Tx.read id
  match db.records.find? fun rec =>
      rec.environmentID == req.environmentID && rec.keyHash == req.keyHash with
  | some rec => do
    Tx.require (rec.requestHash = req.requestHash) .idempotencyConflict
    pure (rec.runID, true)
  | none => do
    admitRun req.environmentID
    let runID ← insertRun req
    pure (runID, false)

/-! ### Sweeps -/

/-- `reconcileExpiredLeasesTx`, `worker_engine.go:3211-3609`. -/
def reconcileExpiredLeasesTx (locked : List RunID) : DbTx Unit := do
  let queried ← dbClock
  let db ← Tx.read id
  let candidates := (db.expiredAttempts queried locked).take sweepLimit
  let handoffs := (db.handoffSteps locked).take sweepLimit
  if candidates.isEmpty && handoffs.isEmpty then pure ()
  else do
    let now ← dbClock
    let lost ← foldEach candidates [] fun acc c => do
      let hit ← onRun c.1 (loseAttemptTx c.2.1 c.2.2 now)
      pure (if hit then acc ++ [c.1] else acc)
    let reclaimed ← foldEach handoffs lost fun acc h => do
      let hit ← onRun h.1 (handoffTx h.2 now)
      pure (if hit then acc ++ [h.1] else acc)
    forEach reclaimed.dedup fun id => onRun id settlePauseIgnoringError

/-- `fireDueRetryTimersTx`, `worker_engine.go:921-1033`; the result is the
number of fired timers. -/
def fireDueRetryTimersTx : DbTx Nat := do
  let queried ← dbClock
  let db ← Tx.read id
  let candidates := (db.dueTimers .retryBackoff queried).take sweepLimit
  if candidates.isEmpty then pure 0
  else do
    let now ← dbClock
    foldEach candidates 0 fun fired c => do
      let hit ← onRun c.runID (fireRetryTimerTx c.stepID c.timerID now)
      pure (if hit then fired + 1 else fired)

/-- `FireDueDelayTimers`, `worker_engine.go:808-909`; the result is the number
of fired timers. -/
def fireDueDelayTimers : DbTx Nat := do
  let queried ← dbClock
  let db ← Tx.read id
  let candidates := (db.dueTimers .delay queried).take sweepLimit
  let now ← dbClock
  foldEach candidates 0 fun fired c => do
    let hit ← onRun c.runID (fireDelayTimerTx c.stepID c.timerID now)
    pure (if hit then fired + 1 else fired)

/-- `failOverdueRunsTx`, `cancel.go:352-414`. -/
def failOverdueRunsTx : DbTx Unit := do
  let now ← dbClock
  let db ← Tx.read id
  forEach ((db.overdueRuns now).take sweepLimit) fun id => onRun id failOverdueRunTx

/-- `settleCancellingRunsTx`, `cancel.go:305-340`. -/
def settleCancellingRunsTx : DbTx Unit := do
  let db ← Tx.read id
  forEach (db.cancellingRuns.take sweepLimit) fun id => do
    let _ ← onRun id settleCancellingRunTx

/-- `ReconcileExpiredLeases`, `worker_engine.go:2993-3036`. -/
def reconcileExpiredLeases (locked : List RunID) : DbTx Unit := do
  reconcileExpiredLeasesTx locked
  let _ ← fireDueRetryTimersTx
  failOverdueRunsTx
  settleCancellingRunsTx

/-- `SweepExpiredApprovals`, `approval.go:797-841`. The status of the run is not
read. -/
def sweepExpiredApprovals : DbTx Unit := do
  let now ← dbClock
  let db ← Tx.read id
  forEach ((db.dueApprovals now).take sweepLimit) fun d =>
    onRun d.runID (expireApprovalTx d.stepID d.nodeID d.approvalID)

/-- `ReconcileReadyWork`, `worker_engine.go:3044-3209`. -/
def reconcileReadyWork (locked : List RunID) : DbTx Unit := do
  let db ← Tx.read id
  forEach ((db.readyWorkRuns locked).take sweepLimit) fun id => onRun id reconcileReadyRunTx

/-! ### Claim -/

/-- `worker.DefaultSlots`. -/
def defaultSlots : Int := 2

/-- The dispatch gate of `Claim`, `worker_engine.go:1123-1131`. -/
def Db.dispatches (db : Db) : Except EngineError Bool :=
  match db.fleet.controls with
  | none => .error .recoveryControlsUnavailable
  | some controls => .ok (controls.dispatchEnabled && !controls.mode.closed)

def pendingClaim (db : Db) (c : RunID × StepID × Step) : Except EngineError PendingClaim :=
  match db.runs.find? c.1 with
  | none => .error .noRows
  | some r => do
    let input ← assignmentInput r c.2.2.nodeID
    return { stepID := c.2.1, runID := c.1, nodeID := c.2.2.nodeID
             environmentID := r.environmentID, refs := collectArtifactRefs input
             verified := false }

/-- The snapshot transaction of `Claim`, `worker_engine.go:1155-1273`. -/
def claimSnapshotTx (session : WorkerSession) (slots : Nat) (locked : List RunID) :
    DbTx (List PendingClaim) := do
  let now ← dbClock
  let db ← Tx.read id
  match ((db.claimCandidates session now locked).take slots).mapM (pendingClaim db) with
  | .error err => Tx.fail err
  | .ok pending => pure pending

/-- The concurrency quota reached: one run of the update,
`worker_engine.go:1373-1385`. Live attempts are not read. -/
def parkOnQuota (now : Time) : RunTx Unit := do
  let r ← RunTx.getRun
  if r.status.active && r.hasEligibleReady now then do
    RunTx.note .quotaWait
    RunTx.modifyRun Run.parkForQuota
  else pure ()

/-- The capacity of a claim, `worker_engine.go:1331-1366`. -/
def claimLimit (session : WorkerSession) (slots : Nat) (maxConcurrency : Int) : DbTx Int := do
  let now ← dbClock
  let activeLeases ← Tx.read fun db => (db.environmentLeases session.environmentID now).length
  let now' ← dbClock
  let poolLeases ← Tx.read fun db =>
    ((db.environmentLeases session.environmentID now').filter fun l =>
      db.poolOfSession? l.sessionID == some (Db.effectivePool session)).length
  return min (min (min (slots : Int) defaultSlots) (maxConcurrency - activeLeases))
    (maxConcurrency - poolLeases)

/-- The capacity decision and the claims, `worker_engine.go:1331-1658`. -/
def claimWithinCapacity (session : WorkerSession) (slots : Nat) (maxConcurrency : Int)
    (pending : List PendingClaim) (now : Time) (ready : List String) : DbTx Unit := do
  let limit ← claimLimit session slots maxConcurrency
  if limit ≤ 0 then do
    let parked ← dbClock
    let ids ← Tx.read fun db =>
      (db.runs.rows.filter fun e => e.2.environmentID == session.environmentID).map Prod.fst
    forEach ids fun id => onRun id (parkOnQuota parked)
  else
    forEach (pending.take limit.toNat) fun pc =>
      onRun pc.runID (claimCandidateTx session now ready pc)

/-- The commit transaction of `Claim`, `worker_engine.go:1284-1658`. -/
def claimCommitTx (session : WorkerSession) (slots : Nat) (pending : List PendingClaim)
    (locked : List RunID) (ready : List String) : DbTx Unit := do
  let db ← Tx.read id
  match db.fleet.workers.find? session.workerID, db.fleet.sessions.find? session.sessionID with
  | some w, some ws => do
    Tx.require (ws.workerID = session.workerID) .noRows
    let now ← dbClock
    Tx.require (ws.revokedAt = none) .sessionRevoked
    Tx.require (now < ws.expiresAt) .sessionExpired
    Tx.require (w.status ≠ .revoked) .workerRevoked
    if w.status = .active then
      match db.fleet.admissions.find? session.environmentID with
      | none => Tx.fail .noRows
      | some a => do
        reconcileExpiredLeasesTx locked
        let _ ← fireDueRetryTimersTx
        claimWithinCapacity session slots (min a.maxConcurrency 10) pending now ready
    else pure ()
  | _, _ => Tx.fail .noRows

/-! ### Sessions -/

/-- The live attempts of the unrevoked sessions of a worker, in lock order,
`worker_engine.go:2918-2927`. -/
def Db.attemptsOfWorker (db : Db) (workerID : WorkerID) : List (RunID × StepID × Attempt) :=
  db.runsByID.flatMap fun e =>
    (e.2.liveAttempts.filter fun x =>
      (db.fleet.sessions.find? x.2.sessionID).any fun ws =>
        ws.workerID == workerID && ws.revokedAt.isNone).map fun x => (e.1, x)

/-- `FenceWorkerSessions`, `worker_engine.go:2912-2975`. -/
def fenceWorkerSessions (workerID : WorkerID) (reason : String) : DbTx Unit := do
  let db ← Tx.read id
  match db.fleet.workers.find? workerID with
  | none => Tx.fail .noRows
  | some _ =>
    forEach (db.attemptsOfWorker workerID) fun x =>
      onRun x.1 (fenceAttemptTx x.2.1 x.2.2.id x.2.2.epoch reason)

/-- `UPDATE worker_sessions SET revoked_at … WHERE worker_id = … AND p`. -/
def revokeSessions (workerID : WorkerID) (p : Session → Bool) (now : Time) : DbTx Unit :=
  Tx.write fun db =>
    { db with fleet := { db.fleet with
        sessions := db.fleet.sessions.mapRows fun _ s =>
          if s.workerID = workerID ∧ p s = true then { s with revokedAt := some now } else s } }

/-- `worker.SessionTTL` in milliseconds. -/
def sessionTTLMs : Int := 15 * 60 * 1000

/-- `worker.MaxWorkerSessions`. -/
def maxWorkerSessions : Nat := 10

/-- The transaction of a reconnect, `internal/worker/service.go:269-305`: old sessions are fenced
and revoked, and a fresh one is issued within the quota of the environment. -/
def openSessionTx (workerID : WorkerID) : DbTx SessionID := do
  let db ← Tx.read id
  match db.fleet.workers.find? workerID with
  | none => Tx.fail .noRows
  | some w => do
    fenceWorkerSessions workerID "RECONNECT"
    let now ← dbClock
    revokeSessions workerID (fun s => s.revokedAt.isNone) now
    let db ← Tx.read id
    let active := db.fleet.sessions.rows.filter fun e =>
      e.2.environmentID == w.environmentID && e.2.revokedAt.isNone && decide (now < e.2.expiresAt)
    Tx.require (active.length < maxWorkerSessions) .sessionQuotaExceeded
    let id ← dbNewID
    match db.fleet.sessions.insert? id
        { workerID, environmentID := w.environmentID, expiresAt := now + millis sessionTTLMs
          revokedAt := none, bundles := [] } with
    | none => Tx.fail .uniqueViolation
    | some sessions => do
      Tx.write fun db => { db with fleet := { db.fleet with sessions := sessions } }
      pure id

/-- `RevokeWorker`, `internal/worker/service.go:692-712`. -/
def revokeWorkerTx (workerID : WorkerID) : DbTx Unit := do
  fenceWorkerSessions workerID "REVOKED"
  let now ← dbClock
  Tx.write fun db =>
    { db with fleet := { db.fleet with
        workers := db.fleet.workers.modify workerID fun w => { w with status := .revoked } } }
  revokeSessions workerID (fun _ => true) now

end Deadbolt.Execution

import Deadbolt.Artifacts.References
import Deadbolt.Execution.Control

/-!
# Worker transactions

What a worker session does to one run: `Claim` for one candidate, `Start`, `Heartbeat`,
`Complete`, `StopAck` and the loss of an attempt to fencing,
`internal/execution/worker_engine.go:1112-2975`. Columns of a run that no statement ever writes
(input, manifest, workflow name, deadline) are read from the run where the source carries
them in a snapshot.
-/

namespace Deadbolt.Execution

open Base Contracts Artifacts RunTx

/-- `worker.WorkerSessionContext` of an authenticated session. -/
structure WorkerSession where
  sessionID : SessionID
  workerID : WorkerID
  environmentID : EnvironmentID
  poolName : String

/-- `worker.DefaultLeaseTTL` in milliseconds. -/
def leaseTTLMs : Int := 30000

def boundBy (t : Time) (limit : Option Time) : Time :=
  match limit with
  | none => t
  | some l => min t l

namespace Run

/-- `SELECT node_id, output … WHERE output IS NOT NULL`. -/
def storedOutputs (r : Run) : Outputs :=
  r.steps.rows.filterMap fun e => e.2.output.map fun v => (e.2.nodeID, v)

end Run

def Step.leaseOf? (s : Step) (id : AttemptID) : Option Lease :=
  s.lease.filter fun l => l.attemptID == id

variable [Platform]

/-! ### Claim -/

/-- One candidate of the snapshot transaction with what was verified outside it. -/
structure PendingClaim where
  stepID : StepID
  runID : RunID
  nodeID : String
  environmentID : EnvironmentID
  refs : List String
  verified : Bool

/-- The input of an assignment, `worker_engine.go:1210-1256` and again
`:1440-1488`: the run input, or the node mapping over every stored output. -/
def assignmentInput (r : Run) (nodeID : String) : Except EngineError Json :=
  match (r.deployment.manifest.node? r.workflowName nodeID).bind WorkflowNode.input with
  | none => .ok r.input
  | some mapping =>
    match mapInput mapping r.input r.storedOutputs with
    | .error err => .error (.inputMapping err)
    | .ok mapped =>
      if schemaAccepts (r.deployment.manifest.taskSchemas r.workflowName nodeID).1 mapped then
        .ok mapped
      else .error .schemaViolation

/-- The timeout of an assignment: the normalized policy value when it is positive. -/
def assignmentTimeoutMs (m : DeploymentManifest) (workflowName nodeID : String) : Int :=
  let policy := m.taskRetryPolicy workflowName nodeID
  if 0 < policy.timeoutMs then policy.timeoutMs else (m.taskPolicy workflowName nodeID).2

/-- The failure of a candidate whose artifacts are gone,
`worker_engine.go:1502-1531` and again `:1548-1573`. The run write tests no
status, and running siblings and their attempts stay. -/
def failForArtifacts (stepID : StepID) (nodeID : String) (refs : List String) : RunTx Unit := do
  let s ← getStep stepID
  if s.state = .ready ∨ s.state = .failed then do
    note (.artifactFailure stepID)
    let _ ← updateStep stepID (fun s => s.state == .ready) fun s =>
      s.failWith "ARTIFACT_UNAVAILABLE"
    modifyRun fun r => r.setStatus .failed (some "ARTIFACT_UNAVAILABLE")
    mapSteps fun _ s => s.cancelIdle
    appendRunEvent .runFailed
      [("reason", .str "ARTIFACT_UNAVAILABLE"), ("nodeId", .str nodeID),
       ("artifactIds", .arr (refs.map .str))]
  else pure ()

/-- The ownership writes of a claim, `worker_engine.go:1577-1650`. Of the run
only `pause_requested` is tested. -/
def grantAttempt (session : WorkerSession) (stepID : StepID) (timeoutMs : Int) : RunTx Unit := do
  let r ← getRun
  if r.pauseRequested then pure ()
  else do
    let s ← getStep stepID
    if s.state = .ready then do
      let epoch := s.currentEpoch + 1
      let number := s.nextAttemptNumber
      Tx.require ((s.attempts.all fun a => a.number != number) = true) .uniqueViolation
      Tx.require (s.lease.isNone = true) .uniqueViolation
      let id ← newID
      Tx.require ((s.attempts.all fun a => a.id != id) = true) .uniqueViolation
      let now ← clockTimestamp
      note (.claimAttempt stepID now)
      let attempt : Attempt :=
        { id, number, sessionID := session.sessionID, epoch, status := .claimed
          claimStartDeadlineAt := some (now + millis claimStartBudgetMs), timeoutMs
          startedAt := none, deadlineAt := none, completedAt := none, createdAt := now
          outcomeDigest := none, error := none, stops := [] }
      let leaseNow ← clockTimestamp
      let lease : Lease :=
        { attemptID := id, sessionID := session.sessionID, epoch
          expiresAt := leaseNow + millis leaseTTLMs }
      let _ ← updateStep stepID (fun s => s.state == .ready) fun s => s.grant attempt lease
      appendRunEvent .taskClaimed
        [("attemptId", idJson id), ("stepId", idJson stepID), ("epoch", .num epoch),
         ("sessionId", idJson session.sessionID)]
      modifyRun Run.leaveQuota
    else pure ()

/-- A hold of a claim candidate, `worker_engine.go:1413-1439`. -/
def holdCandidate (pc : PendingClaim) (session : WorkerSession) (timeoutMs : Int)
    (reason : String) (extra : Payload) : RunTx Unit := do
  note (.claimHold pc.stepID)
  let operationID := Platform.operationID session.environmentID pc.runID pc.nodeID
  routeStepToReconciliationTx pc.stepID pc.nodeID none reason
    ([("operationId", .str operationID), ("timeoutMs", .num timeoutMs)] ++ extra)

def claimAdmitted (session : WorkerSession) (pc : PendingClaim) (ready : List String)
    (timeoutMs : Int) : RunTx Unit := do
  let r ← getRun
  match assignmentInput r pc.nodeID with
  | .error err => Tx.fail err
  | .ok input =>
    let refs := collectArtifactRefs input
    if !refs.isPerm pc.refs then pure ()
    else if refs = [] then grantAttempt session pc.stepID timeoutMs
    else if !pc.verified || !refs.all ready.contains then
      failForArtifacts pc.stepID pc.nodeID refs
    else grantAttempt session pc.stepID timeoutMs

/-- The loop body of the commit transaction of `Claim`,
`worker_engine.go:1392-1656`. `now` is the database time read at the start of
the transaction and `ready` the artifacts that are `READY` in it. -/
def claimCandidateTx (session : WorkerSession) (now : Time) (ready : List String)
    (pc : PendingClaim) : RunTx Unit := do
  if pc.environmentID ≠ session.environmentID then pure ()
  else do
    let r ← getRun
    let policy := r.deployment.manifest.taskRetryPolicy r.workflowName pc.nodeID
    let timeoutMs := assignmentTimeoutMs r.deployment.manifest r.workflowName pc.nodeID
    let admission ← claimIdempotencyAdmissionTx pc.stepID policy
    if admission.2 ≠ "" then holdCandidate pc session timeoutMs admission.2 []
    else
      match admission.1 with
      | none => claimAdmitted session pc ready timeoutMs
      | some validUntil =>
        if insufficientIdempotencyWindow now validUntil timeoutMs then
          holdCandidate pc session timeoutMs "IDEMPOTENCY_WINDOW_INSUFFICIENT"
            [("idempotencyValidUntil", timeJson validUntil)]
        else claimAdmitted session pc ready timeoutMs

/-! ### Start and heartbeat -/

/-- `Start`, `worker_engine.go:1677-1758`, on the run of the attempt. -/
def startTx (session : WorkerSession) (attemptID : AttemptID) (ownershipEpoch : Int) :
    RunTx Time := do
  let r ← getRun
  match r.attempt? attemptID with
  | none => Tx.fail .attemptNotFound
  | some row =>
    match row.2.1.leaseOf? attemptID with
    | none => Tx.fail .staleOwnership
    | some lease => do
      let a := row.2.2
      let now ← clockTimestamp
      Tx.require (a.epoch = ownershipEpoch ∧ a.sessionID = session.sessionID ∧
        lease.epoch = ownershipEpoch ∧ lease.sessionID = session.sessionID ∧
        now < lease.expiresAt) .staleOwnership
      if a.status = .running then
        match a.deadlineAt with
        | none => Tx.fail .staleOwnership
        | some deadline => do
          Tx.require (now < deadline) .staleOwnership
          pure deadline
      else do
        Tx.require (a.status = .claimed) .staleOwnership
        Tx.require ((a.claimStartDeadlineAt.any fun t => decide (now < t)) = true ∧
          r.overdue now = false) .startDeadlineExceeded
        let started ← clockTimestamp
        let deadline := boundBy (started + millis a.timeoutMs) r.deadlineAt
        let _ ← updateStep row.1 (fun _ => true) fun s => s.start attemptID started deadline
        modifyRun Run.markStarted
        appendRunEvent .taskStarted
          [("attemptId", idJson attemptID), ("epoch", .num ownershipEpoch),
           ("deadlineAt", timeJson deadline), ("timeoutMs", .num a.timeoutMs)]
        pure deadline

inductive HeartbeatReply where
  | renewal (expiresAt : Time)
  | stop (reason : String)
  deriving DecidableEq

/-- One attempt of `Heartbeat`, `worker_engine.go:1775-1833`, on its run. -/
def heartbeatTx (session : WorkerSession) (attemptID : AttemptID) (ownershipEpoch : Int) :
    RunTx HeartbeatReply := do
  let r ← getRun
  match r.attempt? attemptID with
  | none => pure (.stop "LEASE_NOT_FOUND")
  | some row =>
    match row.2.1.leaseOf? attemptID with
    | none => pure (.stop "LEASE_NOT_FOUND")
    | some lease => do
      let a := row.2.2
      let now ← clockTimestamp
      if a.epoch ≠ ownershipEpoch ∨ a.sessionID ≠ session.sessionID then
        pure (.stop "STALE_OWNERSHIP")
      else
        match a.deadlineAt with
        | none => pure (.stop "ATTEMPT_NOT_RUNNING")
        | some deadline =>
          if a.status ≠ .running then pure (.stop "ATTEMPT_NOT_RUNNING")
          else if lease.expiresAt ≤ now ∨ deadline ≤ now ∨ r.overdue now = true then
            pure (.stop "DEADLINE_EXPIRED")
          else
            match a.stops.find? fun sc => sc.ackedAt.isNone with
            | some sc => pure (.stop sc.reason)
            | none => do
              let renewed ← clockTimestamp
              let expiresAt :=
                boundBy (min (renewed + millis leaseTTLMs) deadline) r.deadlineAt
              let _ ← updateStep row.1 (fun _ => true) fun s =>
                s.renewLease attemptID expiresAt
              pure (.renewal expiresAt)

/-! ### Complete -/

/-- The outcomes `validOutcome` accepts. -/
inductive Outcome where
  | succeeded | failed | timedOut | cancelled
  deriving DecidableEq

namespace Outcome

def text : Outcome → String
  | succeeded => "SUCCEEDED" | failed => "FAILED" | timedOut => "TIMED_OUT"
  | cancelled => "CANCELLED"

def attemptStatus : Outcome → AttemptStatus
  | succeeded => .succeeded | failed => .failed | timedOut => .timedOut | cancelled => .cancelled

def stepState : Outcome → StepState
  | succeeded => .succeeded
  | cancelled => .cancelled
  | _ => .failed

end Outcome

/-- `worker.TaskErrorDTO`. -/
structure TaskError where
  code : String
  message : String
  details : Option Json
  retryable : Bool
  effectStatus : String
  retryAfter : String

def TaskError.json (e : TaskError) : Json :=
  .obj ([("code", .str e.code), ("message", .str e.message)] ++
    (match e.details with
      | none => []
      | some d => [("details", d)]) ++
    [("retryable", .bool e.retryable)] ++
    (if e.effectStatus = "" then [] else [("effectStatus", .str e.effectStatus)]) ++
    (if e.retryAfter = "" then [] else [("retryAfter", .str e.retryAfter)]))

/-- `worker.CompleteRequestDTO` of the authenticated session. -/
structure CompleteRequest where
  attemptID : AttemptID
  ownershipEpoch : Int
  outcome : Outcome
  output : Option Json
  artifactID : String
  error : Option TaskError
  resultDigest : String

/-- `worker.CanonicalCompletionDigest`, `internal/worker/protocol.go:184-205`. -/
def canonicalCompletionDigest (req : CompleteRequest) : String :=
  Platform.canonicalDigest (.obj
    [("outcome", .str req.outcome.text), ("output", req.output.getD .null),
     ("artifactId", .str req.artifactID),
     ("error", (req.error.map TaskError.json).getD .null)])

/-- The checks before the transaction, `worker_engine.go:2592-2604`. -/
def CompleteRequest.valid (req : CompleteRequest) : Except EngineError Unit :=
  if req.output.any fun o => !fitsInline o then .error .payloadTooLarge
  else if req.resultDigest ≠ canonicalCompletionDigest req then .error .resultConflict
  else .ok ()

/-- What `LookupForCompletionTx` answers for a referenced artifact; the code is
`artifactFailureCode`. -/
inductive ArtifactLookup where
  | unavailable
  | found
  | failed (code : String)
  deriving DecidableEq

/-- The result that is committed in place of the reported one. -/
structure CompletionResult where
  outcome : Outcome
  output : Option Json
  error : Option TaskError

def CompletionResult.rejected (code message effectStatus : String) : CompletionResult :=
  { outcome := .failed, output := none
    error := some { code, message, details := none, retryable := false, effectStatus
                    retryAfter := "" } }

/-- The validation of a reported success, `worker_engine.go:2663-2706`. -/
def completionResult (req : CompleteRequest) (lookup : ArtifactLookup)
    (outputSchema : Option Json) : Except EngineError CompletionResult :=
  let reported : CompletionResult :=
    { outcome := req.outcome, output := req.output, error := req.error }
  if req.outcome ≠ .succeeded then .ok reported
  else if req.artifactID = "" then
    if schemaAccepts outputSchema (req.output.getD .null) then .ok reported
    else .ok (.rejected "OUTPUT_SCHEMA_VIOLATION"
      "Task output does not conform to output schema" "NOT_APPLIED")
  else if req.output.isSome then
    .ok (.rejected "OUTPUT_SCHEMA_VIOLATION"
      "Result carries both inline output and an artifact reference" "NOT_APPLIED")
  else
    match lookup with
    | .unavailable => .error .artifactAssociationUnavailable
    | .failed code =>
      .ok (.rejected code "Artifact result cannot be associated" "UNKNOWN")
    | .found => .ok { reported with output := some (artifactRef req.artifactID) }

/-- What a failed or timed out completion reports to the retry policy,
`worker_engine.go:2766-2790`. -/
def CompletionResult.failedAttempt (res : CompletionResult) (id : AttemptID) (number : Int) :
    FailedAttempt :=
  match res.error with
  | none =>
    { id, number, retryable := true, effectStatus := "UNKNOWN", retryAfter := ""
      errorCode := if res.outcome = .timedOut then "ATTEMPT_TIMED_OUT" else "TASK_FAILED" }
  | some e =>
    { id, number, retryable := e.retryable, retryAfter := e.retryAfter
      errorCode := if e.code = "" then "TASK_FAILED" else e.code
      effectStatus := if e.effectStatus = "" then "UNKNOWN" else e.effectStatus }

/-- A closed attempt is retried, held, or fails the run. -/
def retryOrFailTx (stepID : StepID) (nodeID : String) (failed : FailedAttempt)
    (policy : RetryPolicy) (runDeadline : Option Time) : RunTx Unit := do
  let verdict ← scheduleRetryOrHoldTx stepID nodeID failed policy runDeadline
  match verdict with
  | .retry => pure ()
  | .hold => pure ()
  | .fail code => failRunForStepTx stepID (if code = "" then failed.errorCode else code) none

/-- What follows a committed outcome, `worker_engine.go:2746-2808`. -/
def afterOutcomeTx (stepID : StepID) (nodeID : String) (a : Attempt) (res : CompletionResult) :
    RunTx Unit := do
  let r ← getRun
  match res.outcome with
  | .succeeded => advanceAfterStepSuccessTx (res.output.getD .null)
  | .cancelled =>
    let code := (res.error.map TaskError.code).getD ""
    failRunForStepTx stepID (if code = "" then "TASK_CANCELLED" else code) none
  | _ =>
    retryOrFailTx stepID nodeID (res.failedAttempt a.id a.number)
      (r.deployment.manifest.taskRetryPolicy r.workflowName nodeID) r.deadlineAt

/-- The writes of an accepted completion, `worker_engine.go:2708-2822`. The
step write tests no state. -/
def commitCompletionTx (stepID : StepID) (nodeID : String) (a : Attempt) (req : CompleteRequest)
    (res : CompletionResult) : RunTx Unit := do
  note (.closeAttempt stepID res.outcome.attemptStatus
    (res.failedAttempt a.id a.number).effectStatus)
  let now ← clockTimestamp
  let _ ← updateStep stepID (fun _ => true) fun s =>
    s.complete req.attemptID res.outcome.attemptStatus req.resultDigest
      ((res.error.map TaskError.json).getD .null) now res.outcome.stepState
      (res.output.getD .null)
  appendRunEvent .taskCompleted
    [("attemptId", idJson req.attemptID), ("stepId", idJson stepID),
     ("epoch", .num req.ownershipEpoch), ("outcome", .str res.outcome.text),
     ("resultDigest", .str req.resultDigest)]
  afterOutcomeTx stepID nodeID a res
  settleHoldAfterCompletionTx
  settlePauseAfterCompletionTx

/-- `terminalAttempt`, `worker_engine.go:1851-1858`. -/
def terminalAttempt (status : AttemptStatus) : Bool := !status.live

/-- `Complete`, `worker_engine.go:2588-2844`, on the run of the attempt. -/
def completeTx (session : WorkerSession) (req : CompleteRequest) (lookup : ArtifactLookup) :
    RunTx Unit := do
  let r ← getRun
  match r.attempt? req.attemptID with
  | none => Tx.fail .attemptNotFound
  | some row => do
    let a := row.2.2
    Tx.require (a.epoch = req.ownershipEpoch ∧ a.sessionID = session.sessionID) .staleOwnership
    if terminalAttempt a.status then
      if a.outcomeDigest = some req.resultDigest then
        -- A cancelled owner has nothing to acknowledge, even for an identical result.
        Tx.require (a.status ≠ .cancelled ∨ (r.status ≠ .cancelling ∧ r.status ≠ .cancelled))
          .staleOwnership
      else Tx.fail .resultConflict
    else
      match a.deadlineAt, row.2.1.leaseOf? req.attemptID with
      | some deadline, some lease => do
        Tx.require (a.status = .running) .staleOwnership
        let now ← clockTimestamp
        Tx.require (lease.epoch = req.ownershipEpoch ∧ lease.sessionID = session.sessionID ∧
          now < lease.expiresAt ∧ now < deadline) .staleOwnership
        let schemas := r.deployment.manifest.taskSchemas r.workflowName row.2.1.nodeID
        match completionResult req lookup schemas.2 with
        | .error err => Tx.fail err
        | .ok res => commitCompletionTx row.1 row.2.1.nodeID a req res
      | _, _ => Tx.fail .staleOwnership

/-! ### Stop acknowledgement and fencing -/

/-- `StopAck`, `worker_engine.go:2846-2900`, on the run of the attempt. -/
def stopAckTx (session : WorkerSession) (attemptID : AttemptID) (ownershipEpoch : Int)
    (processStopped : Bool) : RunTx Unit := do
  let r ← getRun
  match r.attempt? attemptID with
  | none => pure ()
  | some row => do
    Tx.require (row.2.2.sessionID = session.sessionID ∧ row.2.2.epoch = ownershipEpoch)
      .staleOwnership
    let now ← clockTimestamp
    let _ ← updateStep row.1 (fun _ => true) fun s =>
      s.updateAttempt attemptID (fun _ => true) fun a => a.acknowledge now processStopped
    let _ ← settleCancellingRunTx

/-- One lost attempt of `FenceWorkerSessions`, `worker_engine.go:2948-2973`. -/
def fenceAttemptTx (stepID : StepID) (attemptID : AttemptID) (epoch : Int) (reason : String) :
    RunTx Unit := do
  note (.fence stepID)
  let now ← clockTimestamp
  let _ ← updateStep stepID (fun _ => true) fun s =>
    s.fence attemptID epoch (.obj [("code", .str "OWNERSHIP_LOST"), ("reason", .str reason)]) now
  modifyRun Run.parkForHandoff
  appendRunEvent .taskLost
    [("attemptId", idJson attemptID), ("stepId", idJson stepID), ("epoch", .num epoch),
     ("reason", .str reason), ("recovery", .str "HANDOFF_REQUIRED")]

end Deadbolt.Execution

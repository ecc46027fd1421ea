import Deadbolt.Execution.Approval

/-!
# Operator controls

Cancellation (`internal/execution/cancel.go`), pause and resume (`pause.go`) and the resolution
of reconciliation cases (`reconcile.go`) as transactions on the locked run.
-/

namespace Deadbolt.Execution

open Base Contracts RunTx

variable [Platform]

/-! ### Cancellation -/

/-- The writes of a first cancellation, `cancel.go:102-216`. -/
def commitCancelTx (actorID : Option ActorID) : RunTx Unit := do
  let r ← getRun
  let asked ← clockTimestamp
  let now ← clockTimestamp
  mapSteps fun _ s => s.revokeCancelled now (asked + millis cancelGraceMs)
  mapSteps fun _ s => s.cancelOpenWith (some "CANCEL_REQUESTED")
  mapSteps fun _ s => s.cancelTimers
  mapSteps fun _ s => s.cancelApproval
  closeOpenCasesTx actorID "CANCEL_REQUESTED" .cancel
  if r.liveCount = 0 then do
    modifyRun fun r =>
      { r.setStatus .cancelled (some "CANCEL_REQUESTED") with
        revision := r.revision + 1
        terminationConfirmed := some true }
    appendRunEvent .runCancelled
      [("reason", .str "CANCEL_REQUESTED"), ("terminationConfirmed", .bool true)]
  else do
    modifyRun fun r =>
      { r.setStatus .cancelling (some "CANCEL_REQUESTED") with revision := r.revision + 1 }
    appendRunEvent .runCancelling
      [("reason", .str "CANCEL_REQUESTED"), ("stopCount", .num r.liveCount)]

/-- `cancelRunTx`, `cancel.go:75-221`. -/
def cancelRunTx (expectedRevision : Int) (actorID : Option ActorID) : RunTx Unit := do
  let r ← getRun
  Tx.require (r.status.terminal = false) .runTerminal
  Tx.require (r.revision = expectedRevision) .revisionConflict
  if r.status = .cancelling then pure () else commitCancelTx actorID

def Run.anyStop (r : Run) (p : StopCommand → Bool) : Bool :=
  r.anyStep fun s => s.attempts.any fun a => a.stops.any p

/-- `settleCancellingRunTx`, `cancel.go:247-300`. -/
def settleCancellingRunTx : RunTx Bool := do
  let r ← getRun
  if r.status = .cancelling then do
    let now ← clockTimestamp
    if r.anyStop fun sc => sc.ackedAt.isNone && decide (now < sc.deadlineAt) then pure false
    else do
      let confirmed := !r.anyStop fun sc => sc.terminationConfirmedAt.isNone
      modifyRun fun r =>
        { r with status := .cancelled, terminationConfirmed := some confirmed }
      appendRunEvent .runCancelled
        [("reason", .str "CANCEL_REQUESTED"), ("terminationConfirmed", .bool confirmed)]
      pure true
  else pure false

/-! ### Pause and resume -/

/-- `runDeadlineExceededTx`, `pause.go:219-228`. -/
def runDeadlineExceededTx (deadline : Option Time) : RunTx Bool :=
  match deadline with
  | none => pure false
  | some t => do
    let now ← clockTimestamp
    pure (decide (t ≤ now))

/-- The writes of a pause, `pause.go:146-168`. -/
def commitPauseTx : RunTx Unit := do
  note .pause
  let r ← getRun
  modifyRun Run.pause
  if r.hasLive then
    appendRunEvent .runPausing
      [("reason", .str "PAUSE_REQUESTED"), ("activeAttempts", .num r.liveCount)]
  else appendRunEvent .runPaused [("reason", .str "PAUSE_REQUESTED")]

/-- `pauseRunTx`, `pause.go:96-173`. -/
def pauseRunTx (expectedRevision : Int) : RunTx Unit := do
  let r ← getRun
  Tx.require (r.status.terminal = false) .runTerminal
  Tx.require (r.status ≠ .cancelling) .runCancelling
  Tx.require (r.revision = expectedRevision) .revisionConflict
  let expired ← runDeadlineExceededTx r.deadlineAt
  Tx.require (expired = false) .runDeadlineExceeded
  if r.pauseRequested = true ∧ (r.status = .pausing ∨ r.status = .paused) then pure ()
  else commitPauseTx

/-- The recomputation of a resume, `pause.go:402-515`. -/
def commitResumeTx : RunTx Unit := do
  note .resume
  let r ← getRun
  let target := r.resumeTarget
  modifyRun Run.resume
  appendRunEvent .runResumed
    ([("status", .str target.1.text)] ++
      match target.2 with
      | none => []
      | some reason => [("reason", .str reason)])

/-- `resumeRunTx`, `pause.go:311-524`. -/
def resumeRunTx (expectedRevision : Int) : RunTx Unit := do
  let r ← getRun
  Tx.require (r.status.terminal = false) .runTerminal
  Tx.require (r.status ≠ .cancelling) .runCancelling
  Tx.require (r.revision = expectedRevision) .revisionConflict
  let expired ← runDeadlineExceededTx r.deadlineAt
  Tx.require (expired = false) .runDeadlineExceeded
  Tx.require (r.pauseRequested = true ∨ r.status = .pausing ∨ r.status = .paused) .runNotPaused
  match r.workflow? with
  | none => commitResumeTx
  | some wf => do
    let settled ← settleRunTerminalTx wf r.stateOfNode? r.committedOutputs r.input .null
    if settled then modifyRun Run.clearPause
    else commitResumeTx

/-- `settleOverdueRunForControl`, `pause.go:181-214`: the transaction a
refused pause or resume of an overdue run starts. -/
def settleOverdueRunForControl : RunTx Bool := do
  let r ← getRun
  if r.status.closing then pure false
  else do
    let expired ← runDeadlineExceededTx r.deadlineAt
    if expired then do
      settleExpiredRunForControlTx
      pure true
    else pure false

/-- `settlePauseAfterCompletionTx`, `pause.go:550-588`. -/
def settlePauseAfterCompletionTx : RunTx Unit := do
  let r ← getRun
  if r.pauseRequested = false ∨ r.status ≠ .pausing then pure ()
  else if r.hasLive then pure ()
  else do
    modifyRun Run.markPaused
    appendRunEvent .runPaused [("reason", .str "PAUSE_REQUESTED")]

/-- `settlePauseAfterCompletionTx` with its error ignored,
`worker_engine.go:3604`: the status write stays when the event does not
fit. -/
def settlePauseIgnoringError : RunTx Unit := do
  let r ← getRun
  if r.pauseRequested = false ∨ r.status ≠ .pausing then pure ()
  else if r.hasLive then pure ()
  else do
    modifyRun Run.markPaused
    appendRunEventIfRoom .runPaused [("reason", .str "PAUSE_REQUESTED")]

/-! ### Reconciliation -/

inductive ResolveAction where
  | confirmSucceeded | confirmNotExecutedRetry | failRun
  deriving DecidableEq

def ResolveAction.text : ResolveAction → String
  | confirmSucceeded => "confirm_succeeded"
  | confirmNotExecutedRetry => "confirm_not_executed_retry"
  | failRun => "fail_run"

/-- `ResolveReconciliationRequest` with its actor; evidence goes to the audit trail only. -/
structure ResolveReconciliationRequest where
  action : ResolveAction
  evidence : String
  reason : String
  result : Option Json
  expectedRevision : Int
  actorID : ActorID

/-- The checks before the transaction, `reconcile.go:122-140`. -/
def ResolveReconciliationRequest.valid (req : ResolveReconciliationRequest) :
    Except EngineError Unit :=
  if Text.trimSpace req.evidence = "" then .error .missingEvidence
  else if Text.trimSpace req.reason = "" then .error .missingReason
  else if 280 < req.reason.toList.length then .error .reasonTooLong
  else if req.action = .confirmSucceeded ∧ req.result.isNone then .error .missingResult
  else .ok ()

/-- `markCaseResolvedTx`, `reconcile.go:471-490`. -/
def markCaseResolvedTx (stepID : StepID) (caseID : CaseID) (resolution : CaseResolution)
    (actorID : ActorID) : RunTx Unit := do
  let now ← clockTimestamp
  let s ← getStep stepID
  Tx.require ((s.cases.any fun c => c.id == caseID && c.status == .open) = true) .caseResolved
  let _ ← updateStep stepID (fun _ => true) fun s => s.resolveCase caseID resolution actorID now

/-- `resolveCaseSucceedTx`, `reconcile.go:304-336`. The event does not
depend on the step write. -/
def resolveCaseSucceedTx (stepID : StepID) (nodeID : String) (caseID : CaseID) (result : Json)
    (actorID : ActorID) : RunTx Unit := do
  let r ← getRun
  let outputSchema := (r.deployment.manifest.taskSchemas r.workflowName nodeID).2
  Tx.require (schemaAccepts outputSchema result = true) .resultSchema
  Tx.require (fitsInline result = true) .resultTooLarge
  note (.confirmSucceeded stepID)
  let _ ← updateStep stepID (Step.waitsFor "RECONCILIATION") fun s =>
    { s.succeed result with completionSource := some .reconciliation }
  markCaseResolvedTx stepID caseID .succeed actorID
  appendRunEvent .stepSucceeded
    [("stepId", idJson stepID), ("nodeId", .str nodeID), ("resolution", .str "SUCCEED"),
     ("completionSource", .str "RECONCILIATION"), ("caseId", idJson caseID)]

/-- The admission of a confirmed retry, `reconcile.go:367-386`. -/
def resolveRetryAdmission (stepID : StepID) (policy : RetryPolicy) (s : Step) (now : Time) :
    RunTx Unit :=
  if recoveryMode policy.recovery = "idempotent" then do
    let valid ← retryDeadline stepID policy s.idempotencyValidUntil
    match valid with
    | none => Tx.fail .windowInsufficient
    | some validUntil =>
      Tx.require (insufficientIdempotencyWindow now validUntil policy.timeoutMs = false)
        .windowInsufficient
  else pure ()

/-- `resolveCaseRetryTx`, `reconcile.go:342-433`. -/
def resolveCaseRetryTx (stepID : StepID) (nodeID : String) (caseID : CaseID)
    (policy : RetryPolicy) (actorID : ActorID) (now : Time) : RunTx Unit := do
  let r ← getRun
  let runID ← getRunID
  let s ← getStep stepID
  Tx.require (s.waitsFor "RECONCILIATION" = true) .caseResolved
  Tx.require (hasRetryBudget s.nextAttemptNumber policy.maxAttempts = true) .budgetExhausted
  resolveRetryAdmission stepID policy s now
  let failedAttemptNumber := if s.nextAttemptNumber - 1 < 1 then 1 else s.nextAttemptNumber - 1
  let sample ← sampleJitter
  let delayMs :=
    computeRetryDelayMs failedAttemptNumber policy.initialDelayMs policy.maxDelayMs sample none
  let dueAt := now + durationMs delayMs
  Tx.require (insufficientRunDeadline dueAt policy.timeoutMs r.deadlineAt = false)
    .runDeadlineExceeded
  let operationID := Platform.operationID r.environmentID runID nodeID
  let timer ← newTimer s .retryBackoff dueAt (some s.nextAttemptNumber) (some operationID)
    "RECONCILIATION_RETRY"
  note (.confirmRetry stepID)
  let _ ← updateStep stepID (Step.waitsFor "RECONCILIATION") fun s => s.parkRetry timer dueAt
  markCaseResolvedTx stepID caseID .retry actorID
  appendRunEvent .stepWaiting
    [("stepId", idJson stepID), ("nodeId", .str nodeID), ("reason", .str "RETRY_BACKOFF"),
     ("dueAt", timeJson dueAt), ("attemptNumber", .num s.nextAttemptNumber),
     ("operationId", .str operationID), ("resolution", .str "RETRY"), ("caseId", idJson caseID)]
  appendRunEvent .caseResolved
    [("caseId", idJson caseID), ("stepId", idJson stepID), ("resolution", .str "RETRY")]

/-- `resolveCaseFailTx`, `reconcile.go:438-466`. -/
def resolveCaseFailTx (stepID : StepID) (caseID : CaseID) (reason : String)
    (actorID : ActorID) : RunTx Unit := do
  markCaseResolvedTx stepID caseID .fail actorID
  closeOpenCasesTx (some actorID) "RECONCILIATION_FAILED" .fail
  failRunForStepTx stepID "RECONCILIATION_FAILED" (some actorID)
  appendRunEvent .caseResolved
    [("caseId", idJson caseID), ("stepId", idJson stepID), ("resolution", .str "FAIL"),
     ("decisionReason", .str (Text.trimSpace reason))]

/-- `releaseHoldTx`, `reconcile.go:532-569`. -/
def releaseHoldTx (action : ResolveAction) : RunTx Unit := do
  let r ← getRun
  if r.status = .waiting ∧ reasonText r.reasonCode = "RECONCILIATION" then do
    modifyRun fun r => r.leaveReconciliation (action == .confirmNotExecutedRetry)
    appendRunEvent .runResumed [("trigger", .str action.text)]
  else pure ()

/-- The action of a resolution, `reconcile.go:255-272`. -/
def resolveCaseTx (stepID : StepID) (nodeID : String) (caseID : CaseID) (policy : RetryPolicy)
    (req : ResolveReconciliationRequest) (now : Time) : RunTx Unit :=
  match req.action with
  | .confirmSucceeded =>
    resolveCaseSucceedTx stepID nodeID caseID (req.result.getD .null) req.actorID
  | .confirmNotExecutedRetry => resolveCaseRetryTx stepID nodeID caseID policy req.actorID now
  | .failRun => resolveCaseFailTx stepID caseID req.reason req.actorID

/-- What follows the resolution of the last open case, `reconcile.go:274-292`. -/
def afterLastCaseTx (req : ResolveReconciliationRequest) : RunTx Unit := do
  let r ← getRun
  if r.hasOpenCase then pure ()
  else if req.action = .confirmSucceeded then do
    advanceAfterStepSuccessTx (req.result.getD .null)
    releaseHoldTx req.action
  else releaseHoldTx req.action

/-- `resolveReconciliationCaseTx`, `reconcile.go:172-299`, on the step the
case belongs to. -/
def resolveReconciliationCaseTx (stepID : StepID) (caseID : CaseID)
    (req : ResolveReconciliationRequest) : RunTx Unit := do
  let r ← getRun
  let s ← getStep stepID
  match s.cases.find? fun c => c.id == caseID with
  | none => Tx.fail .caseNotFound
  | some case => do
    Tx.require (case.status = .open) .caseResolved
    Tx.require (case.revision = req.expectedRevision) .revisionConflict
    Tx.require (r.status.terminal = false) .runTerminal
    let now ← clockTimestamp
    Tx.require (r.overdue now = false) .runDeadlineExceeded
    let policy := r.deployment.manifest.taskRetryPolicy r.workflowName s.nodeID
    Tx.require (isValidRecoveryPolicy policy.recovery = true) .invalidRecovery
    resolveCaseTx stepID s.nodeID caseID policy req now
    afterLastCaseTx req

/-- `settleHoldAfterCompletionTx`, `reconcile.go:609-660`. -/
def settleHoldAfterCompletionTx : RunTx Unit := do
  let r ← getRun
  if !r.status.schedulable then pure ()
  else if r.status = .waiting ∧ reasonText r.reasonCode = "RECONCILIATION" then pure ()
  else if !r.hasOpenCase || r.hasLive then pure ()
  else do
    modifyRun fun r => r.setStatus .waiting (some "RECONCILIATION")
    appendRunEvent .runWaiting [("reason", .str "RECONCILIATION")]

end Deadbolt.Execution

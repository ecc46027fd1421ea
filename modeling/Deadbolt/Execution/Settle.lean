import Deadbolt.Execution.Monad

/-!
# Holds, retries and failure

The helpers of `internal/execution/worker_engine.go:262-775` and the case helpers of
`reconcile.go` they share. Each works on the run its caller has locked.
-/

namespace Deadbolt.Execution

open Base Contracts RunTx

variable [Platform]

/-! ### Cases -/

/-- `closeOpenCasesTx`, `reconcile.go:496-530`. -/
def closeOpenCasesTx (actorID : Option ActorID) (reason : String)
    (resolution : CaseResolution) : RunTx Unit := do
  let r ← getRun
  let now ← clockTimestamp
  mapSteps fun _ s => s.closeOpenCases actorID resolution now
  if r.hasOpenCase then
    appendRunEvent .caseResolved
      [("resolution", .str resolution.text), ("reason", .str reason), ("scope", .str "run"),
       ("caseIds", .arr (r.openCaseIDs.map idJson))]
  else pure ()

/-- `routeStepToReconciliationTx` with `insertReconciliationCaseTx`,
`worker_engine.go:335-371`. The step write tests no state. -/
def routeStepToReconciliationTx (stepID : StepID) (nodeID : String)
    (attemptID : Option AttemptID) (reason : String) (evidence : Payload) : RunTx Unit := do
  let id ← newID
  let _ ← updateStep stepID (fun _ => true) fun s =>
    s.hold { id, attemptID, reason, evidence, status := .open, resolution := none
             actorID := none, revision := 1, resolvedAt := none }
  modifyRun Run.parkForReconciliation
  appendRunEvent .stepWaiting
    [("stepId", idJson stepID), ("nodeId", .str nodeID), ("reason", .str "RECONCILIATION"),
     ("holdReason", .str reason)]

/-! ### Idempotency windows -/

/-- `ensureIdempotencyWindowTx`, `worker_engine.go:265-286`. -/
def ensureIdempotencyWindowTx (stepID : StepID) (policy : RetryPolicy) :
    RunTx (Option Time) :=
  match policy.idempotencyWindowMs with
  | none => pure none
  | some windowMs =>
    if recoveryMode policy.recovery ≠ "idempotent" then pure none
    else do
      let s ← getStep stepID
      match s.idempotencyValidUntil with
      | some t => pure (some t)
      | none => do
        let now ← clockTimestamp
        note (.mintWindow stepID now)
        let _ ← updateStep stepID (fun _ => true) fun s => s.mintWindow (now + millis windowMs)
        pure (some (now + millis windowMs))

/-- `deriveIdempotencyDeadlineTx`, `worker_engine.go:378-404`. -/
def deriveIdempotencyDeadlineTx (stepID : StepID) (windowMs : Int) : RunTx (Option Time) := do
  let s ← getStep stepID
  match s.firstAttempt? with
  | none => pure none
  | some a =>
    match s.idempotencyValidUntil with
    | some stored => pure (some stored)
    | none => do
      let _ ← updateStep stepID (fun _ => true) fun s =>
        s.mintWindow (a.createdAt + durationMs windowMs)
      pure (some (a.createdAt + durationMs windowMs))

/-- `claimIdempotencyAdmissionTx`, `worker_engine.go:297-333`: the deadline,
or the reason to hold the step. -/
def claimIdempotencyAdmissionTx (stepID : StepID) (policy : RetryPolicy) :
    RunTx (Option Time × String) :=
  if recoveryMode policy.recovery ≠ "idempotent" then pure (none, "")
  else do
    let s ← getStep stepID
    match s.idempotencyValidUntil with
    | some valid => pure (some valid, "")
    | none =>
      match policy.idempotencyWindowMs with
      | none =>
        if 1 < s.nextAttemptNumber then pure (none, "IDEMPOTENCY_WINDOW_UNKNOWN")
        else pure (none, "")
      | some windowMs =>
        if s.nextAttemptNumber = 1 then do
          let minted ← ensureIdempotencyWindowTx stepID policy
          pure (minted, "")
        else do
          let derived ← deriveIdempotencyDeadlineTx stepID windowMs
          match derived with
          | none => pure (none, "IDEMPOTENCY_WINDOW_UNKNOWN")
          | some t => pure (some t, "")

/-! ### Delays and retries -/

/-- A timer for `ON CONFLICT … WHERE state='PENDING' DO NOTHING`: none if one is pending. -/
def newTimer (s : Step) (kind : TimerKind) (dueAt : Time) (attemptNumber : Option Int)
    (operationID : Option String) (reason : String) : RunTx (Option Timer) :=
  match s.pendingTimer? kind with
  | some _ => pure none
  | none => do
    let id ← newID
    pure (some { id, kind, dueAt, state := .pending, attemptNumber, operationID, reason
                 firedAt := none })

/-- The due time after such an insert: a pending timer keeps its own. -/
def Step.dueOf (s : Step) (kind : TimerKind) (dueAt : Time) : Time :=
  ((s.pendingTimer? kind).map Timer.dueAt).getD dueAt

/-- `scheduleDelayTx`, `worker_engine.go:466-506`: the due time and whether the
timer is new. -/
def scheduleDelayTx (stepID : StepID) (delayMs : Int) : RunTx (Time × Bool) := do
  Tx.require (1 ≤ delayMs ∧ delayMs ≤ maxRunLifetimeMs) .invalidDelay
  note (.scheduleDelay stepID)
  let now ← clockTimestamp
  let s ← getStep stepID
  let timer ← newTimer s .delay (now + millis delayMs) none none "DELAY"
  let dueAt := s.dueOf .delay (now + millis delayMs)
  let _ ← updateStep stepID (fun _ => true) fun s => s.parkDelay timer dueAt
  if s.state = .blocked then do
    modifyRun Run.recomputeForDelay
    pure (dueAt, timer.isSome)
  else pure (dueAt, timer.isSome)

inductive RetryVerdict where
  | retry | hold
  | fail (code : String)
  deriving DecidableEq

/-- What a closed attempt reports to `scheduleRetryOrHoldTx`. -/
structure FailedAttempt where
  id : AttemptID
  number : Int
  errorCode : String
  retryable : Bool
  effectStatus : String
  retryAfter : String

/-- The retry branch of `scheduleRetryOrHoldTx`, `worker_engine.go:619-682`. -/
def scheduleRetryTx (stepID : StepID) (nodeID : String) (failed : FailedAttempt)
    (policy : RetryPolicy) (nextAttemptNumber : Int) (now : Time)
    (deadline : Option Time) (operationID : String) : RunTx RetryVerdict := do
  let sample ← sampleJitter
  let retryAfterMs := parseRetryAfter Platform.parseHTTPDate failed.retryAfter now
  let delayMs :=
    computeRetryDelayMs failed.number policy.initialDelayMs policy.maxDelayMs sample retryAfterMs
  let chosen := now + durationMs delayMs
  if insufficientRunDeadline chosen policy.timeoutMs deadline then
    pure (.fail "RUN_DEADLINE_EXCEEDED")
  else do
    let s ← getStep stepID
    let timer ← newTimer s .retryBackoff chosen (some nextAttemptNumber) (some operationID)
      failed.errorCode
    let dueAt := s.dueOf .retryBackoff chosen
    let _ ← updateStep stepID (fun _ => true) fun s => s.parkRetry timer dueAt
    modifyRun Run.recomputeForRetry
    appendRunEvent .stepWaiting
      [("stepId", idJson stepID), ("nodeId", .str nodeID), ("reason", .str "RETRY_BACKOFF"),
       ("dueAt", timeJson dueAt), ("attemptNumber", .num nextAttemptNumber),
       ("operationId", .str operationID)]
    pure .retry

/-- The deadline that admits the retry of an idempotent step,
`worker_engine.go:574-604`: a missing window or history holds the step. -/
def retryDeadline (stepID : StepID) (policy : RetryPolicy) (validUntil : Option Time) :
    RunTx (Option Time) :=
  match policy.idempotencyWindowMs with
  | none => pure none
  | some windowMs =>
    match validUntil with
    | some t => pure (some t)
    | none => deriveIdempotencyDeadlineTx stepID windowMs

/-- The retry of an idempotent step, `worker_engine.go:574-682`. -/
def retryIdempotentTx (stepID : StepID) (nodeID : String) (failed : FailedAttempt)
    (policy : RetryPolicy) (s : Step) (now : Time) (deadline : Option Time)
    (operationID : String) (evidence : Payload) : RunTx RetryVerdict := do
  let valid ← retryDeadline stepID policy s.idempotencyValidUntil
  match valid with
  | none => do
    routeStepToReconciliationTx stepID nodeID (some failed.id) "IDEMPOTENCY_WINDOW_UNKNOWN"
      evidence
    pure .hold
  | some validUntil =>
    if insufficientIdempotencyWindow now validUntil policy.timeoutMs then do
      routeStepToReconciliationTx stepID nodeID (some failed.id) "IDEMPOTENCY_WINDOW_INSUFFICIENT"
        (evidence ++ [("idempotencyValidUntil", timeJson validUntil)])
      pure .hold
    else scheduleRetryTx stepID nodeID failed policy s.nextAttemptNumber now deadline operationID

/-- `scheduleRetryOrHoldTx`, `worker_engine.go:513-683`. -/
def scheduleRetryOrHoldTx (stepID : StepID) (nodeID : String) (failed : FailedAttempt)
    (policy : RetryPolicy) (runDeadline : Option Time) : RunTx RetryVerdict := do
  let now ← clockTimestamp
  let r ← getRun
  let runID ← getRunID
  let s ← getStep stepID
  let operationID := Platform.operationID r.environmentID runID nodeID
  let evidence : Payload :=
    [("operationId", .str operationID), ("attemptId", idJson failed.id),
     ("errorCode", .str failed.errorCode)]
  let deadline := runDeadline.orElse fun _ => r.deadlineAt
  if r.status.closing then pure (.fail r.status.text)
  else if !canScheduleRetry r.status (reasonText r.reasonCode) then pure (.fail failed.errorCode)
  else if isNonRetryableCode failed.errorCode then pure (.fail failed.errorCode)
  else if !isValidRecoveryPolicy policy.recovery then pure (.fail "INVALID_RECOVERY_POLICY")
  else if requiresReconciliation policy.recovery failed.effectStatus then do
    routeStepToReconciliationTx stepID nodeID (some failed.id) "AMBIGUOUS_OUTCOME"
      (evidence ++ [("effectStatus", .str failed.effectStatus)])
    pure .hold
  else if !failed.retryable then pure (.fail failed.errorCode)
  else if !hasRetryBudget s.nextAttemptNumber policy.maxAttempts then
    pure (.fail "MAX_ATTEMPTS_EXCEEDED")
  else if recoveryMode policy.recovery = "idempotent" then
    retryIdempotentTx stepID nodeID failed policy s now deadline operationID evidence
  else scheduleRetryTx stepID nodeID failed policy s.nextAttemptNumber now deadline operationID

/-! ### Failure -/

/-- `failRunForStepTx`, `worker_engine.go:685-775`. Neither the step write nor
the run write tests a state, and no approval is closed. -/
def failRunForStepTx (stepID : StepID) (reasonCode : String) (actorID : Option ActorID) :
    RunTx Unit := do
  note (.failRun stepID)
  let r ← getRun
  let now ← clockTimestamp
  mapSteps fun _ s => s.revokeSiblings now
  let _ ← updateStep stepID (fun _ => true) fun s => s.failWith reasonCode
  closeOpenCasesTx actorID reasonCode .fail
  modifyRun fun r => r.setStatus .failed (some reasonCode)
  mapSteps fun id s => if id = stepID then s else s.cancelOpenWith none
  mapSteps fun _ s => s.cancelTimers
  appendRunEvent .runFailed
    [("status", .str "FAILED"), ("reason", .str reasonCode), ("stepId", idJson stepID),
     ("stopCount", .num r.liveCount)]

/-- `failOverdueRunWithoutStepsTx`, `cancel.go:420-446`. -/
def failOverdueRunWithoutStepsTx : RunTx Unit := do
  mapSteps fun _ s => s.cancelTimers
  closeOpenCasesTx none "RUN_DEADLINE_EXCEEDED" .fail
  let hit ← updateRun (fun r => !r.status.terminal) fun r =>
    r.setStatus .failed (some "RUN_DEADLINE_EXCEEDED")
  if hit then
    appendRunEvent .runFailed [("status", .str "FAILED"), ("reason", .str "RUN_DEADLINE_EXCEEDED")]
  else pure ()

/-- `settleExpiredRunForControlTx`, `pause.go:235-244`. -/
def settleExpiredRunForControlTx : RunTx Unit := do
  let r ← getRun
  match r.firstNonterminal? with
  | none => failOverdueRunWithoutStepsTx
  | some stepID => failRunForStepTx stepID "RUN_DEADLINE_EXCEEDED" none

end Deadbolt.Execution

import Deadbolt.Execution.Worker

/-!
# Sweeps on one run

What the background sweeps do to one selected run: lost attempts and recovery handoffs
(`internal/execution/worker_engine.go:3211-3609`), due timers (`:808-1033`), overdue runs
(`cancel.go:352-446`), ready-work repair (`worker_engine.go:3044-3209`) and the exhausted
event budget (`:3614-3647`).
-/

namespace Deadbolt.Execution

open Base Contracts RunTx

/-! ### Selections -/

namespace Run

/-- The run status test of both queries of `reconcileExpiredLeasesTx`,
`worker_engine.go:3225` and `:3276`. -/
def leaseSweepable (r : Run) : Bool :=
  r.status.active || r.status == .pausing ||
    (r.status == .waiting && r.reasonCode == some "RECOVERY_HANDOFF")

/-- The attempt test of the expired-lease query, `worker_engine.go:3226-3232`. -/
def attemptExpired (r : Run) (s : Step) (a : Attempt) (now : Time) : Bool :=
  let lease := s.lease.filter fun l => l.attemptID == a.id
  let leaseExpired := lease.any fun l => decide (l.expiresAt ≤ now)
  a.status.live &&
    ((a.status == .claimed &&
        ((a.claimStartDeadlineAt.any fun t => decide (t ≤ now)) || leaseExpired || lease.isNone)) ||
      (a.status == .running && leaseExpired) ||
      (a.status == .running && a.deadlineAt.any fun t => decide (t ≤ now)) ||
      r.overdue now)

def expiredAttempts (r : Run) (now : Time) : List (StepID × AttemptID) :=
  if r.leaseSweepable then
    r.stepsByID.flatMap fun e =>
      ((e.2.attempts.filter fun a => r.attemptExpired e.2 a now).insertionSort
        fun a b => a.id ≤ b.id).map fun a => (e.1, a.id)
  else []

def handoffSteps (r : Run) : List StepID :=
  if r.leaseSweepable then
    (r.stepsByID.filter fun e => e.2.waitsFor "RECOVERY_HANDOFF").map Prod.fst
  else []

/-- The test of the overdue-run query, `cancel.go:354-364`. -/
def overdueSelected (r : Run) (now : Time) : Bool :=
  !r.status.closing && r.overdue now && !r.hasLive

/-- The guards of `fireDueRetryTimersTx` on a locked timer,
`worker_engine.go:979-993`. -/
def retryFires (r : Run) (s : Step) (t : Timer) (now : Time) : Bool :=
  t.kind == .retryBackoff && t.state == .pending && decide (t.dueAt ≤ now) &&
    s.waitsFor "RETRY_BACKOFF" && canFireRetry r.status (reasonText r.reasonCode) &&
    !r.overdue now

/-- The run status test of `FireDueDelayTimers`, `worker_engine.go:848`. -/
def delayStatusFires (status : RunStatus) (reason : String) : Bool :=
  match status with
  | .queued | .running => true
  | .waiting => reason == "DELAY"
  | _ => false

/-- The guards of `FireDueDelayTimers` on a locked timer,
`worker_engine.go:848-868`. -/
def delayFires (r : Run) (s : Step) (t : Timer) (now : Time) : Bool :=
  t.kind == .delay && t.state == .pending && s.waitsFor "DELAY" &&
    delayStatusFires r.status (reasonText r.reasonCode) && !r.overdue now

end Run

variable [Platform]

/-! ### Lost attempts -/

/-- `UPDATE task_attempts SET status=…, error=… WHERE id = id AND status IN
('CLAIMED','RUNNING')` and the deletion of the lease of the step. -/
def loseAttempt (stepID : StepID) (attemptID : AttemptID) (status : AttemptStatus)
    (code message : String) (retryable : Bool) (effectStatus : String) : RunTx Unit := do
  let now ← clockTimestamp
  let _ ← updateStep stepID (fun _ => true) fun s =>
    s.lose attemptID status
      (.obj [("code", .str code), ("message", .str message), ("retryable", .bool retryable),
        ("effectStatus", .str effectStatus)]) now

def appendTaskLost (stepID : StepID) (a : Attempt) (reason recovery : String) : RunTx Unit :=
  appendRunEvent .taskLost
    [("attemptId", idJson a.id), ("stepId", idJson stepID), ("epoch", .num a.epoch),
     ("reason", .str reason), ("recovery", .str recovery)]

/-- The failure of an overdue run by the lease sweep, `worker_engine.go:3387-3403`
and again `:3538-3553`. Neither other live attempts nor approvals are closed. -/
def failOverdueTx : RunTx Unit := do
  mapSteps fun _ s => s.cancelOpen
  modifyRun fun r => r.setStatus .failed (some "RUN_DEADLINE_EXCEEDED")
  mapSteps fun _ s => s.cancelTimers
  closeOpenCasesTx none "RUN_DEADLINE_EXCEEDED" .fail

def appendSweepFailed (stepID : StepID) (reason : String) : RunTx Unit :=
  appendRunEvent .runFailed
    [("status", .str "FAILED"), ("reason", .str reason), ("stepId", idJson stepID)]

/-- An attempt of an overdue run, `worker_engine.go:3371-3414`. -/
def loseOverdueAttempt (stepID : StepID) (a : Attempt) : RunTx Unit := do
  note (.deadlineLost stepID a.id)
  loseAttempt stepID a.id .lost "RUN_DEADLINE_EXCEEDED" "Run deadline exceeded" false "UNKNOWN"
  failOverdueTx
  appendTaskLost stepID a "RUN_DEADLINE_EXCEEDED" "TERMINAL"
  appendSweepFailed stepID "RUN_DEADLINE_EXCEEDED"

/-- A claim that never started, `worker_engine.go:3418-3462`. -/
def loseUnstarted (stepID : StepID) (nodeID : String) (a : Attempt) (policy : RetryPolicy)
    (deadline : Option Time) : RunTx Unit := do
  note (.closeAttempt stepID .lost "NOT_APPLIED")
  loseAttempt stepID a.id .lost "START_DEADLINE_EXCEEDED"
    "Claim start deadline exceeded without Start" true "NOT_APPLIED"
  appendTaskLost stepID a "START_DEADLINE_EXCEEDED" "RETRY"
  retryOrFailTx stepID nodeID
    { id := a.id, number := a.number, errorCode := "START_DEADLINE_EXCEEDED", retryable := true
      effectStatus := "NOT_APPLIED", retryAfter := "" } policy deadline

/-- A started attempt past its deadline or lease, `worker_engine.go:3464-3518`. -/
def loseStarted (stepID : StepID) (nodeID : String) (a : Attempt) (policy : RetryPolicy)
    (deadline : Option Time) (now : Time) : RunTx Unit := do
  let timedOut := a.deadlineAt.any fun t => decide (t ≤ now)
  let code := if timedOut then "ATTEMPT_TIMED_OUT" else "LEASE_EXPIRED"
  note (.closeAttempt stepID (if timedOut then .timedOut else .lost) "UNKNOWN")
  loseAttempt stepID a.id (if timedOut then .timedOut else .lost) code
    (if timedOut then "Attempt execution deadline exceeded"
      else "Task lease expired without renewal") true "UNKNOWN"
  appendTaskLost stepID a code policy.recovery
  retryOrFailTx stepID nodeID
    { id := a.id, number := a.number, errorCode := code, retryable := true
      effectStatus := "UNKNOWN", retryAfter := "" } policy deadline

def RunStatus.sweepSkips : RunStatus → Bool
  | .paused => true
  | s => s.closing

/-- One candidate of the expired-lease query, revalidated under the locks,
`worker_engine.go:3318-3519`; the result is whether it was reclaimed. -/
def loseAttemptTx (stepID : StepID) (attemptID : AttemptID) (now : Time) : RunTx Bool := do
  let r ← getRun
  match r.steps.find? stepID with
  | none => pure false
  | some s =>
    match s.attempts.find? fun a => a.id == attemptID with
    | none => pure false
    | some a =>
      if r.status.sweepSkips || s.state.terminal || !a.status.live then pure false
      else
        let policy := r.deployment.manifest.taskRetryPolicy r.workflowName s.nodeID
        if r.overdue now then do
          loseOverdueAttempt stepID a
          pure true
        else if a.status = .claimed ∨ a.startedAt = none then do
          loseUnstarted stepID s.nodeID a policy r.deadlineAt
          pure true
        else do
          loseStarted stepID s.nodeID a policy r.deadlineAt now
          pure true

/-! ### Recovery handoffs -/

/-- A handed off step with attempts left, `worker_engine.go:3560-3581`. The
event does not depend on the writes. -/
def readyHandoff (stepID : StepID) (nodeID : String) : RunTx Unit := do
  let now ← clockTimestamp
  let _ ← updateStep stepID (Step.waitsFor "RECOVERY_HANDOFF") fun s => s.makeReady now
  modifyRun Run.leaveHandoff
  appendRunEvent .stepReady
    [("stepId", idJson stepID), ("nodeId", .str nodeID),
     ("reason", .str "RECOVERY_HANDOFF_RESOLVED")]

/-- A handed off step without attempts left, `worker_engine.go:3582-3600`.
Running siblings, their attempts, timers, cases and approvals stay. -/
def exhaustHandoff (stepID : StepID) : RunTx Unit := do
  note (.handoffExhausted stepID)
  let _ ← updateStep stepID (fun _ => true) fun s => s.failWith "MAX_ATTEMPTS_EXCEEDED"
  modifyRun fun r => r.setStatus .failed (some "MAX_ATTEMPTS_EXCEEDED")
  mapSteps fun _ s => s.cancelIdle
  appendSweepFailed stepID "MAX_ATTEMPTS_EXCEEDED"

/-- One candidate of the handoff query, `worker_engine.go:3521-3601`; the
result is whether it was reclaimed. -/
def handoffTx (stepID : StepID) (now : Time) : RunTx Bool := do
  let r ← getRun
  if r.status.sweepSkips then pure false
  else do
    let s ← getStep stepID
    let policy := r.deployment.manifest.taskRetryPolicy r.workflowName s.nodeID
    if r.overdue now then do
      note (.deadlineHandoff stepID)
      failOverdueTx
      appendSweepFailed stepID "RUN_DEADLINE_EXCEEDED"
      pure true
    else if s.nextAttemptNumber ≤ policy.maxAttempts then do
      readyHandoff stepID s.nodeID
      pure true
    else do
      exhaustHandoff stepID
      pure true

/-! ### Timers -/

/-- One candidate of `fireDueRetryTimersTx`, `worker_engine.go:955-1026`; the
result is whether it fired. -/
def fireRetryTimerTx (stepID : StepID) (timerID : TimerID) (now : Time) : RunTx Bool := do
  let r ← getRun
  match r.steps.find? stepID with
  | none => pure false
  | some s =>
    match s.timers.find? fun t => t.id == timerID with
    | none => pure false
    | some t =>
      if r.retryFires s t now then do
        let firedAt ← clockTimestamp
        let _ ← updateStep stepID (Step.waitsFor "RETRY_BACKOFF") fun s =>
          (s.fireTimer timerID firedAt).makeReady t.dueAt
        modifyRun Run.leaveRetry
        appendRunEvent .stepReady
          [("stepId", idJson stepID), ("nodeId", .str s.nodeID), ("reason", .str "RETRY_DUE"),
           ("dueAt", timeJson t.dueAt)]
        pure true
      else pure false

/-- One candidate of `FireDueDelayTimers`, `worker_engine.go:842-895`; the
result is whether it fired. -/
def fireDelayTimerTx (stepID : StepID) (timerID : TimerID) (now : Time) : RunTx Bool := do
  let r ← getRun
  match r.steps.find? stepID with
  | none => pure false
  | some s =>
    match s.timers.find? fun t => t.id == timerID with
    | none => pure false
    | some t =>
      if r.delayFires s t now then do
        let firedAt ← clockTimestamp
        let _ ← updateStep stepID (Step.waitsFor "DELAY") fun s =>
          { (s.fireTimer timerID firedAt).succeed (.obj []) with completionSource := some .timer }
        appendRunEvent .stepSucceeded
          [("stepId", idJson stepID), ("reason", .str "DELAY_DUE"), ("dueAt", timeJson t.dueAt)]
        advanceAfterStepSuccessTx (.obj [])
        note .delayWait
        modifyRun Run.recomputeForDelay
        pure true
      else pure false

/-! ### Overdue runs, repair and the event budget -/

/-- One run of `failOverdueRunsTx`, `cancel.go:384-411`. -/
def failOverdueRunTx : RunTx Unit := do
  let r ← getRun
  if r.status.closing then pure ()
  else settleExpiredRunForControlTx

/-- One run of `ReconcileReadyWork`, `worker_engine.go:3099-3196`. -/
def reconcileReadyRunTx : RunTx Unit := do
  let r ← getRun
  match r.workflow? with
  | none => pure ()
  | some wf => do
    let res ← evaluateBlockedDAGTx (r.dag wf "RECONCILIATION") r.dagSteps r.committedOutputs
    if res.2 then do
      let now ← clockTimestamp
      modifyRun fun r => { r with reconciliationCheckedAt := some now }
    else do
      let _ ← settleRunTerminalTx wf res.1.state? res.1.outputs r.input .null
      let now ← clockTimestamp
      modifyRun fun r => { r with reconciliationCheckedAt := some now }

/-- `TerminalizeHistoryLimitExceeded`, `worker_engine.go:3614-3647`. Running
steps, live attempts, timers, cases and approvals stay. -/
def terminalizeHistoryLimitExceeded : RunTx Unit := do
  let r ← getRun
  if r.status.terminal then pure ()
  else do
    note .historyLimit
    mapSteps fun _ s => s.cancelIdle
    appendRunEventIfRoom .runFailed [("reason", .str "HISTORY_LIMIT_EXCEEDED")]
    modifyRun fun r => r.setStatus .failed (some "HISTORY_LIMIT_EXCEEDED")

end Deadbolt.Execution

import Deadbolt.Execution.Rows

/-!
# The run status

A run has one status and one reason for all of its branches. This module holds every
statement that rewrites the pair while the run is open; the statements that close a run are
with the transactions that make them.
-/

namespace Deadbolt.Execution

open Base Contracts

namespace Run

/-- `UPDATE runs SET status=…, reason_code=…`. -/
def setStatus (r : Run) (status : RunStatus) (reason : Option String) : Run :=
  { r with status := status, reasonCode := reason }

/-- `UPDATE runs SET status=…, reason_code=… WHERE p`. -/
def setStatusIf (r : Run) (p : Bool) (status : RunStatus) (reason : Option String) : Run :=
  if p then r.setStatus status reason else r

/-- A run that has started is `RUNNING` again, one that has not is `QUEUED`. -/
def reopened (r : Run) : RunStatus := if r.hasStarted then .running else .queued

/-! ### Waits begin -/

/-- `recomputeRunStatusForRetryTx`, `internal/execution/worker_engine.go:412-438`. -/
def recomputeForRetry (r : Run) : Run :=
  if r.hasLive || r.hasReadyOrRunning then r.setStatusIf r.status.schedulable .running none
  else r.setStatusIf r.status.active .waiting (some "RETRY_BACKOFF")

/-- `recomputeRunStatusForDelayTx`, `worker_engine.go:443-461`. -/
def recomputeForDelay (r : Run) : Run :=
  if r.hasReadyOrRunning then
    r.setStatusIf r.status.schedulable
      (if r.anyStep fun s => s.state == .running then .running else .queued) none
  else
    r.setStatusIf (r.status.active && r.anyStep (Step.hasPending .delay)) .waiting (some "DELAY")

/-- `durableWaitReasonForRunTx`, `approval.go:286-303`. -/
def durableWaitReason (r : Run) : String :=
  if r.anyStep Step.hasPendingApproval then "APPROVAL"
  else
    match r.stepsByID.find? fun e => e.2.state == .waiting with
    | some e => e.2.waitReason.getD ""
    | none => ""

/-- `recomputeRunStatusAfterControlTx`, `approval.go:214-282`. Pausing and
paused runs are rewritten like any other open run. -/
def recomputeAfterControl (r : Run) : Run :=
  if r.status.closing then r
  else if !r.anyStep (fun s => !s.state.terminal) then r
  else if r.hasLive || r.anyStep (fun s => s.state == .ready && s.kind == .task) then
    if r.status = .running ∧ reasonText r.reasonCode = "" then r else r.setStatus .running none
  else
    let next := if r.durableWaitReason = "" then "APPROVAL" else r.durableWaitReason
    if r.status = .waiting ∧ reasonText r.reasonCode = next then r
    else r.setStatus .waiting (some next)

/-- The run write of `routeStepToReconciliationTx`,
`worker_engine.go:357-363`. -/
def parkForReconciliation (r : Run) : Run :=
  r.setStatusIf (r.status.schedulable && !r.hasLive) .waiting (some "RECONCILIATION")

/-- The run write of an exhausted quota, `worker_engine.go:1377-1385`. -/
def parkForQuota (r : Run) : Run := r.setStatus .waiting (some "QUOTA_WAIT")

/-- The run write of `FenceWorkerSessions`, `worker_engine.go:2956-2959`. -/
def parkForHandoff (r : Run) : Run :=
  r.setStatusIf r.status.active .waiting (some "RECOVERY_HANDOFF")

/-! ### Waits end -/

/-- The run write of a claimed step, `worker_engine.go:1649-1654`. -/
def leaveQuota (r : Run) : Run :=
  r.setStatusIf (r.reasonCode == some "QUOTA_WAIT") .running none

/-- The run write of `Start`, `worker_engine.go:1738-1740`. -/
def markStarted (r : Run) : Run := r.setStatusIf (r.status == .queued) .running none

/-- The run write of a fired retry timer, `worker_engine.go:1011-1017`. -/
def leaveRetry (r : Run) : Run :=
  r.setStatusIf (r.status == .waiting && r.reasonCode == some "RETRY_BACKOFF") r.reopened none

/-- The run write of a resolved handoff, `worker_engine.go:3567-3576`. -/
def leaveHandoff (r : Run) : Run :=
  r.setStatusIf (r.status == .waiting && r.reasonCode == some "RECOVERY_HANDOFF") r.reopened none

/-- The run writes of `releaseHoldTx`, `reconcile.go:554-566`: a confirmed
retry keeps the run waiting. -/
def leaveReconciliation (r : Run) (retry : Bool) : Run :=
  if retry then r.setStatus .waiting (some "RETRY_BACKOFF") else r.setStatus r.reopened none

/-! ### Pause and resume -/

/-- The run write of `pauseRunTx`, `pause.go:146-161`. -/
def pause (r : Run) : Run :=
  { r.setStatus (if r.hasLive then .pausing else .paused) (some "PAUSE_REQUESTED") with
    pauseRequested := true
    revision := r.revision + 1 }

/-- The run write of `settlePauseAfterCompletionTx`, `pause.go:570-572`. -/
def markPaused (r : Run) : Run := { r with status := .paused }

/-- `EXISTS` an attempt that has started or has a status only a started one can have,
`pause.go:447-455`. -/
def hasRunAttempt (r : Run) : Bool :=
  r.anyStep fun s => s.attempts.any fun a =>
    a.startedAt.isSome || [.running, .succeeded, .failed, .timedOut, .lost].contains a.status

/-- The status and reason a resumed run takes, `pause.go:461-490`. -/
def resumeTarget (r : Run) : RunStatus × Option String :=
  if r.hasLive then (.running, none)
  else if r.anyStep (fun s => s.state == .ready) then
    (if r.hasRunAttempt then .running else .queued, none)
  else if r.hasOpenCase then (.waiting, some "RECONCILIATION")
  else if r.anyStep (Step.hasPending .retryBackoff) then (.waiting, some "RETRY_BACKOFF")
  else if r.anyStep (Step.hasPending .delay) then (.waiting, some "DELAY")
  else (.waiting, none)

/-- `UPDATE runs SET pause_requested=false, revision=revision+1`. -/
def clearPause (r : Run) : Run :=
  { r with pauseRequested := false, revision := r.revision + 1 }

/-- The run write of `resumeRunTx`, `pause.go:506-510`. -/
def resume (r : Run) : Run := (r.setStatus r.resumeTarget.1 r.resumeTarget.2).clearPause

end Run

end Deadbolt.Execution

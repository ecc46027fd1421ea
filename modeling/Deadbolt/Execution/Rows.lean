import Deadbolt.Execution.State

/-!
# Row writes

The `UPDATE`, `INSERT` and `DELETE` statements of the engine as functions on the rows they
write. Statements that one transaction makes on the same step one after the other are one
function. A statement that closes several attempts takes one reading of the clock for all of
them.
-/

namespace Deadbolt.Execution

open Base Contracts

/-! ### Words of the columns -/

namespace RunStatus

/-- `status IN ('QUEUED','RUNNING')`. -/
def active : RunStatus → Bool
  | queued | running => true
  | _ => false

/-- `status IN ('QUEUED','RUNNING','WAITING')`. -/
def schedulable : RunStatus → Bool
  | waiting => true
  | s => s.active

def text : RunStatus → String
  | queued => "QUEUED" | running => "RUNNING" | waiting => "WAITING" | pausing => "PAUSING"
  | paused => "PAUSED" | cancelling => "CANCELLING" | succeeded => "SUCCEEDED"
  | failed => "FAILED" | cancelled => "CANCELLED"

end RunStatus

def CaseResolution.text : CaseResolution → String
  | retry => "RETRY" | succeed => "SUCCEED" | fail => "FAIL" | cancel => "CANCEL"

/-! ### Attempts -/

namespace Attempt

/-- `status='RUNNING' OR started_at IS NOT NULL`. -/
def mayHaveEffect (a : Attempt) : Bool := a.status == .running || a.startedAt.isSome

/-- A live owner loses its attempt and receives a stop command. Only a claim that never
started records that nothing was applied. -/
def revoke (a : Attempt) (code message : String) (now graceUntil : Time) : Attempt :=
  if a.status.live then
    { a with
      status := .cancelled
      completedAt := some now
      error := some (.obj [("code", .str code), ("message", .str message),
        ("retryable", .bool false),
        ("effectStatus", .str (if a.mayHaveEffect then "UNKNOWN" else "NOT_APPLIED"))])
      stops := a.stops ++ [⟨code, graceUntil, none, none⟩] }
  else a

/-- `StopAck` on the stop commands of the attempt. -/
def acknowledge (a : Attempt) (now : Time) (processStopped : Bool) : Attempt :=
  { a with stops := a.stops.map fun sc =>
      { sc with
        ackedAt := some (sc.ackedAt.getD now)
        terminationConfirmedAt :=
          if processStopped then some now else sc.terminationConfirmedAt } }

end Attempt

namespace Step

/-- `UPDATE task_attempts … WHERE id = id AND p` on an attempt of the step. -/
def updateAttempt (s : Step) (id : AttemptID) (p : Attempt → Bool) (f : Attempt → Attempt) :
    Step :=
  { s with attempts := s.attempts.map fun a => if a.id = id ∧ p a = true then f a else a }

/-- `DELETE FROM task_leases WHERE attempt_id = id`. -/
def deleteLeaseOf (s : Step) (id : AttemptID) : Step :=
  { s with lease := s.lease.filter fun l => l.attemptID != id }

def firstAttempt? (s : Step) : Option Attempt :=
  (s.attempts.insertionSort fun a b => a.number ≤ b.number).head?

/-- The live owners of a step of a failing run,
`internal/execution/worker_engine.go:728-738`. -/
def revokeSiblings (s : Step) (now : Time) : Step :=
  { s with
    attempts := s.attempts.map fun a =>
      a.revoke "SIBLING_FAILED" "A dependency failed and the run was failed fast" now
        (now + millis cancelGraceMs)
    lease := s.lease.filter fun l => !s.attempts.any fun a => a.id == l.attemptID && a.status.live }

/-- The live owners of a step of a cancelled run, `cancel.go:148-158`. -/
def revokeCancelled (s : Step) (now graceUntil : Time) : Step :=
  { s with
    attempts := s.attempts.map fun a =>
      a.revoke "CANCEL_REQUESTED" "Run cancellation requested" now graceUntil
    lease := if s.hasLive then none else s.lease }

/-- The ownership writes of a claim, `worker_engine.go:1598-1626`. -/
def grant (s : Step) (attempt : Attempt) (lease : Lease) : Step :=
  { s with
    state := .running
    waitReason := none
    currentEpoch := attempt.epoch
    nextAttemptNumber := attempt.number + 1
    attempts := s.attempts ++ [attempt]
    lease := some lease }

/-- `Start` on the attempt, `worker_engine.go:1730-1737`. -/
def start (s : Step) (id : AttemptID) (started deadline : Time) : Step :=
  s.updateAttempt id (fun _ => true) fun a =>
    { a with status := .running, startedAt := some started, deadlineAt := some deadline }

/-- `Heartbeat` on the lease, `worker_engine.go:1823-1829`. -/
def renewLease (s : Step) (id : AttemptID) (expiresAt : Time) : Step :=
  { s with lease := s.lease.map fun l =>
      if l.attemptID = id then { l with expiresAt := expiresAt } else l }

/-- `Complete` on the attempt, its lease and the step,
`worker_engine.go:2719-2745`. No state of the step is tested. -/
def complete (s : Step) (id : AttemptID) (status : AttemptStatus) (digest : String)
    (error : Json) (now : Time) (state : StepState) (output : Json) : Step :=
  { (s.updateAttempt id (fun _ => true) fun a =>
      { a with
        status := status
        outcomeDigest := some digest
        error := some error
        completedAt := some now }).deleteLeaseOf id with
    state := state
    output := some output
    waitReason := none }

/-- The lease sweep on an expired attempt and the lease of its step,
`worker_engine.go:3373-3384`, `:3419-3430` and `:3479-3490`. -/
def lose (s : Step) (id : AttemptID) (status : AttemptStatus) (error : Json) (now : Time) :
    Step :=
  { s.updateAttempt id (fun a => a.status.live) fun a =>
      { a with status := status, completedAt := some now, error := some error } with
    lease := none }

/-- `FenceWorkerSessions` on the attempt, its lease and the step,
`worker_engine.go:2944-2955`. -/
def fence (s : Step) (id : AttemptID) (epoch : Int) (error : Json) (now : Time) : Step :=
  let lost := (s.updateAttempt id (fun a => a.status.live) fun a =>
    { a with status := .lost, completedAt := some now, error := some error }).deleteLeaseOf id
  if s.currentEpoch = epoch ∧ s.state = .running then
    { lost with state := .waiting, waitReason := some "RECOVERY_HANDOFF" }
  else lost

/-! ### Step states -/

def skip (s : Step) (reason : String) : Step :=
  { s with state := .skipped, waitReason := some reason }

/-- `SET state='SUCCEEDED', wait_reason=NULL, output=…`. -/
def succeed (s : Step) (output : Json) : Step :=
  { s with state := .succeeded, waitReason := none, output := some output }

/-- `SET state='READY', wait_reason=NULL, eligible_at=…`. -/
def makeReady (s : Step) (eligibleAt : Time) : Step :=
  { s with state := .ready, waitReason := none, eligibleAt := some eligibleAt }

/-- `SET state='FAILED', wait_reason=…`. -/
def failWith (s : Step) (reason : String) : Step :=
  { s with state := .failed, waitReason := some reason }

/-- `SET state='CANCELLED' WHERE state IN ('BLOCKED','READY','WAITING','RUNNING')`. -/
def cancelOpen (s : Step) : Step :=
  if s.state.terminal then s else { s with state := .cancelled }

/-- `SET state='CANCELLED', wait_reason=… WHERE state IN
('BLOCKED','READY','WAITING','RUNNING')`. -/
def cancelOpenWith (s : Step) (reason : Option String) : Step :=
  if s.state.terminal then s else { s with state := .cancelled, waitReason := reason }

/-- `SET state='CANCELLED' WHERE state IN ('BLOCKED','READY','WAITING')`: a running step
stays. -/
def cancelIdle (s : Step) : Step :=
  if s.state.terminal || s.state == .running then s else { s with state := .cancelled }

/-- A hold with its case, `worker_engine.go:340-356`. No state is tested. -/
def hold (s : Step) (case : Case) : Step :=
  { s with
    state := .waiting
    waitReason := some "RECONCILIATION"
    cases := s.cases ++ [case] }

def mintWindow (s : Step) (validUntil : Time) : Step :=
  if s.idempotencyValidUntil.isNone then { s with idempotencyValidUntil := some validUntil }
  else s

/-! ### Timers -/

/-- The `PENDING` timer of a kind. -/
def pendingTimer? (s : Step) (kind : TimerKind) : Option Timer :=
  s.timers.find? fun t => t.kind == kind && t.state == .pending

/-- `UPDATE timers SET state='CANCELLED' WHERE state='PENDING'`. -/
def cancelTimers (s : Step) : Step :=
  { s with timers := s.timers.map fun t =>
      if t.state = .pending then { t with state := .cancelled } else t }

/-- `UPDATE timers SET state='FIRED' WHERE id = id AND state='PENDING'`. -/
def fireTimer (s : Step) (id : TimerID) (now : Time) : Step :=
  { s with timers := s.timers.map fun t =>
      if t.id = id ∧ t.state = .pending then { t with state := .fired, firedAt := some now }
      else t }

def parkRetry (s : Step) (timer : Option Timer) (dueAt : Time) : Step :=
  { s with
    timers := s.timers ++ timer.toList
    state := .waiting
    waitReason := some "RETRY_BACKOFF"
    eligibleAt := some dueAt }

/-- The timer insert of a delay and the park of a blocked step,
`worker_engine.go:480-497`. -/
def parkDelay (s : Step) (timer : Option Timer) (dueAt : Time) : Step :=
  let inserted := { s with timers := s.timers ++ timer.toList }
  if s.state = .blocked then
    { inserted with state := .waiting, waitReason := some "DELAY", eligibleAt := some dueAt }
  else inserted

/-! ### Cases -/

def openCaseIDs (s : Step) : List CaseID :=
  (s.cases.filter fun c => c.status == .open).map Case.id

end Step

/-- `SET status='RESOLVED', resolution=…, actor_id=…, revision=revision+1, resolved_at=…`. -/
def Case.resolve (c : Case) (resolution : CaseResolution) (actorID : Option ActorID)
    (now : Time) : Case :=
  { c with
    status := .resolved
    resolution := some resolution
    actorID := actorID
    revision := c.revision + 1
    resolvedAt := some now }

namespace Step

/-- `UPDATE reconciliation_cases … WHERE status='OPEN'`. -/
def closeOpenCases (s : Step) (actorID : Option ActorID) (resolution : CaseResolution)
    (now : Time) : Step :=
  { s with cases := s.cases.map fun c =>
      if c.status = .open then c.resolve resolution actorID now else c }

/-- `UPDATE reconciliation_cases … WHERE id = id AND status='OPEN'`. -/
def resolveCase (s : Step) (id : CaseID) (resolution : CaseResolution) (actorID : ActorID)
    (now : Time) : Step :=
  { s with cases := s.cases.map fun c =>
      if c.id = id ∧ c.status = .open then c.resolve resolution (some actorID) now else c }

/-! ### Approvals -/

/-- The insert of an approval and the park of a blocked step,
`approval.go:145-175`. -/
def requestApproval (s : Step) (approval : Approval) : Step :=
  let inserted := { s with approval := some approval }
  if s.state = .blocked then
    { inserted with state := .waiting, waitReason := some "APPROVAL", eligibleAt := none }
  else inserted

/-- `UPDATE approvals … WHERE status='PENDING'`. -/
def updatePendingApproval (s : Step) (f : Approval → Approval) : Step :=
  { s with approval := s.approval.map fun a => if a.status = .pending then f a else a }

/-- A committed decision, `approval.go:529-540`. -/
def decideApproval (s : Step) (status : ApprovalStatus) (comment : String) (actorID : ActorID)
    (now : Time) : Step :=
  s.updatePendingApproval fun a =>
    { a with
      status := status
      decidedAt := some now
      decisionComment := some comment
      actorID := some actorID
      revision := a.revision + 1 }

def expireApproval (s : Step) : Step :=
  s.updatePendingApproval fun a => { a with status := .expired, revision := a.revision + 1 }

def cancelApproval (s : Step) : Step :=
  s.updatePendingApproval fun a => { a with status := .cancelled, revision := a.revision + 1 }

end Step

/-! ### Queries on one run -/

namespace Run

def stepsByID (r : Run) : List (StepID × Step) :=
  r.steps.rows.insertionSort fun a b => a.1 ≤ b.1

/-- The `CLAIMED` and `RUNNING` attempts with their steps, in lock order. -/
def liveAttempts (r : Run) : List (StepID × Attempt) :=
  r.stepsByID.flatMap fun e =>
    ((e.2.attempts.filter fun a => a.status.live).insertionSort fun a b => a.id ≤ b.id).map
      fun a => (e.1, a)

def firstNonterminal? (r : Run) : Option StepID :=
  (r.stepsByID.find? fun e => !e.2.state.terminal).map Prod.fst

def hasReadyOrRunning (r : Run) : Bool :=
  r.anyStep fun s => s.state == .ready || s.state == .running

def openCaseIDs (r : Run) : List CaseID := r.steps.rows.flatMap fun e => e.2.openCaseIDs

def attempt? (r : Run) (id : AttemptID) : Option (StepID × Step × Attempt) :=
  r.steps.rows.findSome? fun e =>
    (e.2.attempts.find? fun a => a.id == id).map fun a => (e.1, e.2, a)

def stateOfNode? (r : Run) (nodeID : String) : Option StepState :=
  (r.steps.rows.find? fun e => e.2.nodeID == nodeID).map fun e => e.2.state

end Run

end Deadbolt.Execution

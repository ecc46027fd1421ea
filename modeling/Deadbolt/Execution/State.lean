import Deadbolt.Base.Tx
import Deadbolt.Execution.Manifest

/-!
# Rows of the execution tables

The tables of `migrations/00003_execution_and_claims.sql` and later migrations for one organization;
every query of the engine is scoped to it. Rows that belong to a step by foreign key (attempts, the
lease, timers, cases, the approval) are kept inside the step, and steps and history inside their
run.
-/

namespace Deadbolt.Execution

open Base Contracts

abbrev RunID := Nat
abbrev StepID := Nat
abbrev AttemptID := Nat
abbrev TimerID := Nat
abbrev CaseID := Nat
abbrev ApprovalID := Nat
abbrev WorkerID := Nat
abbrev SessionID := Nat
abbrev EnvironmentID := Nat
abbrev DeploymentID := Nat
abbrev ActorID := Nat

/-- An event or evidence payload: the members of a JSON object. -/
abbrev Payload := List (String × Json)

def idJson (id : Nat) : Json := .num id

/-! ### Attempts and leases -/

inductive AttemptStatus where
  | claimed | running | succeeded | failed | timedOut | lost | cancelled
  deriving DecidableEq

/-- `status IN ('CLAIMED','RUNNING')`. -/
def AttemptStatus.live : AttemptStatus → Bool
  | .claimed | .running => true
  | _ => false

/-- A row of `stop_commands`. -/
structure StopCommand where
  reason : String
  deadlineAt : Time
  ackedAt : Option Time
  terminationConfirmedAt : Option Time

/-- A row of `task_attempts`. -/
structure Attempt where
  id : AttemptID
  number : Int
  sessionID : SessionID
  epoch : Int
  status : AttemptStatus
  claimStartDeadlineAt : Option Time
  timeoutMs : Int
  startedAt : Option Time
  deadlineAt : Option Time
  completedAt : Option Time
  createdAt : Time
  outcomeDigest : Option String
  error : Option Json
  stops : List StopCommand

/-- A row of `task_leases`; its primary key is the step. -/
structure Lease where
  attemptID : AttemptID
  sessionID : SessionID
  epoch : Int
  expiresAt : Time

/-! ### Timers, cases and approvals -/

/-- The `timers.kind` values the engine writes. -/
inductive TimerKind where
  | retryBackoff | delay
  deriving DecidableEq

inductive TimerState where
  | pending | fired | cancelled
  deriving DecidableEq

/-- A row of `timers`; `reference_id` is the step. -/
structure Timer where
  id : TimerID
  kind : TimerKind
  dueAt : Time
  state : TimerState
  attemptNumber : Option Int
  operationID : Option String
  reason : String
  firedAt : Option Time

inductive CaseResolution where
  | retry | succeed | fail | cancel
  deriving DecidableEq

inductive CaseStatus where
  | open | resolved
  deriving DecidableEq

/-- A row of `reconciliation_cases`. -/
structure Case where
  id : CaseID
  attemptID : Option AttemptID
  reason : String
  evidence : Payload
  status : CaseStatus
  resolution : Option CaseResolution
  actorID : Option ActorID
  revision : Int
  resolvedAt : Option Time

inductive ApprovalStatus where
  | pending | approved | rejected | expired | cancelled
  deriving DecidableEq

/-- A row of `approvals`; `step_id` is unique. -/
structure Approval where
  id : ApprovalID
  payload : Json
  requiredPermission : String
  status : ApprovalStatus
  expiresAt : Option Time
  decidedAt : Option Time
  decisionComment : Option String
  actorID : Option ActorID
  revision : Int

/-! ### Steps -/

inductive StepState where
  | blocked | ready | running | waiting | succeeded | failed | cancelled | skipped
  deriving DecidableEq

/-- `state IN ('SUCCEEDED','FAILED','CANCELLED','SKIPPED')`. -/
def StepState.terminal : StepState → Bool
  | .succeeded | .failed | .cancelled | .skipped => true
  | _ => false

inductive CompletionSource where
  | worker | reconciliation | timer
  deriving DecidableEq

/-- A row of `run_steps` with the rows that reference it. A step output is SQL `NULL`
(`none`) until a write, and may then be JSON null. -/
structure Step where
  nodeID : String
  kind : NodeType
  state : StepState
  waitReason : Option String
  currentEpoch : Int
  nextAttemptNumber : Int
  eligibleAt : Option Time
  output : Option Json
  completionSource : Option CompletionSource
  idempotencyValidUntil : Option Time
  attempts : List Attempt
  lease : Option Lease
  timers : List Timer
  cases : List Case
  approval : Option Approval

namespace Step

def hasLive (s : Step) : Bool := s.attempts.any fun a => a.status.live

def hasPending (kind : TimerKind) (s : Step) : Bool :=
  s.timers.any fun t => t.kind == kind && t.state == .pending

def hasOpenCase (s : Step) : Bool := s.cases.any fun c => c.status == .open

def hasPendingApproval (s : Step) : Bool := (s.approval.map fun a => a.status == .pending).getD false

def waitsFor (reason : String) (s : Step) : Bool :=
  s.state == .waiting && s.waitReason == some reason

end Step

/-! ### History -/

/-- The `run_events.event_type` values the engine writes. -/
inductive EventType where
  | runCreated | runWaiting | runPausing | runPaused | runResumed | runCancelling
  | runCancelled | runFailed | runCompleted
  | stepReady | stepWaiting | stepSkipped | stepSucceeded
  | taskClaimed | taskStarted | taskCompleted | taskLost
  | approvalRequested | approvalDecided | approvalExpired | caseResolved
  deriving DecidableEq

/-- `RUN_COMPLETED`, `RUN_FAILED` and `RUN_CANCELLED`. -/
def EventType.terminal : EventType → Bool
  | .runCompleted | .runFailed | .runCancelled => true
  | _ => false

structure Event where
  sequence : Nat
  type : EventType
  payload : Payload

/-- A row of `outbox_events` written with a run event. -/
structure OutboxEvent where
  sequence : Option Nat
  type : EventType

/-! ### Runs -/

structure Deployment where
  id : DeploymentID
  environmentID : EnvironmentID
  bundleDigest : String
  manifest : DeploymentManifest

/-- A row of `runs` with its steps and history. -/
structure Run where
  id : RunID
  environmentID : EnvironmentID
  deployment : Deployment
  workflowName : String
  idempotencyKey : String
  status : RunStatus
  reasonCode : Option String
  revision : Int
  input : Json
  output : Option Json
  deadlineAt : Option Time
  lastEventSequence : Nat
  terminationConfirmed : Option Bool
  pauseRequested : Bool
  reconciliationCheckedAt : Option Time
  createdAt : Time
  steps : Table StepID Step
  events : List Event
  outbox : List OutboxEvent

namespace Run

def workflow? (r : Run) : Option WorkflowManifest := r.deployment.manifest.workflow? r.workflowName

/-- `UPDATE run_steps … WHERE run_id = …`, row by row. -/
def mapSteps (r : Run) (f : StepID → Step → Step) : Run := { r with steps := r.steps.mapRows f }

/-- `UPDATE run_steps … WHERE id = id AND p`. -/
def updateStep (r : Run) (id : StepID) (p : Step → Bool) (f : Step → Step) : Run :=
  r.mapSteps fun k s => if k = id ∧ p s = true then f s else s

def anyStep (r : Run) (p : Step → Bool) : Bool := r.steps.any p

/-- `EXISTS` a `CLAIMED` or `RUNNING` attempt of the run. -/
def hasLive (r : Run) : Bool := r.anyStep Step.hasLive

/-- The number of `CLAIMED` or `RUNNING` attempts of the run. -/
def liveCount (r : Run) : Nat :=
  (r.steps.rows.map fun e => (e.2.attempts.filter fun a => a.status.live).length).sum

/-- `EXISTS` an `OPEN` case of the run. -/
def hasOpenCase (r : Run) : Bool := r.anyStep Step.hasOpenCase

/-- `EXISTS` an attempt of the run with `started_at IS NOT NULL`. -/
def hasStarted (r : Run) : Bool := r.anyStep fun s => s.attempts.any fun a => a.startedAt.isSome

/-- The deadline has passed at a database time; a missing deadline never passes. -/
def overdue (r : Run) (now : Time) : Bool :=
  match r.deadlineAt with
  | none => false
  | some deadline => decide (deadline ≤ now)

end Run

end Deadbolt.Execution

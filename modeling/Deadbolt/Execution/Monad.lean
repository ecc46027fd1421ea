import Deadbolt.Execution.Status

/-!
# Transactions on one run

The engine locks a run before its steps and writes one run at a time, so its helpers are
transactions on one run. A reading of `clock_timestamp()` and a generated id consume one
element of an unbounded supply; the supply is what the environment decides. The trace is
a history variable: it keeps the run as certain statements found it, and no statement
reads it.
-/

namespace Deadbolt.Execution

open Base Contracts

/-- What the engine takes from outside: the database clock and id generator, random draws,
the JSON Schema validator, the canonical encoder and hash, text formats, and the iteration
order of Go maps. -/
class Platform where
  clock : Nat → Time
  clock_mono : ∀ {m n : Nat}, m ≤ n → clock m ≤ clock n
  uuid : Nat → Nat
  uuid_injective : ∀ {m n : Nat}, uuid m = uuid n → m = n
  jitter : Nat → Nat
  validatePayload : Json → Json → Bool
  canonicalSize : Json → Nat
  canonicalDigest : Json → String
  operationID : EnvironmentID → RunID → String → String
  formatTime : Time → String
  parseHTTPDate : String → Option Time
  mapOrder : List String → List String
  mapOrder_perm : ∀ l, (mapOrder l).Perm l

/-- `contracts.ValidatePayload` against an optional schema; no schema accepts everything. -/
def schemaAccepts [Platform] (schema : Option Json) (value : Json) : Bool :=
  match schema with
  | none => true
  | some s => Platform.validatePayload s value

def maxInlinePayloadBytes : Nat := 262144

/-- `CanonicalizeGeneric` succeeds within the inline payload limit. -/
def fitsInline [Platform] (value : Json) : Bool :=
  value.check 0 && decide (Platform.canonicalSize value ≤ maxInlinePayloadBytes)

def timeJson [Platform] (t : Time) : Json := .str (Platform.formatTime t)

inductive EngineError where
  | unauthorized | sessionRevoked | sessionExpired | workerRevoked | recoveryControlsUnavailable
  | attemptNotFound | staleOwnership | startDeadlineExceeded | resultConflict | invalidOutcome
  | payloadTooLarge | artifactAssociationUnavailable
  | runNotFound | runTerminal | runCancelling | runNotPaused | runDeadlineExceeded
  | revisionConflict | historyLimitExceeded
  | caseNotFound | caseResolved | invalidAction | invalidRecovery | resultSchema | resultTooLarge
  | budgetExhausted | windowInsufficient | missingEvidence | missingReason | reasonTooLong
  | missingResult
  | approvalNotFound | approvalTerminal | approvalConflict | approvalExpired
  | idempotencyConflict | admissionDisabled | createRateLimited | runQuotaExceeded
  | deploymentNotFound | noActiveDeployment | workflowNotFound | workflowTooLarge
  | schemaViolation | sessionQuotaExceeded
  | inputMapping (err : ContractError)
  | invalidDelay | approvalConfigMissing
  | noRows | uniqueViolation
  deriving DecidableEq

/-- The statements whose found state the trace keeps. -/
inductive VisitKind where
  /-- `failRunForStepTx` starts. -/
  | failRun (stepID : StepID)
  /-- A live attempt is completed or lost, with the status it is committed with and the effect
  status it is judged by. -/
  | closeAttempt (stepID : StepID) (status : AttemptStatus) (effect : String)
  /-- A claim fails the run for missing artifacts. -/
  | artifactFailure (stepID : StepID)
  /-- The lease sweep fails an overdue run for a lost attempt. -/
  | deadlineLost (stepID : StepID) (attemptID : AttemptID)
  /-- The lease sweep fails an overdue run for a handed off step. -/
  | deadlineHandoff (stepID : StepID)
  /-- The lease sweep fails a run whose handed off step has no attempt left. -/
  | handoffExhausted (stepID : StepID)
  /-- The event budget of the run is exhausted. -/
  | historyLimit
  /-- A claim holds its candidate for reconciliation. -/
  | claimHold (stepID : StepID)
  /-- A claim creates an attempt, with the clock reading of its row. -/
  | claimAttempt (stepID : StepID) (now : Time)
  /-- A claim writes the idempotency deadline, with the clock reading it is counted from. -/
  | mintWindow (stepID : StepID) (now : Time)
  /-- A claim parks the run on the concurrency quota. -/
  | quotaWait
  /-- A live attempt loses its session. -/
  | fence (stepID : StepID)
  /-- A run leaves its pause. -/
  | resume
  /-- The decision output of an approval violates its schema. -/
  | approvalOutputRejected (stepID : StepID)
  /-- An operator confirms the success of a held step. -/
  | confirmSucceeded (stepID : StepID)
  /-- An operator confirms that a held step is to be retried. -/
  | confirmRetry (stepID : StepID)
  /-- An approval is requested. -/
  | openApproval (stepID : StepID)
  /-- The run status is recomputed after an approval was granted. -/
  | control
  /-- A delay is scheduled. -/
  | scheduleDelay (stepID : StepID)
  /-- Disaster recovery holds the run. -/
  | disasterHold
  /-- A run whose steps are all terminal ends. -/
  | settle
  /-- A run is paused. -/
  | pause
  /-- The run status is recomputed after a delay was fired. -/
  | delayWait
  deriving DecidableEq

structure Visit where
  kind : VisitKind
  run : Run

/-- Consumed readings and draws, and the trace. -/
structure Sys where
  ticks : Nat
  draws : Nat
  trace : List Visit

structure RunScope where
  runID : RunID
  run : Run
  sys : Sys

abbrev RunTx := Tx RunScope EngineError

namespace RunScope

def withRun (c : RunScope) (r : Run) : RunScope := { c with run := r }

def tick (c : RunScope) : RunScope := { c with sys := { c.sys with ticks := c.sys.ticks + 1 } }

def draw (c : RunScope) : RunScope := { c with sys := { c.sys with draws := c.sys.draws + 1 } }

def visit (c : RunScope) (k : VisitKind) : RunScope :=
  { c with sys := { c.sys with trace := c.sys.trace ++ [⟨k, c.run⟩] } }

@[simp] theorem run_withRun (c : RunScope) (r : Run) : (c.withRun r).run = r := rfl
@[simp] theorem sys_withRun (c : RunScope) (r : Run) : (c.withRun r).sys = c.sys := rfl
@[simp] theorem run_tick (c : RunScope) : c.tick.run = c.run := rfl
@[simp] theorem run_draw (c : RunScope) : c.draw.run = c.run := rfl
@[simp] theorem run_visit (c : RunScope) (k : VisitKind) : (c.visit k).run = c.run := rfl
@[simp] theorem trace_visit (c : RunScope) (k : VisitKind) :
    (c.visit k).sys.trace = c.sys.trace ++ [⟨k, c.run⟩] := rfl

end RunScope

namespace RunTx

def clockTimestamp [Platform] : RunTx Time := do
  let now ← Tx.read fun c => Platform.clock c.sys.ticks
  Tx.write RunScope.tick
  return now

def newID [Platform] : RunTx Nat := do
  let id ← Tx.read fun c => Platform.uuid c.sys.draws
  Tx.write RunScope.draw
  return id

def sampleJitter [Platform] : RunTx Nat := do
  let sample ← Tx.read fun c => Platform.jitter c.sys.draws
  Tx.write RunScope.draw
  return sample

def note (kind : VisitKind) : RunTx Unit := Tx.write fun c => c.visit kind

def getRun : RunTx Run := Tx.read RunScope.run

def getRunID : RunTx RunID := Tx.read RunScope.runID

/-- `SELECT … FROM run_steps WHERE id = id`; no row is an error. -/
def getStep (id : StepID) : RunTx Step := do
  let row ← Tx.read fun c => c.run.steps.find? id
  match row with
  | some s => return s
  | none => Tx.fail .noRows

def modifyRun (f : Run → Run) : RunTx Unit := Tx.write fun c => c.withRun (f c.run)

/-- `UPDATE runs … WHERE p`; the result is whether the row matched. -/
def updateRun (p : Run → Bool) (f : Run → Run) : RunTx Bool := do
  let hit ← Tx.read fun c => p c.run
  modifyRun fun r => if p r = true then f r else r
  return hit

/-- `UPDATE run_steps … WHERE id = id AND p`; the result is whether the row matched. -/
def updateStep (id : StepID) (p : Step → Bool) (f : Step → Step) : RunTx Bool := do
  let hit ← Tx.read fun c => (c.run.steps.find? id).any p
  modifyRun fun r => r.updateStep id p f
  return hit

/-- `UPDATE run_steps … WHERE run_id = …`, row by row. -/
def mapSteps (f : StepID → Step → Step) : RunTx Unit := modifyRun fun r => r.mapSteps f

variable [Platform]

@[simp] theorem commits_clockTimestamp (c : RunScope) (Q : Time → RunScope → Prop) :
    Tx.Commits clockTimestamp c Q ↔ Q (Platform.clock c.sys.ticks) c.tick := by
  simp [clockTimestamp]

@[simp] theorem commits_newID (c : RunScope) (Q : Nat → RunScope → Prop) :
    Tx.Commits newID c Q ↔ Q (Platform.uuid c.sys.draws) c.draw := by
  simp [newID]

@[simp] theorem commits_sampleJitter (c : RunScope) (Q : Nat → RunScope → Prop) :
    Tx.Commits sampleJitter c Q ↔ Q (Platform.jitter c.sys.draws) c.draw := by
  simp [sampleJitter]

omit [Platform] in
@[simp] theorem commits_note (k : VisitKind) (c : RunScope) (Q : Unit → RunScope → Prop) :
    Tx.Commits (note k) c Q ↔ Q () (c.visit k) := by
  simp [note]

omit [Platform] in
@[simp] theorem commits_getRun (c : RunScope) (Q : Run → RunScope → Prop) :
    Tx.Commits getRun c Q ↔ Q c.run c := by
  simp [getRun]

omit [Platform] in
@[simp] theorem commits_getRunID (c : RunScope) (Q : RunID → RunScope → Prop) :
    Tx.Commits getRunID c Q ↔ Q c.runID c := by
  simp [getRunID]

omit [Platform] in
@[simp] theorem commits_getStep (id : StepID) (c : RunScope) (Q : Step → RunScope → Prop) :
    Tx.Commits (getStep id) c Q ↔ ∀ s, c.run.steps.find? id = some s → Q s c := by
  simp only [getStep, Tx.commits_bind, Tx.commits_read]
  cases c.run.steps.find? id <;> simp

omit [Platform] in
@[simp] theorem commits_modifyRun (f : Run → Run) (c : RunScope)
    (Q : Unit → RunScope → Prop) :
    Tx.Commits (modifyRun f) c Q ↔ Q () (c.withRun (f c.run)) := by
  simp [modifyRun]

omit [Platform] in
@[simp] theorem commits_updateRun (p : Run → Bool) (f : Run → Run) (c : RunScope)
    (Q : Bool → RunScope → Prop) :
    Tx.Commits (updateRun p f) c Q ↔
      Q (p c.run) (c.withRun (if p c.run = true then f c.run else c.run)) := by
  simp [updateRun]

omit [Platform] in
@[simp] theorem commits_updateStep (id : StepID) (p : Step → Bool) (f : Step → Step)
    (c : RunScope) (Q : Bool → RunScope → Prop) :
    Tx.Commits (updateStep id p f) c Q ↔
      Q ((c.run.steps.find? id).any p) (c.withRun (c.run.updateStep id p f)) := by
  simp [updateStep]

omit [Platform] in
@[simp] theorem commits_mapSteps (f : StepID → Step → Step) (c : RunScope)
    (Q : Unit → RunScope → Prop) :
    Tx.Commits (mapSteps f) c Q ↔ Q () (c.withRun (c.run.mapSteps f)) := by
  simp [mapSteps]

/-! Each statement commits but `getStep`, which wants its row. -/

@[simp] theorem ensures_clockTimestamp (c : RunScope) (Q : Time → RunScope → Prop) :
    Tx.Ensures clockTimestamp c Q ↔ Q (Platform.clock c.sys.ticks) c.tick := by
  simp [clockTimestamp]

omit [Platform] in
@[simp] theorem ensures_note (k : VisitKind) (c : RunScope) (Q : Unit → RunScope → Prop) :
    Tx.Ensures (note k) c Q ↔ Q () (c.visit k) := by
  simp [note]

omit [Platform] in
@[simp] theorem ensures_getRun (c : RunScope) (Q : Run → RunScope → Prop) :
    Tx.Ensures getRun c Q ↔ Q c.run c := by
  simp [getRun]

omit [Platform] in
omit [Platform] in
@[simp] theorem ensures_getStep (id : StepID) (c : RunScope) (Q : Step → RunScope → Prop) :
    Tx.Ensures (getStep id) c Q ↔ ∃ s, c.run.steps.find? id = some s ∧ Q s c := by
  simp only [getStep, Tx.ensures_bind, Tx.ensures_read]
  cases c.run.steps.find? id <;> simp

omit [Platform] in
@[simp] theorem ensures_modifyRun (f : Run → Run) (c : RunScope) (Q : Unit → RunScope → Prop) :
    Tx.Ensures (modifyRun f) c Q ↔ Q () (c.withRun (f c.run)) := by
  simp [modifyRun]

omit [Platform] in
omit [Platform] in
@[simp] theorem ensures_updateStep (id : StepID) (p : Step → Bool) (f : Step → Step)
    (c : RunScope) (Q : Bool → RunScope → Prop) :
    Tx.Ensures (updateStep id p f) c Q ↔
      Q ((c.run.steps.find? id).any p) (c.withRun (c.run.updateStep id p f)) := by
  simp [updateStep]

omit [Platform] in
@[simp] theorem ensures_mapSteps (f : StepID → Step → Step) (c : RunScope)
    (Q : Unit → RunScope → Prop) :
    Tx.Ensures (mapSteps f) c Q ↔ Q () (c.withRun (c.run.mapSteps f)) := by
  simp [mapSteps]

end RunTx

/-! ### History -/

/-- `maxRunEvents`, `internal/execution/service.go:40`. -/
def maxRunEvents : Nat := 10000

namespace Run

/-- The budget test of `appendRunEvent`, `worker_engine.go:3659-3663`: the
last slot is kept for a terminal event. -/
def hasEventSlot (r : Run) (type : EventType) : Bool :=
  decide (r.lastEventSequence < maxRunEvents - 1) ||
    (type.terminal && decide (r.lastEventSequence = maxRunEvents - 1))

def pushEvent (r : Run) (type : EventType) (payload : Payload) : Run :=
  { r with
    lastEventSequence := r.lastEventSequence + 1
    events := r.events ++ [⟨r.lastEventSequence + 1, type, payload⟩]
    outbox := r.outbox ++ [⟨some (r.lastEventSequence + 1), type⟩] }

end Run

/-- `appendRunEvent`, `worker_engine.go:3649-3686`. -/
def appendRunEvent (type : EventType) (payload : Payload) : RunTx Unit := do
  let r ← RunTx.getRun
  if r.hasEventSlot type then RunTx.modifyRun fun r => r.pushEvent type payload
  else Tx.fail .historyLimitExceeded

/-- `appendRunEvent` by a caller that ignores an exhausted budget. -/
def appendRunEventIfRoom (type : EventType) (payload : Payload) : RunTx Unit := do
  let r ← RunTx.getRun
  if r.hasEventSlot type then RunTx.modifyRun fun r => r.pushEvent type payload
  else pure ()

@[simp] theorem commits_appendRunEvent (type : EventType) (payload : Payload) (c : RunScope)
    (Q : Unit → RunScope → Prop) :
    Tx.Commits (appendRunEvent type payload) c Q ↔
      (c.run.hasEventSlot type = true → Q () (c.withRun (c.run.pushEvent type payload))) := by
  simp [appendRunEvent]

@[simp] theorem ensures_appendRunEvent (type : EventType) (payload : Payload) (c : RunScope)
    (Q : Unit → RunScope → Prop) :
    Tx.Ensures (appendRunEvent type payload) c Q ↔
      c.run.hasEventSlot type = true ∧ Q () (c.withRun (c.run.pushEvent type payload)) := by
  simp only [appendRunEvent, Tx.ensures_bind, RunTx.ensures_getRun, Tx.ensures_ite,
    RunTx.ensures_modifyRun, Tx.ensures_fail]
  cases c.run.hasEventSlot type <;> simp

@[simp] theorem commits_appendRunEventIfRoom (type : EventType) (payload : Payload)
    (c : RunScope) (Q : Unit → RunScope → Prop) :
    Tx.Commits (appendRunEventIfRoom type payload) c Q ↔
      (c.run.hasEventSlot type = true → Q () (c.withRun (c.run.pushEvent type payload))) ∧
        (c.run.hasEventSlot type = false → Q () c) := by
  simp [appendRunEventIfRoom]

end Deadbolt.Execution

import Deadbolt.Execution.Sample

/-!
# The completion an agent sends

From the runner to the request: `executeTask` and `runMain` of `runner/node/src/runner.ts:115-267`,
the exits of `ExecuteAttempt`, `internal/worker/process.go:290-440`, and the rest of
`executeAssignment` with `assembleCompleteRequest`, `agent.go:412-594`. What the machine and the
task decide (failed checks, how the handler ends, where the process is when it is killed, how it
exits) is an argument.
-/

namespace Deadbolt.Agent

open Base Contracts Deadbolt.Execution

/-! ### The runner -/

/-- `TaskError` of the result channel, `types.go:32-37`. It has no effect status. -/
structure RunnerError where
  code : String
  message : String
  retryable : Bool
  details : Option Json

inductive CompletionStatus where
  | succeeded | failed
  deriving DecidableEq

/-- `TaskCompletion`, `types.go:44-50`. -/
structure TaskCompletion where
  status : CompletionStatus
  output : Option Json
  error : Option RunnerError

/-- What user code throws, with the fields the runner reads and the effect status a handler may
report with it. -/
structure Thrown where
  code : Option String
  name : Option String
  message : String
  retryable : Bool
  effectStatus : Option String

inductive HandlerEnd where
  | returns (output : Option Json)
  | throws (err : Thrown)

/-- Where the process is when it is killed or crashes. -/
inductive Killed where
  | beforeHandler
  | inHandler
  | beforeResult
  /-- The result file is half written. -/
  | inResult
  deriving DecidableEq

structure RunnerRun where
  /-- `stepId` is a non-empty string. -/
  hasStepID : Bool
  /-- `resolveHandler` throws, the import of the module included. -/
  unresolved : Option Thrown
  handler : HandlerEnd
  /-- The abort signal is raised before the handler ends. -/
  aborted : Bool
  killed : Option Killed

inductive Delivered where
  | nothing
  | malformed
  | completion (c : TaskCompletion)

namespace RunnerRun

/-- User code has been called. -/
def invoked (x : RunnerRun) : Bool :=
  x.hasStepID && x.unresolved.isNone && x.killed != some .beforeHandler

/-- The handler reported that nothing was applied. -/
def reportsNotApplied (x : RunnerRun) : Bool :=
  match x.handler with
  | .throws err => err.effectStatus == some "NOT_APPLIED"
  | .returns _ => false

/-- The completion of a thrown error, `runner.ts:186-208`. -/
def failure (x : RunnerRun) (err : Thrown) : TaskCompletion where
  status := .failed
  output := none
  error := some
    { code := if x.aborted then "ABORTED" else (err.code <|> err.name).getD "TASK_EXECUTION_ERROR"
      message := err.message, retryable := err.retryable, details := none }

/-- The completion `executeTask` builds, `runner.ts:115-223`. -/
def completion (x : RunnerRun) : TaskCompletion :=
  if !x.hasStepID then
    { status := .failed, output := none
      error := some ⟨"INVALID_INPUT", "stepId is required", false, none⟩ }
  else
    match x.unresolved with
    | some err => x.failure err
    | none =>
      match x.handler with
      | .returns output => { status := .succeeded, output := some (output.getD .null), error := none }
      | .throws err => x.failure err

/-- What is in the result file when the process is gone. -/
def delivered (x : RunnerRun) : Delivered :=
  match x.killed with
  | none => .completion x.completion
  | some .inResult => .malformed
  | some _ => .nothing

end RunnerRun

/-! ### The supervisor -/

/-- What `ExecuteAttempt` meets. -/
inductive Attempted where
  /-- A check before the launch fails, or the launch itself; no process exists. -/
  | refused (err : String)
  /-- The input cannot be written, `process.go:359-362`: the runner, which reads
  its whole input first, is killed. -/
  | writeFailed (err : String)
  /-- The runner ran; `finalErr` is the exit status, the timeout, the termination or the lost
  lease. -/
  | ran (run : RunnerRun) (finalErr : Option String)

namespace Attempted

def invoked : Attempted → Bool
  | ran run _ => run.invoked
  | _ => false

def reportsNotApplied : Attempted → Bool
  | ran run _ => run.reportsNotApplied
  | _ => false

/-- The result of `ExecuteAttempt`, `process.go:290-440`. -/
def result : Attempted → Option TaskCompletion × Option String
  | refused err => (none, some err)
  | writeFailed err => (none, some ("write input: " ++ err))
  | ran run finalErr =>
    match run.delivered with
    | .nothing =>
      (some { status := .failed, output := none
              error := some ⟨"NO_RESULT_DELIVERED",
                "Process exited without writing to result channel: " ++ finalErr.getD "<nil>",
                false, none⟩ }, finalErr)
    | .malformed =>
      (some { status := .failed, output := none
              error := some ⟨"MALFORMED_RESULT_PAYLOAD", "unexpected end of JSON input", false,
                none⟩ }, some "unexpected end of JSON input")
    | .completion c => (some c, finalErr)

end Attempted

/-! ### The agent -/

/-- The fields of `AssignmentDTO` that a completion carries. -/
structure Assignment where
  attemptID : AttemptID
  ownershipEpoch : Int

/-- The answer of `maybePublishArtifact`, `artifact_upload.go:160-173`. -/
inductive Published where
  | inline
  | artifact (id : String)
  | failed (code message : String) (retryable : Bool)

/-- `assembleCompleteRequest`, `agent.go:541-594`. -/
def assembleCompleteRequest (a : Assignment) (completion : Option TaskCompletion)
    (execErr : Option String) (published : Published) : CompleteRequest :=
  let base : CompleteRequest :=
    { attemptID := a.attemptID, ownershipEpoch := a.ownershipEpoch, outcome := .failed
      output := none, artifactID := "", error := none, resultDigest := "" }
  match completion, execErr with
  | some c, none =>
    if c.status = .succeeded then
      match published with
      | .failed code message retryable =>
        { base with error := some ⟨code, message, none, retryable, "UNKNOWN", ""⟩ }
      | .artifact id => { base with outcome := .succeeded, artifactID := id }
      | .inline => { base with outcome := .succeeded, output := c.output }
    else
      { base with error := c.error.map fun e =>
          ⟨e.code, e.message, e.details, e.retryable, "NOT_APPLIED", ""⟩ }
  | some c, some err =>
    match c.error with
    | some e => { base with error := some ⟨e.code, e.message, e.details, e.retryable, "NOT_APPLIED", ""⟩ }
    | none => { base with error := some ⟨"WORKER_PREFLIGHT_FAILED", err, none, false, "NOT_APPLIED", ""⟩ }
  | none, some err =>
    { base with error := some ⟨"WORKER_PREFLIGHT_FAILED", err, none, false, "NOT_APPLIED", ""⟩ }
  | none, none => base

/-- What the execution of an assignment meets after `Start` is accepted. -/
structure AssignmentRun where
  assignment : Assignment
  /-- A secret of the task is not set. -/
  missingSecret : Option String
  attempted : Attempted
  /-- The worker is revoked before the completion. -/
  revoked : Bool
  published : Published

namespace AssignmentRun

def invoked (x : AssignmentRun) : Bool := x.missingSecret.isNone && x.attempted.invoked

variable [Platform]

def signed (req : CompleteRequest) : CompleteRequest :=
  { req with resultDigest := canonicalCompletionDigest req }

/-- The completion that is sent, `agent.go:412-498`. -/
def sent (x : AssignmentRun) : Option CompleteRequest :=
  match x.missingSecret with
  | some err =>
    some (signed
      { attemptID := x.assignment.attemptID, ownershipEpoch := x.assignment.ownershipEpoch
        outcome := .failed, output := none, artifactID := ""
        error := some ⟨"MISSING_REQUIRED_SECRET", err, none, false, "NOT_APPLIED", ""⟩
        resultDigest := "" })
  | none =>
    if x.revoked then none
    else some (signed (assembleCompleteRequest x.assignment x.attempted.result.1
      x.attempted.result.2 x.published))

def saysNotApplied (x : AssignmentRun) : Bool :=
  x.sent.any fun req => req.error.any fun e => e.effectStatus == "NOT_APPLIED"

/-- The handler returned, and its process delivered the result and exited without an error. -/
def clean (x : AssignmentRun) : Bool :=
  match x.attempted with
  | .ran run none =>
    run.killed.isNone && match run.handler with
      | .returns _ => true
      | .throws _ => false
  | _ => false

end AssignmentRun

/-! ### What the effect status says -/

variable [Platform]

omit [Platform] in
/-- The request about a runner that has called user code says that nothing was applied, unless the
handler returned and its process ended cleanly. -/
theorem effectStatus_of_invoked (a : Assignment) {run : RunnerRun} (hi : run.invoked = true)
    (finalErr : Option String) (published : Published) :
    ((assembleCompleteRequest a (Attempted.ran run finalErr).result.1
      (Attempted.ran run finalErr).result.2 published).error.any
        fun e => e.effectStatus == "NOT_APPLIED") =
      !(finalErr.isNone && run.killed.isNone && match run.handler with
        | .returns _ => true
        | .throws _ => false) := by
  obtain ⟨hasStepID, unresolved, handler, aborted, killed⟩ := run
  simp only [RunnerRun.invoked, Bool.and_eq_true, Option.isNone_iff_eq_none, bne_iff_ne] at hi
  obtain ⟨⟨rfl, rfl⟩, hk⟩ := hi
  cases killed with
  | some k => cases k <;> cases finalErr <;>
      simp [Attempted.result, RunnerRun.delivered, assembleCompleteRequest] at hk ⊢
  | none =>
    cases handler with
    | throws err => cases finalErr <;>
        simp [Attempted.result, RunnerRun.delivered, RunnerRun.completion, RunnerRun.failure,
          assembleCompleteRequest]
    | returns output => cases finalErr <;> cases published <;>
        simp [Attempted.result, RunnerRun.delivered, RunnerRun.completion, assembleCompleteRequest]

/-- A completion reports `NOT_APPLIED` only for a handler that was not called or reported so itself,
exactly if the handler was not called, reported so itself, returned in a process that ended
cleanly, or the worker was revoked before the completion. -/
theorem saysNotApplied_honest_iff (x : AssignmentRun) :
    (x.saysNotApplied = true → x.invoked = false ∨ x.attempted.reportsNotApplied = true) ↔
      (x.invoked = false ∨ x.attempted.reportsNotApplied = true ∨ x.clean = true ∨
        x.revoked = true) := by
  obtain ⟨a, missingSecret, attempted, revoked, published⟩ := x
  cases missingSecret with
  | some err => simp [AssignmentRun.invoked]
  | none =>
    cases attempted with
    | refused err => simp [AssignmentRun.invoked, Attempted.invoked]
    | writeFailed err => simp [AssignmentRun.invoked, Attempted.invoked]
    | ran run finalErr =>
      cases hi : run.invoked with
      | false => simp [AssignmentRun.invoked, Attempted.invoked, hi]
      | true =>
        have heff := effectStatus_of_invoked a hi finalErr published
        cases revoked with
        | true => simp [AssignmentRun.saysNotApplied, AssignmentRun.sent]
        | false =>
          simp only [AssignmentRun.saysNotApplied, AssignmentRun.sent, AssignmentRun.signed,
            Bool.false_eq_true, if_false, Option.any_some, heff, AssignmentRun.invoked,
            Attempted.invoked, hi, Option.isNone_none, Bool.and_self]
          cases finalErr <;> cases hk : run.killed <;> cases hh : run.handler <;>
            simp [AssignmentRun.clean, Attempted.reportsNotApplied, RunnerRun.reportsNotApplied, hk,
              hh]

def throwingRun : AssignmentRun where
  assignment := ⟨1, 1⟩
  missingSecret := none
  attempted := .ran
    { hasStepID := true, unresolved := none
      handler := .throws ⟨some "CARD_DECLINED", none, "charge failed", true, none⟩
      aborted := false, killed := none } (some "exit status 1")
  revoked := false
  published := .inline

omit [Platform] in
/-- Its completion says that nothing was applied, which the handler never reported. -/
theorem throwingRun_saysNotApplied :
    @AssignmentRun.saysNotApplied Sample.platform throwingRun = true ∧ throwingRun.invoked = true ∧
      throwingRun.attempted.reportsNotApplied = false :=
  ⟨rfl, rfl, rfl⟩

end Deadbolt.Agent

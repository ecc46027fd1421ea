import Deadbolt.Base.Session
import Deadbolt.Recovery.Disaster

/-!
# Run creation, statement by statement

`CreateRunInTx` (`internal/execution/create_run_tx.go`) with its locks, as `CreateRun`
(`internal/execution/service.go:139-206`) and the schedules
(`internal/scheduling/engine.go:240-317`) call it. Between two statements other sessions may
commit: other creations, and any operation of the installation, which is one commit here.

The rows that a creation inserts are its own until it commits, so what it computes from them is
one statement. The clock and the id generator are not part of a transaction: a session reads on
where the committed readings end, and the ids that others draw meanwhile are skipped.
-/

namespace Deadbolt.Execution

open Base Contracts

/-- What a creation locks: `pg_advisory_xact_lock` of an idempotency identity and of the schedules
of an environment, the admission row of an environment, and the primary key of a new run or a new
admission row. -/
inductive CreationLock where
  | idempotency (env : EnvironmentID) (keyHash : String)
  | schedules (env : EnvironmentID)
  | admission (env : EnvironmentID)
  | run (id : RunID)
  | provision (env : EnvironmentID)
  deriving DecidableEq

/-- The arguments of `CreateRunInTx`, and the ids that others draw while it runs. -/
structure CreateRunCall where
  req : CreateRunRequest
  keyHash : String
  requestHash : String
  skipped : Nat

def Db.record? (db : Db) (env : EnvironmentID) (keyHash : String) : Option IdempotencyRecord :=
  db.records.find? fun rec => rec.environmentID == env && rec.keyHash == keyHash

abbrev CreationProgram := Program CreationLock World EngineError

def modifyDb {ε : Type} (f : Db → Db) : Program CreationLock World ε Unit :=
  Program.modify fun w => { w with db := f w.db }

/-- Readings and draws of a session since `sys`, added to those of the others. -/
def Sys.consume (now sys sys' : Sys) : Sys where
  ticks := now.ticks + (sys'.ticks - sys.ticks)
  draws := now.draws + (sys'.draws - sys.draws)
  trace := now.trace ++ sys'.trace.drop sys.trace.length

namespace Statements

variable [Platform]

def clockTimestamp {ε : Type} : Program CreationLock World ε Time := do
  let now ← Program.read fun w : World => Platform.clock w.db.sys.ticks
  modifyDb fun db => { db with sys := { db.sys with ticks := db.sys.ticks + 1 } }
  pure now

def debit (env : EnvironmentID) (now : Time) (db : Db) : Db :=
  { db with fleet := { db.fleet with
      admissions := db.fleet.admissions.modify env fun a =>
        { a with
          createCredit := a.creditAt now - createTokenTime
          createRateUpdatedAt := now } } }

/-- `UPDATE environment_admissions … WHERE … >= 1`, of a locked row. -/
def debitToken (env : EnvironmentID) : CreationProgram Unit := do
  let now ← clockTimestamp
  let credit ← Program.read fun w : World =>
    (w.db.fleet.admissions.find? env).map fun a => a.creditAt now
  Program.require (credit.any fun c => decide (createTokenTime ≤ c)) .createRateLimited
  modifyDb (debit env now)

/-- `SELECT … FROM environment_admissions … FOR UPDATE`. -/
def lockAdmission (env : EnvironmentID) : CreationProgram Unit := do
  let found ← Program.claim (.admission env)
    (fun w : World => (w.db.fleet.admissions.find? env).isSome) .done
  Program.require (found = true) .noRows

/-- The admission gates, `create_run_tx.go:71-116`. -/
def admitRun (env : EnvironmentID) : CreationProgram Unit := do
  let controls ← Program.read fun w : World => w.db.fleet.controls
  match controls with
  | none => .fail .recoveryControlsUnavailable
  | some controls => do
    Program.require (controls.admissionEnabled = true ∧ controls.mode.closed = false)
      .admissionDisabled
    lockAdmission env
    debitToken env
    let nonterminalRuns ← Program.read fun w : World => w.db.nonterminalRuns env
    Program.require (nonterminalRuns < maxNonterminalRuns) .runQuotaExceeded

/-- The database as the insertion finds it, with its ids behind the skipped ones. -/
def snapshot (call : CreateRunCall) (w : World) : Db :=
  { w.db with sys := { w.db.sys with draws := w.db.sys.draws + call.skipped } }

def insertRow (call : CreateRunCall) (id : RunID) (r : Run) (sys sys' : Sys) (db : Db) : Db :=
  { db with
    runs := db.runs.put id r
    records := db.records ++ [⟨call.req.environmentID, call.keyHash, call.requestHash, id⟩]
    sys := db.sys.consume sys sys' }

/-- The insertion of an admitted run, `create_run_tx.go:118-342`: what
`insertRun` makes of the deployment found, under a primary key that must be free. -/
def insertRun (call : CreateRunCall) : CreationProgram RunID := do
  let w ← Program.read fun w : World => w
  match Execution.insertRun call.req (snapshot call w) with
  | .error e => .fail e
  | .ok (id, db) =>
    match db.runs.find? id with
    | none => .fail .runNotFound
    | some r => do
      let free ← Program.claim (.run id) (fun w : World => (w.db.runs.find? id).isNone) .done
      Program.require (free = true) .uniqueViolation
      modifyDb (insertRow call id r w.db.sys db.sys)
      pure id

/-- `CreateRunInTx`, `create_run_tx.go:32-343`. -/
def createRunInTx (call : CreateRunCall) : CreationProgram (RunID × Bool) := do
  let _ ← Program.claim (.idempotency call.req.environmentID call.keyHash)
    (fun _ : World => true) .done
  let stored ← Program.read fun w : World => w.db.record? call.req.environmentID call.keyHash
  match stored with
  | some rec => do
    Program.require (rec.requestHash = call.requestHash) .idempotencyConflict
    pure (rec.runID, true)
  | none => do
    admitRun call.req.environmentID
    let id ← insertRun call
    pure (id, false)

end Statements

/-! ### The callers -/

inductive CreateRunError where
  | missingIdempotencyKey
  /-- The input or the request has no canonical form. -/
  | canonicalize
  | payloadTooLarge
  | transaction (e : EngineError)
  deriving DecidableEq

/-- The tests of `CreateRun` before its transaction, `internal/execution/service.go:149-182`: the
idempotency key, the canonical form of the hashed request, and the size of the input. -/
def CreateRunRequest.refusal [Platform] (req : CreateRunRequest) : Option CreateRunError :=
  if req.idempotencyKey = "" then some .missingIdempotencyKey
  else if req.payload.check 0 = false then some .canonicalize
  else if maxInlinePayloadBytes < Platform.canonicalSize req.input then some .payloadTooLarge
  else none

def CreateRunRequest.call [Platform] (req : CreateRunRequest) (skipped : Nat) : CreateRunCall :=
  ⟨req, req.keyHash, req.requestHash, skipped⟩

/-- A schedule occurrence whose run is due: the environment, workflow and deployment of the
schedule, and its `occurrenceKey`. -/
structure Occurrence where
  environmentID : EnvironmentID
  workflowName : String
  deploymentID : DeploymentID
  key : String
  deriving DecidableEq

/-- The call of an occurrence: an empty input, and the occurrence's key in the place of both
hashes, `engine.go:244-265`. -/
def Occurrence.call (o : Occurrence) (skipped : Nat) : CreateRunCall :=
  let key := "schedule:" ++ o.key
  ⟨⟨o.environmentID, o.workflowName, key, some o.deploymentID, .obj []⟩, key, key, skipped⟩

/-- `OutcomeStarted`, or an outcome that commits without a run. -/
inductive ScheduleOutcome where
  | started (id : RunID)
  | skippedQuota
  | errorPaused
  deriving DecidableEq

inductive CreationRequest where
  | createRun (req : CreateRunRequest) (skipped : Nat)
  /-- Any operation but a creation or a change of an admission row. -/
  | operate (o : Operation)
  /-- `CreateEnvironment` provisions the admission row. -/
  | provision (env : EnvironmentID) (maxConcurrency : Int)

/-- A request, or a schedule occurrence. -/
inductive ScheduledRequest where
  | request (r : CreationRequest)
  | occurrence (o : Occurrence) (skipped : Nat)

/-- What a session is told: a run and whether it is a replay, an outcome, or nothing. -/
inductive CreationResult where
  | run (id : RunID) (replay : Bool)
  | schedule (outcome : ScheduleOutcome)
  | done
  deriving DecidableEq

abbrev SessionProgram := Program CreationLock World CreateRunError CreationResult

namespace World

variable [Platform]

/-- An operation of the installation beside run creation. Rows of other services change but for
the admission rows. -/
def beside (w : World) : Operation → World
  | .engine (.createRun _) => w
  | .engine (.reconfigure fleet) =>
    w.step (.reconfigure { fleet with admissions := w.db.fleet.admissions })
  | o => w.operate o

end World

namespace Statements

variable [Platform]

/-- `CreateRun` for a resolved environment, `internal/execution/service.go:139-206`: a failed
transaction is rolled back. -/
def createRun (req : CreateRunRequest) (skipped : Nat) : SessionProgram :=
  match req.refusal with
  | some e => .fail e
  | none => do
    let res ← (createRunInTx (req.call skipped)).attempt
    match res with
    | .ok (id, replay) => pure (.run id replay)
    | .error e => .fail (.transaction e)

/-- `evaluateOne` (`engine.go:136-151`) with `evaluateLocked` from the resolved
deployment on (`:238-317`). The lock of the schedules is not the admission row, which
`CreateRunInTx` locks itself. A refused admission and a definition that can create no run are
committed with what the refused call has written. -/
def evaluateOne (o : Occurrence) (skipped : Nat) : SessionProgram := do
  let _ ← Program.claim (.schedules o.environmentID) (fun _ : World => true) .done
  let res ← (createRunInTx (o.call skipped)).attempt
  match res with
  | .ok (id, _) => pure (.schedule (.started id))
  | .error e =>
    if e ∈ [.runQuotaExceeded, .createRateLimited, .admissionDisabled] then
      pure (.schedule .skippedQuota)
    else if e ∈ [.noActiveDeployment, .schemaViolation, .workflowNotFound, .deploymentNotFound]
    then pure (.schedule .errorPaused)
    else .fail (.transaction e)

/-- A new admission row: a full bucket, `migrations/00023_admission_rate_and_limits.sql:5-9`. -/
def provisioned (env : EnvironmentID) (maxConcurrency : Int) (now : Time) (db : Db) : Db :=
  { db with fleet := { db.fleet with
      admissions := db.fleet.admissions.put env ⟨maxConcurrency, createBucketTime, now⟩ } }

/-- `INSERT INTO environment_admissions`, `internal/tenant/service.go:505-510`. -/
def provision (env : EnvironmentID) (maxConcurrency : Int) : SessionProgram := do
  let free ← Program.claim (.provision env)
    (fun w : World => (w.db.fleet.admissions.find? env).isNone) .done
  Program.require (free = true) (.transaction .uniqueViolation)
  let now ← clockTimestamp
  modifyDb (provisioned env maxConcurrency now)
  pure .done

end Statements

def CreationRequest.program [Platform] : CreationRequest → SessionProgram
  | createRun req skipped => Statements.createRun req skipped
  | operate o => do
    Program.modify fun w => w.beside o
    pure .done
  | provision env maxConcurrency => Statements.provision env maxConcurrency

def ScheduledRequest.program [Platform] : ScheduledRequest → SessionProgram
  | request r => r.program
  | occurrence o skipped => Statements.evaluateOne o skipped

end Deadbolt.Execution

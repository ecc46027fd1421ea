import Deadbolt.Base.System
import Deadbolt.Execution.Transactions

/-!
# The engine as a transition system

Every action is one transaction; a failed transaction changes nothing. What a process remembers
between two of its transactions is part of the state: the snapshot of a claim, and the follow-up a
refused request starts in a transaction of its own. Rows of other services change arbitrarily, and
clock readings may be skipped.
-/

namespace Deadbolt.Execution

open Base Contracts

/-- A `Claim` call between its two transactions. -/
structure InflightClaim where
  session : WorkerSession
  slots : Nat
  pending : List PendingClaim

structure World where
  db : Db
  claims : List InflightClaim
  /-- Runs on which a `Start` or `Complete` met the event limit. -/
  exhausted : List RunID
  /-- Runs a pause or resume found overdue. -/
  overdueControls : List RunID
  /-- Approvals a decision found expired. -/
  expiredApprovals : List (RunID × StepID × String × ApprovalID)

/-- One transaction of the engine with what its environment decides. -/
inductive Action where
  | createRun (req : CreateRunRequest)
  | claimSnapshot (session : WorkerSession) (slots : Nat) (locked : List RunID)
  | claimCommit (index : Nat) (verified : List Bool) (locked : List RunID) (ready : List String)
  | start (session : WorkerSession) (attemptID : AttemptID) (ownershipEpoch : Int)
  | heartbeat (session : WorkerSession) (attempts : List (AttemptID × Int))
  | complete (session : WorkerSession) (req : CompleteRequest) (lookup : ArtifactLookup)
  | stopAck (session : WorkerSession) (attemptID : AttemptID) (ownershipEpoch : Int)
      (processStopped : Bool)
  | pauseRun (runID : RunID) (expectedRevision : Int)
  | resumeRun (runID : RunID) (expectedRevision : Int)
  | cancelRun (runID : RunID) (expectedRevision : Int) (actorID : Option ActorID)
  | resolveCase (caseID : CaseID) (req : ResolveReconciliationRequest)
  | decideApproval (approvalID : ApprovalID) (req : DecideApprovalRequest)
  | settleExpiredApproval (index : Nat)
  | settleOverdueControl (index : Nat)
  | terminalizeHistory (index : Nat)
  | openSession (workerID : WorkerID)
  | revokeWorker (workerID : WorkerID)
  | reconcileExpiredLeases (locked : List RunID)
  | fireDueRetryTimers
  | fireDueDelayTimers
  | sweepExpiredApprovals
  | reconcileReadyWork (locked : List RunID)
  | reconfigure (fleet : Fleet)
  | elapse (ticks : Nat)

structure Caller where
  workerID : WorkerID
  sessionID : SessionID

namespace World

/-- A transaction whose failure leaves the world to `failed`. -/
def transact {α : Type} (w : World) (x : DbTx α) (failed : EngineError → World) : World :=
  match x w.db with
  | .ok (_, db) => { w with db := db }
  | .error err => failed err

def attempt {α : Type} (w : World) (x : DbTx α) : World := w.transact x fun _ => w

/-- A transaction on a resolved run; an unresolved one is reported to the caller. -/
def attemptOn {α : Type} (w : World) (id : Option RunID) (x : RunTx α)
    (failed : RunID → EngineError → World) : World :=
  match id with
  | none => w
  | some id => w.transact (onRun id x) (failed id)

variable [Platform]

/-- `Start` and `Complete` react to an exhausted event budget. -/
def onHistoryLimit (w : World) (id : RunID) (err : EngineError) : World :=
  if err = .historyLimitExceeded then { w with exhausted := w.exhausted ++ [id] } else w

/-- `PauseRun` and `ResumeRun` react to an overdue run. -/
def onOverdue (w : World) (id : RunID) (err : EngineError) : World :=
  if err = .runDeadlineExceeded then { w with overdueControls := w.overdueControls ++ [id] } else w

/-- The first transaction of `Claim` behind the dispatch gate. -/
def snapshot (w : World) (session : WorkerSession) (slots : Nat) (locked : List RunID) : World :=
  match w.db.dispatches with
  | .ok true =>
    match claimSnapshotTx session slots locked w.db with
    | .ok (pending, db) =>
      { w with db := db, claims := w.claims ++ [⟨session, slots, pending⟩] }
    | .error _ => w
  | _ => w

/-- The second transaction of `Claim` with the verdicts of the artifact store. -/
def commitClaim (w : World) (index : Nat) (verified : List Bool) (locked : List RunID)
    (ready : List String) : World :=
  match w.claims[index]? with
  | none => w
  | some claim =>
    let pending := claim.pending.zipWith (fun pc v => { pc with verified := v }) verified
    { w with claims := w.claims.eraseIdx index }.attempt
      (claimCommitTx claim.session claim.slots pending locked ready)

/-- `Heartbeat` for its attempts, in one transaction. -/
def heartbeatAll (session : WorkerSession) (attempts : List (AttemptID × Int)) : DbTx Unit :=
  Tx.forEach attempts fun item => do
    let id ← Tx.read fun db => db.runOfAttempt? item.1
    match id with
    | none => pure ()
    | some id => do
      let _ ← onRun id (heartbeatTx session item.1 item.2)

/-- `ResolveReconciliationCase` for an identified person. -/
def resolve (w : World) (caseID : CaseID) (req : ResolveReconciliationRequest) : World :=
  match req.valid, w.db.stepOfCase? caseID with
  | .ok (), some (id, stepID) => w.attempt (onRun id (resolveReconciliationCaseTx stepID caseID req))
  | _, _ => w

/-- `DecideApproval` for an identified person; an expired request is settled afterwards. -/
def decide (w : World) (approvalID : ApprovalID) (req : DecideApprovalRequest) : World :=
  match w.db.stepOfApproval? approvalID with
  | none => w
  | some (id, stepID, nodeID) =>
    w.transact (onRun id (decideApprovalTx stepID approvalID req)) fun err =>
      if err = .approvalExpired then
        { w with expiredApprovals := w.expiredApprovals ++ [(id, stepID, nodeID, approvalID)] }
      else w

def step (w : World) : Action → World
  | .createRun req =>
    if req.idempotencyKey ≠ "" ∧ fitsInline req.input = true then w.attempt (createRunInTx req)
    else w
  | .claimSnapshot session slots locked => w.snapshot session slots locked
  | .claimCommit index verified locked ready => w.commitClaim index verified locked ready
  | .start session attemptID epoch =>
    w.attemptOn (w.db.runOfAttempt? attemptID) (startTx session attemptID epoch) w.onHistoryLimit
  | .heartbeat session attempts => w.attempt (heartbeatAll session attempts)
  | .complete session req lookup =>
    match req.valid with
    | .ok () =>
      w.attemptOn (w.db.runOfAttempt? req.attemptID) (completeTx session req lookup)
        w.onHistoryLimit
    | .error _ => w
  | .stopAck session attemptID epoch stopped =>
    w.attemptOn (w.db.runOfAttempt? attemptID) (stopAckTx session attemptID epoch stopped)
      fun _ _ => w
  | .pauseRun id revision => w.attemptOn (some id) (pauseRunTx revision) w.onOverdue
  | .resumeRun id revision => w.attemptOn (some id) (resumeRunTx revision) w.onOverdue
  | .cancelRun id revision actorID => w.attempt (onRun id (cancelRunTx revision actorID))
  | .resolveCase caseID req => w.resolve caseID req
  | .decideApproval approvalID req => w.decide approvalID req
  | .settleExpiredApproval index =>
    match w.expiredApprovals[index]? with
    | none => w
    | some (id, stepID, nodeID, approvalID) =>
      { w with expiredApprovals := w.expiredApprovals.eraseIdx index }.attempt
        (onRun id (expireApprovalTx stepID nodeID approvalID))
  | .settleOverdueControl index =>
    match w.overdueControls[index]? with
    | none => w
    | some id =>
      { w with overdueControls := w.overdueControls.eraseIdx index }.attempt
        (onRun id settleOverdueRunForControl)
  | .terminalizeHistory index =>
    match w.exhausted[index]? with
    | none => w
    | some id =>
      { w with exhausted := w.exhausted.eraseIdx index }.attempt
        (onRun id terminalizeHistoryLimitExceeded)
  | .openSession workerID => w.attempt (openSessionTx workerID)
  | .revokeWorker workerID => w.attempt (revokeWorkerTx workerID)
  | .reconcileExpiredLeases locked => w.attempt (Execution.reconcileExpiredLeases locked)
  | .fireDueRetryTimers => w.attempt fireDueRetryTimersTx
  | .fireDueDelayTimers => w.attempt Execution.fireDueDelayTimers
  | .sweepExpiredApprovals => w.attempt Execution.sweepExpiredApprovals
  | .reconcileReadyWork locked => w.attempt (Execution.reconcileReadyWork locked)
  | .reconfigure fleet => { w with db := { w.db with fleet := fleet } }
  | .elapse ticks =>
    { w with db := { w.db with sys := { w.db.sys with ticks := w.db.sys.ticks + ticks } } }

/-- `AuthenticateSession`, `internal/worker/service.go:352-391`; a token is of one session. -/
def authenticate (w : World) (token : SessionID) : Option WorkerSession :=
  (w.db.fleet.sessions.find? token).bind fun s =>
    (w.db.fleet.workers.find? s.workerID).bind fun worker =>
      if worker.status = .revoked ∨ s.revokedAt.isSome = true ∨
          s.expiresAt ≤ Platform.clock w.db.sys.ticks then none
      else some
        { sessionID := token, workerID := s.workerID, environmentID := s.environmentID
          poolName := worker.poolName }

/-- A request of an authenticated worker. `Start`, `Heartbeat` and `Complete` refuse one whose
body names another worker or session, `internal/execution/worker_engine.go:1678, 1765, 2589`. -/
def submit (w : World) (token : SessionID) (caller : Caller) (request : WorkerSession → Action) :
    World :=
  match w.authenticate token with
  | none => w
  | some session =>
    let w' := { w with db := { w.db with sys := { w.db.sys with ticks := w.db.sys.ticks + 1 } } }
    if caller.workerID = session.workerID ∧ caller.sessionID = session.sessionID then
      w'.step (request session)
    else w'

def initial (fleet : Fleet) : World :=
  { db := { runs := Table.empty, fleet, records := [], sys := ⟨0, 0, []⟩ }
    claims := [], exhausted := [], overdueControls := [], expiredApprovals := [] }

end World

def engine [Platform] : System World Action := ⟨World.step⟩

end Deadbolt.Execution

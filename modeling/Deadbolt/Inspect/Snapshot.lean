import Deadbolt.Execution.Database

/-!
# Reading a run

The three endpoints that show a run: `GetRun`, `GetRunEvents` and `StreamRunEvents` of
`internal/execution/http.go`, with the reads of `service.go` below them.
-/

namespace Deadbolt.Inspect

open Base Contracts Execution

/-! ### Callers -/

/-- The roles of a member, `internal/tenant/rbac.go:8-86`. -/
inductive Role where
  | viewer | developer | operator | admin | owner
  deriving DecidableEq

/-- `CanRolePerform` for `payload:read`, `rbac.go:108-115`. -/
def Role.readsPayload : Role → Bool
  | .viewer => false
  | _ => true

structure Member where
  role : Role
  active : Bool

/-- An authenticated caller: an API key, or a user with what `GetMember` finds. -/
inductive Caller where
  | machine (environmentID : Option EnvironmentID) (capabilities : List String)
  | user (member : Option Member)

/-- `hasPayloadRead`, `http.go:534-540`. -/
def Caller.hasPayloadRead : Caller → EnvironmentID → Bool
  | .machine env capabilities, e => env == some e && capabilities.contains "payload:read"
  | .user member, _ => member.any fun m => m.active && m.role.readsPayload

/-- A key of another environment is told that the run does not exist. -/
def Caller.sees : Caller → EnvironmentID → Bool
  | .machine (some env) _, e => env == e
  | _, _ => true

/-! ### Responses -/

/-- `AttemptSummaryDTO`, `types.go:46-55`. -/
structure AttemptSummaryDTO where
  id : AttemptID
  attemptNumber : Int
  status : AttemptStatus
  workerSessionID : SessionID
  ownershipEpoch : Int
  startedAt : Option Time
  completedAt : Option Time
  error : Option Json

/-- `RunStepDTO`, `types.go:32-44`. -/
structure RunStepDTO where
  id : StepID
  nodeID : String
  kind : NodeType
  status : StepState
  waitReason : Option String
  dueAt : Option Time
  after : List String
  currentEpoch : Int
  completionSource : Option CompletionSource
  output : Option Json
  attempts : List AttemptSummaryDTO

/-- `ReconciliationCaseDTO`, `types.go:75-87`. -/
structure ReconciliationCaseDTO where
  stepID : StepID
  row : Case

/-- `ApprovalDTO`, `approval.go:311-327`. -/
structure ApprovalDTO where
  id : ApprovalID
  runID : RunID
  stepID : StepID
  nodeID : String
  workflowName : String
  status : ApprovalStatus
  requiredPermission : String
  payload : Option Json
  revision : Int
  expiresAt : Option Time
  decidedAt : Option Time
  decisionComment : Option String
  actorID : Option ActorID

/-- `RunDTO`, `types.go:13-30`. -/
structure RunDTO where
  id : RunID
  environmentID : EnvironmentID
  workflowName : String
  deploymentID : DeploymentID
  status : RunStatus
  reasonCode : Option String
  revision : Int
  createdAt : Time
  deadlineAt : Option Time
  terminationConfirmed : Option Bool

/-- `RunSnapshotDTO`, `types.go:57-70`. -/
structure RunSnapshotDTO extends RunDTO where
  lastEventSequence : Nat
  steps : List RunStepDTO
  reconciliationCases : List ReconciliationCaseDTO
  approvals : List ApprovalDTO
  output : Option Json
  error : Option Json
  waitingReason : Option String
  activeCompatibleWorkers : Nat

/-- `RunEventDTO`, `types.go:107-116`. -/
structure RunEventDTO where
  sequence : Nat
  type : String
  payload : Payload

/-- `RunEventsResponseDTO`, `types.go:118-122`. -/
structure RunEventsResponseDTO where
  events : List RunEventDTO
  hasMore : Bool
  nextCursor : Option Nat

inductive Answer (α : Type) where
  | ok (body : α)
  | runNotFound

/-! ### `GetRun` -/

/-- A JSON column: SQL `NULL` and JSON null are not decoded. -/
def column : Option Json → Option Json
  | some .null => none
  | v => v

/-- The attempt rows, `service.go:327-350`. -/
def attemptSummary (a : Attempt) : AttemptSummaryDTO :=
  { id := a.id, attemptNumber := a.number, status := a.status, workerSessionID := a.sessionID
    ownershipEpoch := a.epoch, startedAt := a.startedAt, completedAt := a.completedAt
    error := column a.error }

/-- The step rows with the graph of the manifest, `service.go:235-311`. -/
def runStep (r : Run) (e : StepID × Step) : RunStepDTO :=
  let nodes := (r.workflow?.map WorkflowManifest.nodes).getD []
  { id := e.1, nodeID := e.2.nodeID, kind := e.2.kind, status := e.2.state
    waitReason := e.2.waitReason, dueAt := e.2.eligibleAt
    after := (((nodes.filter fun n => n.id == e.2.nodeID).getLast?).map WorkflowNode.after).getD []
    currentEpoch := e.2.currentEpoch, completionSource := e.2.completionSource
    output := column e.2.output, attempts := e.2.attempts.map attemptSummary }

/-- The count of active compatible workers, `service.go:362-382`. -/
def activeWorkers (fleet : Fleet) (r : Run) (now : Time) : Nat :=
  (fleet.sessions.rows.filter fun e =>
    e.2.environmentID == r.environmentID && e.2.revokedAt.isNone && decide (now < e.2.expiresAt) &&
      e.2.bundles.contains r.deployment.bundleDigest &&
      (fleet.workers.find? e.2.workerID).any fun w =>
        w.environmentID == r.environmentID && w.status == .active).length

/-- `NO_COMPATIBLE_WORKERS`, `service.go:384-407`. -/
def waitingReason (r : Run) (steps : List RunStepDTO) (active : Nat) : Option String :=
  if !r.status.terminal && active == 0 &&
      !steps.any (fun s => s.attempts.any fun a => a.status == .running) then
    some "NO_COMPATIBLE_WORKERS"
  else none

/-- The cases of the steps, `service.go:414-449`. -/
def cases (r : Run) : List ReconciliationCaseDTO :=
  (r.stepsByID.flatMap fun e => e.2.cases.map (ReconciliationCaseDTO.mk e.1)).insertionSort
    fun a b => a.row.id ≤ b.row.id

/-- The approvals of the steps, `service.go:454-487`. -/
def approvals (r : Run) : List ApprovalDTO :=
  (r.stepsByID.flatMap fun e => e.2.approval.toList.map fun a =>
    { id := a.id, runID := r.id, stepID := e.1, nodeID := e.2.nodeID
      workflowName := r.workflowName, status := a.status, requiredPermission := a.requiredPermission
      payload := column (some a.payload), revision := a.revision, expiresAt := a.expiresAt
      decidedAt := a.decidedAt, decisionComment := a.decisionComment
      actorID := a.actorID : ApprovalDTO }).insertionSort
    fun a b => a.id ≤ b.id

/-- The error of a failed run, `service.go:489-508`. -/
def runError (r : Run) (steps : List RunStepDTO) : Option Json :=
  if r.status = .failed then
    match r.reasonCode with
    | some code => some (.obj [("code", .str code), ("message", .str code)])
    | none => (steps.flatMap RunStepDTO.attempts).findSome? AttemptSummaryDTO.error
  else none

/-- `Service.GetRun`, `service.go:208-525`. -/
def getRun (fleet : Fleet) (r : Run) (now : Time) : RunSnapshotDTO :=
  let steps := r.stepsByID.map (runStep r)
  let active := activeWorkers fleet r now
  { id := r.id, environmentID := r.environmentID, workflowName := r.workflowName
    deploymentID := r.deployment.id, status := r.status, reasonCode := r.reasonCode
    revision := r.revision, createdAt := r.createdAt, deadlineAt := r.deadlineAt
    terminationConfirmed := r.terminationConfirmed, lastEventSequence := r.lastEventSequence
    steps, reconciliationCases := cases r, approvals := approvals r, output := column r.output
    error := runError r steps, waitingReason := waitingReason r steps active
    activeCompatibleWorkers := active }

def RunStepDTO.mask (s : RunStepDTO) : RunStepDTO :=
  { s with output := none, attempts := s.attempts.map fun a => { a with error := none } }

/-- The masking without `payload:read`, `http.go:188-197`. Approvals and cases
are not masked. -/
def RunSnapshotDTO.mask (s : RunSnapshotDTO) : RunSnapshotDTO :=
  { s with
    output := none
    error := none
    steps := s.steps.map RunStepDTO.mask }

/-- `HTTPHandler.GetRun`, `http.go:161-200`. -/
def handleGetRun (caller : Caller) (db : Db) (id : RunID) (now : Time) : Answer RunSnapshotDTO :=
  match db.runs.find? id with
  | none => .runNotFound
  | some r =>
    if caller.sees r.environmentID then
      .ok (if caller.hasPayloadRead r.environmentID then getRun db.fleet r now
        else (getRun db.fleet r now).mask)
    else .runNotFound

/-! ### Events -/

/-- `CanonicalEventType` of the types the engine writes, `service.go:1013-1053`;
the types without a case of their own are split at the first underscore. -/
def canonicalEventType : EventType → String
  | .runCreated => "run.created" | .taskClaimed => "attempt.claimed"
  | .taskStarted => "attempt.started" | .taskCompleted => "attempt.completed"
  | .taskLost => "attempt.lost" | .stepReady => "step.ready"
  | .stepSucceeded => "step.succeeded" | .runCompleted => "run.completed"
  | .runFailed => "run.failed" | .runCancelled => "run.cancelled" | .runPaused => "run.paused"
  | .runResumed => "run.resumed" | .runWaiting => "run.waiting" | .runPausing => "run.pausing"
  | .runCancelling => "run.cancelling" | .stepWaiting => "step.waiting"
  | .stepSkipped => "step.skipped" | .approvalRequested => "approval.requested"
  | .approvalDecided => "approval.decided" | .approvalExpired => "approval.expired"
  | .caseResolved => "case.resolved"

/-- The keys that `SanitizeEventPayload` keeps, `service.go:1061-1074`. -/
def allowedKeys : List String :=
  ["runId", "workflowName", "deploymentId", "stepId", "attemptId", "epoch", "reason", "status",
   "sequence", "recovery", "nodeId", "timeoutMs"]

/-- `SanitizeEventPayload`, `service.go:1055-1081`. -/
def sanitizeEventPayload (p : Payload) : Payload := p.filter fun m => allowedKeys.contains m.1

/-- An event as it is shown, `service.go:790-814`. -/
def runEvent (payloadRead : Bool) (e : Event) : RunEventDTO :=
  { sequence := e.sequence, type := canonicalEventType e.type
    payload := if payloadRead then e.payload else sanitizeEventPayload e.payload }

/-- `Service.GetRunEvents`, `service.go:763-839`. -/
def getRunEvents (r : Run) (cursor limit : Nat) (payloadRead : Bool) : RunEventsResponseDTO :=
  let limit := if limit = 0 ∨ 200 < limit then 50 else limit
  let page := ((r.events.filter fun e => decide (cursor < e.sequence)).take (limit + 1)).map
    (runEvent payloadRead)
  if limit < page.length then
    { events := page.take limit, hasMore := true
      nextCursor := ((page.take limit).getLast?).map RunEventDTO.sequence }
  else { events := page, hasMore := false, nextCursor := none }

/-- `HTTPHandler.GetRunEvents`, `http.go:302-355`. -/
def handleGetRunEvents (caller : Caller) (db : Db) (id : RunID) (cursor limit : Nat) :
    Answer RunEventsResponseDTO :=
  match db.runs.find? id with
  | none => .runNotFound
  | some r =>
    if caller.sees r.environmentID then
      .ok (getRunEvents r cursor (if limit = 0 then 50 else limit)
        (caller.hasPayloadRead r.environmentID))
    else .runNotFound

/-- A frame of the stream: an event, or the demand to read the run anew. -/
inductive Frame where
  | event (e : RunEventDTO)
  | resync (lastAvailableSequence : Nat)

/-- The inner loop of `StreamRunEvents`, `http.go:440-456`: pages of fifty until
nothing is left. The fuel bounds the pages; a turn for each event is enough (`drain_sends`). -/
def drain (r : Run) (payloadRead : Bool) : Nat → Nat → List RunEventDTO × Nat
  | 0, cursor => ([], cursor)
  | fuel + 1, cursor =>
    let page := getRunEvents r cursor 50 payloadRead
    match page.events.getLast? with
    | none => ([], cursor)
    | some last =>
      if page.hasMore then
        let rest := drain r payloadRead fuel last.sequence
        (page.events ++ rest.1, rest.2)
      else (page.events, last.sequence)

/-- The outer loop: the run as it is found at every wake-up; a run that is gone sends nothing. -/
def follow (id : RunID) (payloadRead : Bool) : List Db → Nat → List RunEventDTO
  | [], _ => []
  | db :: dbs, cursor =>
    match db.runs.find? id with
    | none => follow id payloadRead dbs cursor
    | some r =>
      let sent := drain r payloadRead (r.events.length + 1) cursor
      sent.1 ++ follow id payloadRead dbs sent.2

def minSequence (r : Run) : Nat := ((r.events.map Event.sequence).min?).getD 0

/-- `HTTPHandler.StreamRunEvents`, `http.go:357-470`: the database of the request
and those of the wake-ups. -/
def handleStreamRunEvents (caller : Caller) (db : Db) (later : List Db) (id : RunID)
    (lastSeen : Nat) : Answer (List Frame) :=
  match db.runs.find? id with
  | none => .runNotFound
  | some r =>
    if caller.sees r.environmentID then
      .ok (if 0 < minSequence r ∧ 0 < lastSeen ∧ lastSeen < minSequence r - 1 then
          [.resync (minSequence r)]
        else (follow id (caller.hasPayloadRead r.environmentID) (db :: later) lastSeen).map .event)
    else .runNotFound

end Deadbolt.Inspect

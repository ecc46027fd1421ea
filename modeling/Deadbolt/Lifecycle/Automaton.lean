import Deadbolt.Lifecycle.Rows

/-!
# The run automaton

What the engine can do to a run, without the requests and queries that make it do so. A move
is one write that leaves the run in a describable state: the change of one step, a new
status of an open run, an event, or an end of the run (`Run.Closes`). Every guard the source
checks before the write is a premise of the move, and a move that the trace records shows
the run it found. The transactions of the engine are paths of moves (`Lifecycle/Engine.lean`), so
an invariant of the runs needs one case per move.
-/

namespace Deadbolt.Execution

open Base Contracts

/-! ### Moves of the status -/

/-- The status writes of `Execution/Status.lean`. -/
inductive StatusMove where
  | retryWait | delayWait | control | hold | quota | handoff
  | leaveQuota | started | leaveRetry | leaveHandoff | leaveReconciliation (retry : Bool)
  | holdDrained | pause | pauseDrained | resume | clearPause
  deriving DecidableEq

namespace StatusMove

def apply : StatusMove → Run → Run
  | retryWait, r => r.recomputeForRetry
  | delayWait, r => r.recomputeForDelay
  | control, r => r.recomputeAfterControl
  | hold, r => r.parkForReconciliation
  | quota, r => r.parkForQuota
  | handoff, r => r.parkForHandoff
  | leaveQuota, r => r.leaveQuota
  | started, r => r.markStarted
  | leaveRetry, r => r.leaveRetry
  | leaveHandoff, r => r.leaveHandoff
  | leaveReconciliation retry, r => r.leaveReconciliation retry
  | holdDrained, r => r.setStatus .waiting (some "RECONCILIATION")
  | pause, r => r.pause
  | pauseDrained, r => r.markPaused
  | resume, r => r.resume
  | clearPause, r => r.clearPause

/-- What the source has checked of the run before the write, where the write itself does not
test it. -/
def Admissible : StatusMove → Run → Prop
  | retryWait, r => r.anyStep (Step.hasPending .retryBackoff) = true
  | control, r => r.anyStep (fun s => s.kind == .approval) = true
  | quota, r => r.status.active = true ∧ ∃ now, r.hasEligibleReady now = true
  | leaveQuota, r => r.status.closing = false
  | leaveReconciliation retry, r =>
    r.status = .waiting ∧ reasonText r.reasonCode = "RECONCILIATION" ∧ r.hasOpenCase = false ∧
      (retry = true → r.anyStep (Step.hasPending .retryBackoff) = true)
  | holdDrained, r => r.status.schedulable = true ∧ r.hasOpenCase = true ∧ r.hasLive = false
  | pause, r => r.status.closing = false
  | pauseDrained, r => r.status = .pausing ∧ r.hasLive = false
  | resume, r => r.status.closing = false
  | clearPause, r => r.status.terminal = true
  | _, _ => True

def alone : StatusMove → Bool
  | delayWait | control | quota | leaveReconciliation _ | holdDrained | pause | pauseDrained
  | resume | clearPause => true
  | _ => false

def visit : StatusMove → Option VisitKind
  | delayWait => some .delayWait
  | control => some .control
  | quota => some .quotaWait
  | pause => some .pause
  | resume => some .resume
  | _ => none

def follow : Option StatusMove → Run → Run
  | none, r => r
  | some u, r => u.apply r

end StatusMove

/-! ### Policies and ambiguous ends -/

/-- The retry policy of a step, from the manifest its run is pinned to. -/
def Run.retryPolicy (r : Run) (s : Step) : RetryPolicy :=
  r.deployment.manifest.taskRetryPolicy r.workflowName s.nodeID

def RetryPolicy.window? (p : RetryPolicy) : Option Int :=
  if recoveryMode p.recovery = "idempotent" then p.idempotencyWindowMs else none

/-- The test of `RequiresReconciliation` on an effect status. -/
def isUnknownEffect (effect : String) : Bool := Text.toUpper (Text.trimSpace effect) == "UNKNOWN"

/-- A recorded error leaves the effect unknown; one without an effect status does so too. -/
def leavesEffectUnknown (error : Option Json) : Bool :=
  match error with
  | some (.obj fields) =>
    match fields.lookup "effectStatus" with
    | some (.str effect) => isUnknownEffect effect
    | _ => true
  | _ => true

/-- The attempt was started and ended `LOST`, `TIMED_OUT` or with an unknown effect. -/
def Attempt.ambiguous (a : Attempt) : Bool :=
  a.startedAt.isSome && match a.status with
    | .lost | .timedOut => true
    | .failed | .cancelled => leavesEffectUnknown a.error
    | _ => false

/-- Something of the run can skip a step: a choice, a merge, or a step that is skipped. -/
def Run.branches (r : Run) : Bool :=
  r.anyStep fun s => s.kind == .choice || s.kind == .merge || s.state == .skipped

/-! ### Moves of a step -/

namespace Step

def Owns (s : Step) (id : AttemptID) : Prop := ∃ a ∈ s.attempts, a.id = id ∧ a.status.live = true

def attemptIDs (s : Step) : List AttemptID := s.attempts.map Attempt.id

def Holds (s : Step) (id : CaseID) : Prop := ∃ c ∈ s.cases, c.id = id ∧ c.status = .open

/-- The ways an owned attempt is closed, with the status it gets: its completion or its loss to
the lease sweep. An idempotency deadline that the history lacks may be derived with it. -/
inductive Closes (policy : RetryPolicy) (s : Step) (id : AttemptID) : AttemptStatus → Step → Prop
  | complete {status : AttemptStatus} {digest : String} {error : Json} {now : Time}
      {state : StepState} {output : Json} (hstatus : status.live = false)
      (hstate : state = .succeeded ∨ state = .failed ∨ state = .cancelled) :
      Closes policy s id status (s.complete id status digest error now state output)
  | lose {status : AttemptStatus} {error : Json} {now : Time} (hstatus : status.live = false)
      (hlost : status = .lost ∨ status = .timedOut) (hstate : s.state.terminal = false) :
      Closes policy s id status (s.lose id status error now)
  | minted {status : AttemptStatus} {s1 : Step} (h : Closes policy s id status s1) (x : Attempt)
      (windowMs : Int) (hx : x ∈ s1.attempts) (hw : policy.window? = some windowMs) :
      Closes policy s id status (s1.mintWindow (x.createdAt + durationMs windowMs))

/-- A timer insert that leaves the step with a `PENDING` timer of the kind. -/
def Arms (s : Step) (kind : TimerKind) (timer : Option Timer) : Prop :=
  (∀ t ∈ timer, t.kind = kind ∧ t.state = .pending) ∧
    (timer = none → s.hasPending kind = true)

/-- What becomes of a step whose attempt failed with an effect, if the run does not fail with
it. -/
inductive Parks (policy : RetryPolicy) (effect : String) (s : Step) : StatusMove → Step → Prop
  | retry (timer : Option Timer) (dueAt : Time) (harms : s.Arms .retryBackoff timer)
      (hvalid : isValidRecoveryPolicy policy.recovery = true)
      (hclear : requiresReconciliation policy.recovery effect = false)
      (hbudget : hasRetryBudget s.nextAttemptNumber policy.maxAttempts = true) :
      Parks policy effect s .retryWait (s.parkRetry timer dueAt)
  | hold (case : Case) (hcase : case.status = .open) : Parks policy effect s .hold (s.hold case)

/-- The effect is what an ambiguous end of the attempt is judged by; only a reported timeout may
come with another one. -/
def Says (s : Step) (id : AttemptID) (status : AttemptStatus) (effect : String) : Prop :=
  ∀ a ∈ s.attempts, a.id = id → a.ambiguous = true → isUnknownEffect effect = true ∨ status = .timedOut

/-- A step that an evaluation may still take for `BLOCKED` after a failure closed it. -/
def Closed (s : Step) : Prop := s.state = .cancelled ∨ s.state = .failed

/-- The rows of a new claim: an attempt that has not started, and its lease. -/
structure Grants (s : Step) (a : Attempt) (l : Lease) (now : Time) (timeoutMs : Int) : Prop where
  status : a.status = .claimed
  fresh : ∀ x ∈ s.attempts, x.id ≠ a.id
  number : a.number = s.nextAttemptNumber
  epoch : a.epoch = s.currentEpoch + 1
  startedAt : a.startedAt = none
  outcomeDigest : a.outcomeDigest = none
  claimStartDeadlineAt : a.claimStartDeadlineAt = some (now + millis claimStartBudgetMs)
  timeoutMs : a.timeoutMs = timeoutMs
  owner : l.attemptID = a.id
  leaseEpoch : l.epoch = a.epoch
  leaseSession : l.sessionID = a.sessionID

/-- The writes to one step of a run, with the visit the trace keeps of them and the status write
that comes with them. -/
inductive Moves (r : Run) (id : StepID) (s : Step) :
    Option VisitKind → Option StatusMove → Step → Prop
  | mint (now : Time) (windowMs : Int) (hw : (r.retryPolicy s).window? = some windowMs)
      (hnone : s.idempotencyValidUntil = none) (hfirst : s.nextAttemptNumber = 1) :
      Moves r id s (some (.mintWindow id now)) none (s.mintWindow (now + millis windowMs))
  | derive (x : Attempt) (windowMs : Int) (hx : x ∈ s.attempts)
      (hw : (r.retryPolicy s).window? = some windowMs) :
      Moves r id s none none (s.mintWindow (x.createdAt + durationMs windowMs))
  | skip (reason : String) (hs : s.state = .blocked) (hb : r.branches = true) :
      Moves r id s none none (s.skip reason)
  | succeedControl (output : Json) (hs : s.state = .blocked)
      (hk : s.kind = .choice ∨ s.kind = .merge) : Moves r id s none none (s.succeed output)
  | ready (t : Time) (hs : s.state = .blocked) (hk : s.kind = .task) :
      Moves r id s none none (s.makeReady t)
  | requestApproval (a : Approval) (ha : a.status = .pending) (hnone : s.approval = none)
      (hk : s.kind = .approval) (hs : s.state = .blocked) :
      Moves r id s (some (.openApproval id)) (some .control) (s.requestApproval a)
  | lateApproval (a : Approval) (ha : a.status = .pending) (hnone : s.approval = none)
      (hk : s.kind = .approval) (hs : s.Closed) :
      Moves r id s (some (.openApproval id)) none (s.requestApproval a)
  | parkDelay (timer : Option Timer) (dueAt : Time) (harms : s.Arms .delay timer)
      (hk : s.kind = .delay) (hs : s.state = .blocked) :
      Moves r id s (some (.scheduleDelay id)) (some .delayWait) (s.parkDelay timer dueAt)
  | lateDelay (timer : Option Timer) (dueAt : Time) (harms : s.Arms .delay timer)
      (hk : s.kind = .delay) (hs : s.Closed) :
      Moves r id s (some (.scheduleDelay id)) none (s.parkDelay timer dueAt)
  | fireRetry (timer : Timer) (now : Time) (hopen : r.status.schedulable = true)
      (hw : s.waitsFor "RETRY_BACKOFF" = true) (ht : timer ∈ s.timers)
      (hp : timer.kind = .retryBackoff ∧ timer.state = .pending) :
      Moves r id s none (some .leaveRetry) ((s.fireTimer timer.id now).makeReady timer.dueAt)
  | fireDelay (timer : Timer) (now : Time) (hopen : r.status.schedulable = true)
      (hw : s.waitsFor "DELAY" = true) (ht : timer ∈ s.timers)
      (hp : timer.kind = .delay ∧ timer.state = .pending) :
      Moves r id s none none
        { (s.fireTimer timer.id now).succeed (.obj []) with completionSource := some .timer }
  | grant (a : Attempt) (l : Lease) (now : Time) (hopen : r.status.closing = false)
      (hpause : r.pauseRequested = false) (hs : s.state = .ready) (hl : s.lease = none)
      (hg : s.Grants a l now (assignmentTimeoutMs r.deployment.manifest r.workflowName s.nodeID))
      (hwindow : (r.retryPolicy s).window?.isSome = true → s.idempotencyValidUntil.isSome = true) :
      Moves r id s (some (.claimAttempt id now)) (some .leaveQuota) (s.grant a l)
  | start (a : AttemptID) (started deadline : Time)
      (ha : ∃ x ∈ s.attempts, x.id = a ∧ x.status = .claimed) (hl : (s.leaseOf? a).isSome = true) :
      Moves r id s none (some .started) (s.start a started deadline)
  | renew (a : AttemptID) (t : Time) : Moves r id s none none (s.renewLease a t)
  | acknowledge (a : AttemptID) (now : Time) (stopped : Bool) :
      Moves r id s none none (s.updateAttempt a (fun _ => true) fun x => x.acknowledge now stopped)
  | park {s1 s2 : Step} {u : StatusMove} {status : AttemptStatus} {effect : String}
      (a : AttemptID) (hopen : r.status.closing = false) (howns : s.Owns a)
      (hc : s.Closes (r.retryPolicy s) a status s1)
      (hfailed : status ≠ .cancelled ∧ status ≠ .succeeded)
      (hsaid : s1.Says a status effect) (hp : s1.Parks (r.retryPolicy s) effect u s2) :
      Moves r id s (some (.closeAttempt id status effect)) (some u) s2
  | fence (a : AttemptID) (epoch : Int) (error : Json) (now : Time)
      (howns : ∃ x ∈ s.attempts, x.id = a ∧ x.status.live = true ∧ x.epoch = epoch) :
      Moves r id s (some (.fence id)) (some .handoff) (s.fence a epoch error now)
  | claimHold (case : Case) (hcase : case.status = .open) (hk : s.kind = .task) :
      Moves r id s (some (.claimHold id)) (some .hold) (s.hold case)
  | approve (status : ApprovalStatus) (comment : String) (actor : ActorID) (now : Time)
      (output : Json) (hopen : r.status.closing = false) (hs : s.state = .waiting)
      (hp : s.hasPendingApproval = true) (hstatus : status ≠ .pending) :
      Moves r id s none none ((s.decideApproval status comment actor now).succeed output)
  | readyHandoff (t : Time) (hopen : r.status.closing = false)
      (hw : s.waitsFor "RECOVERY_HANDOFF" = true)
      (hbudget : s.nextAttemptNumber ≤ (r.retryPolicy s).maxAttempts) :
      Moves r id s none (some .leaveHandoff) (s.makeReady t)

variable {s : Step}

theorem Closed.not_blocked (h : s.Closed) : s.state ≠ .blocked := by
  rcases h with h | h <;> simp [h]

theorem requestApproval_blocked (hs : s.state = .blocked) (a : Approval) :
    s.requestApproval a =
      { s with
        approval := some a, state := .waiting, waitReason := some "APPROVAL", eligibleAt := none } :=
  if_pos hs

theorem requestApproval_closed (hs : s.Closed) (a : Approval) :
    s.requestApproval a = { s with approval := some a } := if_neg hs.not_blocked

theorem parkDelay_blocked (hs : s.state = .blocked) (timer : Option Timer) (dueAt : Time) :
    s.parkDelay timer dueAt =
      { s with
        timers := s.timers ++ timer.toList, state := .waiting, waitReason := some "DELAY"
        eligibleAt := some dueAt } := if_pos hs

theorem parkDelay_closed (hs : s.Closed) (timer : Option Timer) (dueAt : Time) :
    s.parkDelay timer dueAt = { s with timers := s.timers ++ timer.toList } :=
  if_neg hs.not_blocked

/-- The writes that leave the run to the rest of their transaction: a completed step, and the
resolutions of a case by an operator. -/
inductive Unsettles (r : Run) (id : StepID) (s : Step) : VisitKind → Step → Prop
  | finish {s1 : Step} {effect : String} (a : AttemptID) (howns : s.Owns a)
      (hc : s.Closes (r.retryPolicy s) a .succeeded s1) (hs : s1.state = .succeeded) :
      Unsettles r id s (.closeAttempt id .succeeded effect) s1
  | confirm (case : CaseID) (actor : ActorID) (now : Time) (result : Json) (hc : s.Holds case) :
      Unsettles r id s (.confirmSucceeded id)
        ((if s.waitsFor "RECONCILIATION" then
            { s.succeed result with completionSource := some .reconciliation }
          else s).resolveCase case .succeed actor now)
  | retry (case : CaseID) (actor : ActorID) (now : Time) (timer : Option Timer) (dueAt : Time)
      (hw : s.waitsFor "RECONCILIATION" = true) (hc : s.Holds case)
      (harms : s.Arms .retryBackoff timer)
      (hbudget : hasRetryBudget s.nextAttemptNumber (r.retryPolicy s).maxAttempts = true) :
      Unsettles r id s (.confirmRetry id)
        ((s.parkRetry timer dueAt).resolveCase case .retry actor now)

end Step

/-! ### Ends of a run -/

/-- Events that neither end the run nor report a success. -/
inductive Run.Logs (r : Run) : Run → Prop
  | refl : r.Logs r
  | tail {r1 : Run} (h : r.Logs r1) (t : EventType) (x : Payload) (ht : t.terminal = false)
      (hs : t ≠ .stepSucceeded) (hslot : r1.hasEventSlot t = true) : r.Logs (r1.pushEvent t x)

/-- The events of an end: the last one is terminal. -/
def Run.Ends (type : EventType) (r r' : Run) : Prop :=
  ∃ r1 x, r.Logs r1 ∧ r1.hasEventSlot type = true ∧ r' = r1.pushEvent type x

/-- A step of a run that `failRunForStepTx` fails. -/
def Step.failFast (s : Step) (failing : Bool) (reason : String) (actor : Option ActorID)
    (now closedAt : Time) : Step :=
  let revoked := s.revokeSiblings now
  let failed := if failing then revoked.failWith reason else revoked
  let settled := failed.closeOpenCases actor .fail closedAt
  (if failing then settled else settled.cancelOpenWith none).cancelTimers

/-- The rows `failRunForStepTx` writes. -/
def Run.failFast (r : Run) (id : StepID) (reason : String) (actor : Option ActorID)
    (now closedAt : Time) : Run :=
  (r.mapSteps fun k s => s.failFast (k == id) reason actor now closedAt).setStatus .failed
    (some reason)

def Step.cancelAll (s : Step) (actor : Option ActorID) (now graceUntil closedAt : Time) : Step :=
  (((s.revokeCancelled now graceUntil).cancelOpenWith (some "CANCEL_REQUESTED")).cancelTimers
    ).cancelApproval.closeOpenCases actor .cancel closedAt

def Step.failOverdue (s : Step) (closedAt : Time) : Step :=
  (s.cancelOpen.cancelTimers).closeOpenCases none .fail closedAt

/-- What `failRunForStepTx` starts from: its callers may have closed an attempt, expired or
decided an approval, or resolved a case of the failing step first. -/
inductive Run.FailsFrom (r : Run) (id : StepID) : Run → Prop
  | asFound {s : Step} (hf : r.steps.find? id = some s) (hs : s.state ≠ .succeeded) :
      r.FailsFrom id r
  | closed {s s1 : Step} {status : AttemptStatus} (hf : r.steps.find? id = some s)
      (a : AttemptID) (howns : s.Owns a) (hc : s.Closes (r.retryPolicy s) a status s1)
      (hs : s1.state ≠ .succeeded) : r.FailsFrom id (r.setStep id s1)
  | expired {s : Step} (hf : r.steps.find? id = some s) (hp : s.hasPendingApproval = true) :
      r.FailsFrom id (r.setStep id s.expireApproval)
  | rejected {s : Step} (hf : r.steps.find? id = some s) (hopen : r.status.closing = false)
      (hs : s.state = .waiting) (hp : s.hasPendingApproval = true) (status : ApprovalStatus)
      (comment : String) (actor : ActorID) (now : Time) (hstatus : status ≠ .pending) :
      r.FailsFrom id (r.setStep id (s.decideApproval status comment actor now))
  | resolved {s : Step} (hf : r.steps.find? id = some s) (case : CaseID) (hc : s.Holds case)
      (actor : ActorID) (now closedAt : Time) :
      r.FailsFrom id ((r.setStep id (s.resolveCase case .fail actor now)).mapSteps
        fun _ s => s.closeOpenCases (some actor) .fail closedAt)

def Run.AllTerminal (r : Run) : Prop := r.EachStep fun _ s => s.state.terminal = true

/-- A `STEP_SUCCEEDED` event speaks of a step that succeeded, or the trace shows why not: the
decision output of the step was rejected, or its success was confirmed while it was not held. -/
def Justified (r : Run) (trace : List Visit) (x : Payload) : Prop :=
  ∃ id, x.lookup "stepId" = some (idJson id) ∧
    ((∃ s, r.steps.find? id = some s ∧ s.state = .succeeded) ∨
      (∃ v ∈ trace, v.kind = .approvalOutputRejected id) ∨
      ∃ v ∈ trace, v.kind = .confirmSucceeded id ∧
        ∀ s, v.run.steps.find? id = some s → s.waitsFor "RECONCILIATION" = false)

/-- The ways a run ends: the visits of the end, its terminal event, and the run before that
event. -/
inductive Run.Closes (r : Run) : List Visit → EventType → Run → Prop
  | fail {id : StepID} {r0 r1 : Run} (vs : List Visit) (reason : String)
      (actor : Option ActorID) (now closedAt : Time) (hf : r.FailsFrom id r0) (hl : r0.Logs r1) :
      Closes r (vs ++ [⟨.failRun id, r1⟩]) .runFailed (r1.failFast id reason actor now closedAt)
  | failWithoutSteps (closedAt : Time) (hopen : r.status.closing = false) (hall : r.AllTerminal) :
      Closes r [] .runFailed ((r.mapSteps fun _ s =>
        s.cancelTimers.closeOpenCases none .fail closedAt).setStatus .failed
          (some "RUN_DEADLINE_EXCEEDED"))
  | settleFailed (reason : String) (hopen : r.status.terminal = false) (hall : r.AllTerminal) :
      Closes r [⟨.settle, r⟩] .runFailed (r.setStatus .failed (some reason))
  | settleSucceeded (output : Json) (hopen : r.status.terminal = false) (hall : r.AllTerminal) :
      Closes r [⟨.settle, r⟩] .runCompleted { r.setStatus .succeeded none with output := some output }
  | cancel (actor : Option ActorID) (now graceUntil closedAt : Time)
      (hopen : r.status.closing = false) :
      Closes r [] .runCancelled
        { (r.mapSteps fun _ s => s.cancelAll actor now graceUntil closedAt).setStatus .cancelled
            (some "CANCEL_REQUESTED") with
          revision := r.revision + 1
          terminationConfirmed := some true }
  | settleCancelled (confirmed : Bool) (hs : r.status = .cancelling) :
      Closes r [] .runCancelled
        { r with status := .cancelled, terminationConfirmed := some confirmed }
  | artifactFailure {id : StepID} {s : Step} (hf : r.steps.find? id = some s)
      (hs : s.state = .ready ∨ s.state = .failed) :
      Closes r [⟨.artifactFailure id, r⟩] .runFailed ((r.mapSteps fun k s =>
        (if k = id ∧ s.state = .ready then s.failWith "ARTIFACT_UNAVAILABLE" else s).cancelIdle
          ).setStatus .failed (some "ARTIFACT_UNAVAILABLE"))
  | deadlineLost {id : StepID} {s s1 : Step} (a : AttemptID) (closedAt : Time)
      (hf : r.steps.find? id = some s) (hopen : r.status.closing = false) (howns : s.Owns a)
      (hc : s.Closes (r.retryPolicy s) a .lost s1) (hs : s1.state.terminal = false) :
      Closes r [⟨.deadlineLost id a, r⟩] .runFailed
        (((r.setStep id s1).mapSteps fun _ s => s.failOverdue closedAt).setStatus .failed
          (some "RUN_DEADLINE_EXCEEDED"))
  | deadlineHandoff (id : StepID) (closedAt : Time) (hopen : r.status.closing = false) :
      Closes r [⟨.deadlineHandoff id, r⟩] .runFailed
        ((r.mapSteps fun _ s => s.failOverdue closedAt).setStatus .failed
          (some "RUN_DEADLINE_EXCEEDED"))
  | handoffExhausted {id : StepID} {s : Step} (hf : r.steps.find? id = some s)
      (hopen : r.status.closing = false) (hw : s.waitsFor "RECOVERY_HANDOFF" = true) :
      Closes r [⟨.handoffExhausted id, r⟩] .runFailed ((r.mapSteps fun k s =>
        (if k = id then s.failWith "MAX_ATTEMPTS_EXCEEDED" else s).cancelIdle).setStatus .failed
          (some "MAX_ATTEMPTS_EXCEEDED"))
  | historyLimit (hopen : r.status.terminal = false) :
      Closes r [⟨.historyLimit, r⟩] .runFailed ((r.mapSteps fun _ s => s.cancelIdle).setStatus
        .failed (some "HISTORY_LIMIT_EXCEEDED"))

/-- One move of a run: the visits it adds to the trace and the run it leaves. -/
inductive Run.Moves (r : Run) (trace : List Visit) : List Visit → Run → Prop
  | idle (vs : List Visit) : Moves r trace vs r
  | event (t : EventType) (x : Payload) (ht : t.terminal = false)
      (hslot : r.hasEventSlot t = true) (hs : t = .stepSucceeded → Justified r trace x) :
      Moves r trace [] (r.pushEvent t x)
  | checked (now : Time) : Moves r trace [] { r with reconciliationCheckedAt := some now }
  | step {id : StepID} {s s' : Step} {k : Option VisitKind} {u : Option StatusMove}
      (hf : r.steps.find? id = some s)
      (hm : Step.Moves r id s k u s')
      (hu : ∀ x ∈ u, x.Admissible (r.setStep id s')) :
      Moves r trace (k.toList.map fun k => ⟨k, r⟩) (StatusMove.follow u (r.setStep id s'))
  | status (u : StatusMove) (halone : u.alone = true) (hu : u.Admissible r) :
      Moves r trace (u.visit.toList.map fun k => ⟨k, r⟩) (u.apply r)
  | close {t : EventType} {vs : List Visit} {r1 r' : Run} (hc : r.Closes vs t r1)
      (he : Run.Ends t r1 r') : Moves r trace vs r'
  | closeSilent (hopen : r.status.terminal = false) (hslot : r.hasEventSlot .runFailed = false) :
      Moves r trace [⟨.historyLimit, r⟩] ((r.mapSteps fun _ s => s.cancelIdle).setStatus .failed
        (some "HISTORY_LIMIT_EXCEEDED"))
  | requestCancel (actor : Option ActorID) (now graceUntil closedAt : Time)
      (hopen : r.status.closing = false) :
      Moves r trace []
        { (r.mapSteps fun _ s => s.cancelAll actor now graceUntil closedAt).setStatus .cancelling
            (some "CANCEL_REQUESTED") with revision := r.revision + 1 }

inductive Run.Unsettles (r : Run) : List Visit → Run → Prop
  | step {id : StepID} {s s' : Step} {k : VisitKind} (hf : r.steps.find? id = some s)
      (hm : Step.Unsettles r id s k s') : Unsettles r [⟨k, r⟩] (r.setStep id s')

/-! ### Paths -/

structure View where
  run : Run
  trace : List Visit

namespace View

def Link (a b : View) : Prop := ∃ vs, a.run.Moves a.trace vs b.run ∧ b.trace = a.trace ++ vs

def Leads : View → View → Prop := Relation.ReflTransGen Link

/-- One move or one unsettling write between views. -/
def Edge (a b : View) : Prop :=
  a.Link b ∨ ∃ vs, a.run.Unsettles vs b.run ∧ b.trace = a.trace ++ vs

def Reaches : View → View → Prop := Relation.ReflTransGen Edge

end View

def RunScope.view (c : RunScope) : View := ⟨c.run, c.sys.trace⟩

end Deadbolt.Execution

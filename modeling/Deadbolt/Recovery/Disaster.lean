import Deadbolt.Execution.Engine

/-!
# Disaster recovery

`PrepareDisasterRecovery` after a restore: every run that has not ended is held for reconciliation,
with one open case for each of its open steps. The transaction of the organization is modelled.
Sessions do not keep their creation time, so the ones it revokes are an argument.
-/

namespace Deadbolt.Execution

open Base Contracts RunTx

/-- The times of a `PrepareRequest`. -/
structure Incident where
  recoveryPoint : Time
  incidentAt : Time

/-- `resolveRecoveryPolicy`, `internal/recovery/recovery.go:137-181`. -/
def resolveRecoveryPolicy (m : DeploymentManifest) (workflowName nodeID : String) :
    String × Bool :=
  let node := (m.workflow? workflowName).bind fun wf => wf.nodes.find? fun n => n.id == nodeID
  let task := ((node.map WorkflowNode.task).filter fun name => name != "").bind m.task?
  match task with
  | none => ("unknown", false)
  | some t =>
    if isValidRecoveryPolicy t.recovery then (recoveryMode t.recovery, true)
    else ("unknown", false)

/-- `||` on two objects: the members of the second one win. -/
def mergePayload (a b : Payload) : Payload :=
  (a.filter fun m => (b.lookup m.1).isNone) ++ b

namespace Step

def awaitOperator (s : Step) : Step :=
  { s with state := .waiting, waitReason := some "RECONCILIATION" }

/-- `UPDATE reconciliation_cases SET evidence=…` of the oldest open case. -/
def attachEvidence (s : Step) (evidence : Payload) : Step :=
  match s.cases.find? fun c => c.status == .open with
  | none => s
  | some case =>
    { s with cases := s.cases.map fun c =>
        if c.id = case.id then
          { c with evidence := mergePayload c.evidence evidence, revision := c.revision + 1 }
        else c }

end Step

/-- The event is inserted without the budget of `appendRunEvent` and without an outbox row. -/
def Run.pushHoldEvent (r : Run) (payload : Payload) : Run :=
  { r with
    lastEventSequence := r.lastEventSequence + 1
    events := r.events ++ [⟨r.lastEventSequence + 1, .stepWaiting, payload⟩] }

section

variable [Platform]

def Incident.evidence (i : Incident) (nodeID : String) (policy : String × Bool) : Payload :=
  [("recoveryPoint", timeJson i.recoveryPoint), ("incidentAt", timeJson i.incidentAt),
   ("uncertaintyWindowStart", timeJson i.recoveryPoint),
   ("uncertaintyWindowEnd", timeJson i.incidentAt), ("nodeId", .str nodeID),
   ("recoveryPolicy", .str policy.1),
   ("policySource", .str (if policy.2 then "deployment-manifest" else "unresolved")),
   ("disasterRecovery", .bool true),
   ("note", .str ("Restored from DB snapshot older than potential external side effects; " ++
     "review required before resume"))]

/-- The hold of one open step, `recovery.go:319-394`. -/
def holdStepTx (i : Incident) (stepID : StepID) (nodeID : String) : RunTx Unit := do
  note .disasterHold
  let r ← getRun
  let s ← getStep stepID
  let evidence :=
    i.evidence nodeID (resolveRecoveryPolicy r.deployment.manifest r.workflowName nodeID)
  if s.hasOpenCase then do
    let _ ← updateStep stepID (fun _ => true) fun s => s.awaitOperator.attachEvidence evidence
  else do
    let caseID ← newID
    let case : Case :=
      { id := caseID, attemptID := none, reason := "DISASTER_RECOVERY_HOLD", evidence
        status := .open, resolution := none, actorID := none, revision := 1, resolvedAt := none }
    let _ ← updateStep stepID (fun _ => true) fun s =>
      { s.awaitOperator with cases := s.cases ++ [case] }
  note .disasterHold
  modifyRun fun r => r.pushHoldEvent
    [("stepId", idJson stepID), ("nodeId", .str nodeID), ("reason", .str "RECONCILIATION"),
     ("holdReason", .str "DISASTER_RECOVERY_HOLD"),
     ("uncertaintyWindowStart", timeJson i.recoveryPoint),
     ("uncertaintyWindowEnd", timeJson i.incidentAt)]

/-- The hold of one run, `recovery.go:281-396`. -/
def holdRunTx (i : Incident) : RunTx Unit := do
  let r ← getRun
  if r.status.terminal then pure ()
  else do
    note .disasterHold
    modifyRun fun r => r.setStatus .waiting (some "RECONCILIATION")
    Tx.forEach (r.steps.rows.filter fun e => !e.2.state.terminal) fun e =>
      holdStepTx i e.1 e.2.nodeID

/-- The transaction of an organization, `recovery.go:242-398`. -/
def prepareDisasterRecoveryTx (i : Incident) (stale : List SessionID) : DbTx Unit := do
  let now ← dbClock
  Tx.write fun db =>
    { db with fleet := { db.fleet with
        sessions := db.fleet.sessions.mapRows fun id s =>
          if id ∈ stale ∧ s.revokedAt.isNone then { s with revokedAt := some now } else s } }
  let db ← Tx.read id
  Tx.forEach (db.runs.rows.filter fun e => !e.2.status.terminal) fun e => onRun e.1 (holdRunTx i)

end

/-- What may happen to an organization: a transaction of the engine, or a recovery. -/
inductive Operation where
  | engine (a : Action)
  | recover (i : Incident) (stale : List SessionID)

def World.operate [Platform] (w : World) : Operation → World
  | .engine a => w.step a
  | .recover i stale =>
    if i.recoveryPoint ≤ i.incidentAt then w.attempt (prepareDisasterRecoveryTx i stale) else w

def installation [Platform] : System World Operation := ⟨World.operate⟩

end Deadbolt.Execution

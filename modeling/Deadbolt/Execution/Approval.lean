import Deadbolt.Execution.Dag

/-!
# Approval decisions

The transactions of `internal/execution/approval.go:420-626` and `:771-792` on the run that
owns the approval. The caller has resolved the approval to its step, has checked that a
person decides, and has checked the decision word.
-/

namespace Deadbolt.Execution

open Base Contracts RunTx

/-- The decisions of `contracts.ApprovalDecision…`. -/
inductive Decision where
  | approved | rejected
  deriving DecidableEq

namespace Decision

def text : Decision → String
  | approved => "approved"
  | rejected => "rejected"

def status : Decision → ApprovalStatus
  | approved => .approved
  | rejected => .rejected

end Decision

/-- `DecideApprovalRequest` with the deciding person. -/
structure DecideApprovalRequest where
  decision : Decision
  expectedRevision : Int
  comment : String
  actorID : ActorID

/-- Every workflow of the deployment with an approval node of this id accepts the output,
`approval.go:614-624`. -/
def DeploymentManifest.acceptsDecision [Platform] (m : DeploymentManifest) (nodeID : String)
    (out : Json) : Bool :=
  m.workflows.all fun wf => wf.nodes.all fun n =>
    n.id != nodeID || schemaAccepts (n.approval.bind ApprovalNodeConfig.outputSchema) out

variable [Platform]

/-- The decision output, `approval.go:543-550`. -/
def decisionOutput (req : DecideApprovalRequest) (now : Time) : Json :=
  .obj ([("decision", .str req.decision.text), ("actorId", idJson req.actorID),
    ("decidedAt", timeJson now)] ++
      if req.comment = "" then [] else [("comment", .str req.comment)])

/-- `validateApprovalOutputTx`, `approval.go:604-626`. A violation fails the
run and returns normally. -/
def validateApprovalOutputTx (stepID : StepID) (nodeID : String) (out : Json) : RunTx Unit := do
  let r ← getRun
  if r.deployment.manifest.acceptsDecision nodeID out then pure ()
  else do
    note (.approvalOutputRejected stepID)
    failRunForStepTx stepID "SCHEMA_VALIDATION_ERROR" none

/-- The writes of an accepted decision, `approval.go:515-598`. -/
def commitDecisionTx (stepID : StepID) (nodeID : String) (approvalID : ApprovalID)
    (req : DecideApprovalRequest) (now : Time) : RunTx Unit := do
  let out := decisionOutput req now
  let _ ← updateStep stepID (fun _ => true) fun s =>
    s.decideApproval req.decision.status req.comment req.actorID now
  validateApprovalOutputTx stepID nodeID out
  let _ ← updateStep stepID (fun s => s.state == .waiting) fun s => s.succeed out
  appendRunEvent .approvalDecided
    [("stepId", idJson stepID), ("nodeId", .str nodeID), ("approval", idJson approvalID),
     ("decision", .str req.decision.text), ("actorId", idJson req.actorID)]
  appendRunEvent .stepSucceeded
    [("stepId", idJson stepID), ("nodeId", .str nodeID), ("output", out)]
  advanceAfterStepSuccessTx out
  note .control
  modifyRun Run.recomputeAfterControl

/-- `approvalExpiredNowTx`, `approval.go:748-757`. -/
def approvalExpiredNowTx (expiresAt : Option Time) : RunTx Bool :=
  match expiresAt with
  | none => pure false
  | some t => do
    let now ← clockTimestamp
    pure (decide (t ≤ now))

/-- `decideApprovalTx`, `approval.go:420-599`, on the resolved step. -/
def decideApprovalTx (stepID : StepID) (approvalID : ApprovalID)
    (req : DecideApprovalRequest) : RunTx Unit := do
  let r ← getRun
  Tx.require (r.status.terminal = false) .runTerminal
  Tx.require (r.status ≠ .cancelling) .runCancelling
  let s ← getStep stepID
  match s.approval with
  | none => Tx.fail .approvalNotFound
  | some a => do
    let expired ← approvalExpiredNowTx a.expiresAt
    Tx.require (expired = false ∨ a.status ≠ .pending) .approvalExpired
    if a.status = .pending then do
      Tx.require (req.expectedRevision = a.revision) .revisionConflict
      Tx.require (s.state = .waiting) .approvalTerminal
      let now ← clockTimestamp
      commitDecisionTx stepID s.nodeID approvalID req now
    else if a.status = .cancelled ∨ a.status = .expired then Tx.fail .approvalTerminal
    else
      -- Repeating the committed decision succeeds without a write.
      Tx.require (a.status = req.decision.status) .approvalConflict

/-- `expireApprovalTx`, `approval.go:771-792`. The run is not read. -/
def expireApprovalTx (stepID : StepID) (nodeID : String) (approvalID : ApprovalID) :
    RunTx Unit := do
  let s ← getStep stepID
  if s.hasPendingApproval then do
    let _ ← updateStep stepID (fun _ => true) Step.expireApproval
    appendRunEvent .approvalExpired
      [("stepId", idJson stepID), ("nodeId", .str nodeID), ("approval", idJson approvalID)]
    failRunForStepTx stepID "APPROVAL_EXPIRED" none
  else pure ()

end Deadbolt.Execution

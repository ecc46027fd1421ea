import Deadbolt.Execution.Settle

/-!
# Graph evaluation

`evaluateBlockedDAGTx`, the settlement of a finished run and the advancement after a
success, `internal/execution/worker_engine.go:1955-2586`, with the approval request of
`approval.go:62-206`. What happens to a blocked node is decided from the
memory of the evaluation alone (`Dag.decide`); the statements follow the decision.
-/

namespace Deadbolt.Execution

open Base Contracts RunTx

/-! ### Memory of an evaluation -/

/-- `dagEvalStep`, `worker_engine.go:1894-1899`. -/
structure DagStep where
  id : StepID
  state : StepState

/-- The maps and counters `evaluateBlockedDAGTx` works on. -/
structure DagState where
  steps : List (String × DagStep)
  outputs : Outputs
  transitions : Nat
  changed : Bool

namespace DagState

def step? (st : DagState) (nodeID : String) : Option DagStep := st.steps.lookup nodeID

def state? (st : DagState) (nodeID : String) : Option StepState :=
  (st.step? nodeID).map DagStep.state

def setState (st : DagState) (nodeID : String) (state : StepState) : DagState :=
  { st with steps := st.steps.map fun e =>
      if e.1 = nodeID then (e.1, { e.2 with state := state }) else e }

def count (st : DagState) : DagState := { st with transitions := st.transitions + 1 }

def touch (st : DagState) : DagState := { st with changed := true }

def setOutput (st : DagState) (nodeID : String) (value : Json) : DagState :=
  { st with outputs := (nodeID, value) :: st.outputs.filter fun e => e.1 != nodeID }

end DagState

/-- What an evaluation reads and never changes. -/
structure Dag where
  workflowName : String
  workflow : WorkflowManifest
  manifest : DeploymentManifest
  runInput : Json
  readyEventReason : String

namespace Dag

/-- The relations `evaluateBlockedDAGTx` builds once. -/
def ancestors (d : Dag) : AncestorPairs := buildGraphRelations d.workflow.nodes

end Dag

/-! ### Decisions -/

inductive Gate where
  | unmet | skipped | met
  deriving DecidableEq

/-- `SUCCEEDED` or `SKIPPED`. -/
def StepState.passed : StepState → Bool
  | .succeeded | .skipped => true
  | _ => false

/-- The dependency loops of lines 2089-2108 and 2168-2185: every dependency must have
passed, and one skipped dependency skips the node. -/
def dependencyGate (st : DagState) (deps : List String) : Gate :=
  if deps.any fun d => !((st.state? d).map StepState.passed).getD false then .unmet
  else if deps.any fun d => st.state? d == some .skipped then .skipped
  else .met

inductive NodeDecision where
  | wait | skip | ready | approval
  | fail (code : String)
  /-- The node succeeds at once and the named nodes lose their branch. -/
  | succeed (output : Json) (unselected : List String)
  | delay (delayMs : Int)

/-- The branch a choice output names, `worker_engine.go:2035-2042`. -/
def selectedBranch (output : Option Json) : String :=
  match output with
  | some (.obj members) =>
    match members.lookup "selected" with
    | some (.str s) => s
    | _ =>
      match members.lookup "branch" with
      | some (.str s) => s
      | _ => ""
  | _ => ""

/-- The nodes of the branches that were not selected, in the iteration order of the maps. -/
def unselectedNodes [Platform] (branchNodes : List (String × List String)) (selected : String) :
    List String :=
  (Platform.mapOrder (branchNodes.map Prod.fst)).flatMap fun name =>
    if name = selected then [] else Platform.mapOrder ((branchNodes.lookup name).getD [])

/-- The conditional branches in declaration order: `none` for a missing or failing
condition, otherwise the first branch whose condition holds. -/
def conditionalBranch (defaultName : String) (input : Json) (outputs : Outputs) :
    List ChoiceBranch → Option (Option String)
  | [] => some none
  | b :: rest =>
    if b.name = defaultName then conditionalBranch defaultName input outputs rest
    else
      match b.condition with
      | none => none
      | some condition =>
        match evaluateChoice condition input outputs with
        | .error _ => none
        | .ok true => some (some b.name)
        | .ok false => conditionalBranch defaultName input outputs rest

/-- The choice case, `worker_engine.go:2218-2278`; `none` is
`INVALID_EXPRESSION`. -/
def chooseBranch (choice : Option ChoiceConfig) (input : Json) (outputs : Outputs) :
    Option String :=
  match choice with
  | none => none
  | some cfg =>
    if cfg.branches = [] then none
    else if cfg.default ≠ "" ∧ cfg.branches.all (fun b => b.name != cfg.default) then none
    else
      match conditionalBranch cfg.default input outputs cfg.branches with
      | none => none
      | some (some name) => some name
      | some none => if cfg.default ≠ "" then some cfg.default else none

namespace Dag

variable [Platform]

/-- The value of a selected merge branch; `none` is a mapping failure. -/
def mergeValue (d : Dag) (st : DagState) (branch : MergeBranch) : Option Json :=
  match branch.value with
  | some mapping => (mapInput mapping d.runInput st.outputs).toOption
  | none => some ((st.outputs.lookup branch.terminal).getD .null)

/-- The merge case once its branch terminal has succeeded,
`worker_engine.go:2058-2163`. -/
def decideMergeBranch (d : Dag) (st : DagState) (node : WorkflowNode) (merge : MergeConfig)
    (selected : String) (branch : MergeBranch) : NodeDecision :=
  let branchNodes := getBranchNodes d.workflow merge.choice d.ancestors
  let unselected :=
    (branchNodes.flatMap fun e => if e.1 = selected then [] else e.2) ++
      (merge.branches.filter fun b => b.branch != selected).map MergeBranch.terminal
  match dependencyGate st (node.after.filter fun dep => !unselected.contains dep) with
  | .unmet => .wait
  | .skipped => .skip
  | .met =>
    match d.mergeValue st branch with
    | none => .fail "INPUT_MAPPING_ERROR"
    | some value =>
      let out := Json.obj [("branch", .str selected), ("value", value)]
      match merge.outputSchema with
      | none => .fail "INVALID_EXPRESSION"
      | some schema =>
        if Platform.validatePayload schema out then .succeed out []
        else .fail "SCHEMA_VALIDATION_ERROR"

/-- The merge case, `worker_engine.go:1993-2166`. -/
def decideMerge (d : Dag) (st : DagState) (node : WorkflowNode) : NodeDecision :=
  match node.merge with
  | none => .fail "INVALID_EXPRESSION"
  | some merge =>
    match st.state? merge.choice with
    | some .skipped => .skip
    | some .succeeded =>
      let selected := selectedBranch (st.outputs.lookup merge.choice)
      if selected = "" then .wait
      else
        match merge.branches.find? fun b => b.branch == selected with
        | none => .fail "INVALID_EXPRESSION"
        | some branch =>
          if st.state? branch.terminal = some .succeeded then
            d.decideMergeBranch st node merge selected branch
          else .wait
    | _ => .wait

/-- The task case, `worker_engine.go:2378-2386`: the committed outputs must
map to a valid input. -/
def decideTask (d : Dag) (st : DagState) (node : WorkflowNode) : NodeDecision :=
  match node.input with
  | none => .ready
  | some mapping =>
    match mapInput mapping d.runInput st.outputs with
    | .error _ => .fail "INPUT_MAPPING_ERROR"
    | .ok mapped =>
      if schemaAccepts (d.manifest.taskSchemas d.workflowName node.id).1 mapped then .ready
      else .fail "INPUT_MAPPING_ERROR"

def decideChoice (d : Dag) (st : DagState) (node : WorkflowNode) : NodeDecision :=
  match chooseBranch node.choice d.runInput st.outputs with
  | none => .fail "INVALID_EXPRESSION"
  | some selected =>
    .succeed (.obj [("selected", .str selected), ("branch", .str selected)])
      (unselectedNodes (getBranchNodes d.workflow node.id d.ancestors) selected)

/-- The delay case, `worker_engine.go:2352-2358`. -/
def decideDelay (node : WorkflowNode) : NodeDecision :=
  match node.delayMs with
  | none => .fail "INVALID_DELAY"
  | some ms => if 1 ≤ ms ∧ ms ≤ maxRunLifetimeMs then .delay ms else .fail "INVALID_DELAY"

/-- What `evaluateBlockedDAGTx` does with a node whose step is `BLOCKED`. -/
def decide (d : Dag) (st : DagState) (node : WorkflowNode) : NodeDecision :=
  match node.type with
  | .merge => d.decideMerge st node
  | type =>
    match dependencyGate st node.after with
    | .unmet => .wait
    | .skipped => .skip
    | .met =>
      match type with
      | .choice => d.decideChoice st node
      | .approval => .approval
      | .delay => decideDelay node
      | _ => d.decideTask st node

end Dag

/-! ### Approval requests -/

def approvalDefaultWaitMs : Int := 24 * 60 * 60 * 1000

def approvalMaxWaitMs : Int := 30 * 24 * 60 * 60 * 1000

def approvalDecisionCapability : String := "approvals:decide"

/-- `approvalWaitMs`, `approval.go:67-75`. -/
def approvalWaitMs (cfg : ApprovalNodeConfig) : Int :=
  if 0 < cfg.expiresInMs then
    if approvalMaxWaitMs < cfg.expiresInMs then approvalMaxWaitMs else cfg.expiresInMs
  else approvalDefaultWaitMs

def approvalExpiry (now : Time) (waitMs : Int) (deadline : Option Time) : Time :=
  match deadline with
  | none => now + millis waitMs
  | some t => min (now + millis waitMs) t

/-- The row of a requested approval, `approval.go:145-158`. -/
def newApproval (id : ApprovalID) (cfg : ApprovalNodeConfig) (payload : Json) (now : Time)
    (deadline : Option Time) : Approval :=
  { id, payload, requiredPermission := approvalDecisionCapability, status := .pending
    expiresAt := some (approvalExpiry now (approvalWaitMs cfg) deadline)
    decidedAt := none, decisionComment := none, actorID := none, revision := 1 }

variable [Platform]

/-- The insert and the park of `openApprovalTx`, `approval.go:145-196`. -/
def requestApproval (stepID : StepID) (nodeID : String) (cfg : ApprovalNodeConfig)
    (payload : Json) : RunTx Bool := do
  note (.openApproval stepID)
  let r ← getRun
  let s ← getStep stepID
  if s.approval.isSome then pure false
  else do
    let id ← newID
    let now ← clockTimestamp
    let _ ← updateStep stepID (fun _ => true) fun s =>
      s.requestApproval (newApproval id cfg payload now r.deadlineAt)
    if s.state = .blocked then do
      appendRunEvent .approvalRequested
        [("stepId", idJson stepID), ("nodeId", .str nodeID), ("approval", idJson id),
         ("requiredPermission", .str approvalDecisionCapability),
         ("expiresInMs", .num (approvalWaitMs cfg))]
      modifyRun Run.recomputeAfterControl
      pure true
    else pure false

/-- `openApprovalTx`, `approval.go:94-197`. A payload that cannot be mapped
fails the run and returns normally. -/
def openApprovalTx (stepID : StepID) (node : WorkflowNode) (runInput : Json)
    (outputs : Outputs) : RunTx Bool :=
  match node.approval with
  | none => do
    failRunForStepTx stepID "INVALID_MANIFEST" none
    Tx.fail .approvalConfigMissing
  | some cfg =>
    match mapInput (cfg.payload.getD (.obj [])) runInput outputs with
    | .error _ => do
      failRunForStepTx stepID "INPUT_MAPPING_ERROR" none
      pure false
    | .ok payload => requestApproval stepID node.id cfg payload

/-! ### Evaluation -/

/-- `UPDATE run_steps … WHERE id = id AND state='BLOCKED'` with its event; the result is whether
the row matched. -/
def writeBlocked (stepID : StepID) (f : Step → Step) (type : EventType) (payload : Payload) :
    RunTx Bool := do
  let hit ← updateStep stepID (fun s => s.state == .blocked) f
  if hit then do
    appendRunEvent type payload
    pure true
  else pure false

def skipStep (stepID : StepID) (nodeID reason : String) : RunTx Bool :=
  writeBlocked stepID (fun s => s.skip reason) .stepSkipped
    [("stepId", idJson stepID), ("nodeId", .str nodeID), ("reason", .str reason)]

def succeedControl (stepID : StepID) (nodeID : String) (output : Json) : RunTx Bool :=
  writeBlocked stepID (fun s => s.succeed output) .stepSucceeded
    [("stepId", idJson stepID), ("nodeId", .str nodeID), ("output", output)]

def readyTask (stepID : StepID) (nodeID reason : String) : RunTx Bool := do
  let now ← clockTimestamp
  writeBlocked stepID (fun s => s.makeReady now) .stepReady
    ([("stepId", idJson stepID), ("nodeId", .str nodeID)] ++
      if reason = "" then [] else [("reason", .str reason)])

/-- The skip of one node that lost its branch, `worker_engine.go:2308-2328`. -/
def skipUnselected (st : DagState) (nodeID : String) : RunTx DagState :=
  match st.step? nodeID with
  | none => pure st
  | some step =>
    if step.state = .blocked then do
      let hit ← skipStep step.id nodeID "BRANCH_NOT_SELECTED"
      pure (if hit then (st.setState nodeID .skipped).count else st)
    else pure st

/-- The statements for a decided node; the flag says that the run was failed. -/
def applyDecision (d : Dag) (st : DagState) (node : WorkflowNode) (stepID : StepID) :
    NodeDecision → RunTx (DagState × Bool)
  | .wait => pure (st, false)
  | .skip => do
    let hit ← skipStep stepID node.id "DEPENDENCY_SKIPPED"
    pure (if hit then (st.setState node.id .skipped).touch.count else st, false)
  | .ready => do
    let hit ← readyTask stepID node.id d.readyEventReason
    pure (if hit then (st.setState node.id .ready).touch.count else st, false)
  | .fail code => do
    failRunForStepTx stepID code none
    pure (st, true)
  | .succeed output unselected => do
    let hit ← succeedControl stepID node.id output
    if hit then do
      let st := ((st.setState node.id .succeeded).setOutput node.id output).touch.count
      let st ← Tx.foldEach unselected st skipUnselected
      pure (st, false)
    else pure (st, false)
  | .approval => do
    let created ← openApprovalTx stepID node d.runInput st.outputs
    pure (if created then (st.setState node.id .waiting).touch.count else st, false)
  | .delay delayMs => do
    let timer ← scheduleDelayTx stepID delayMs
    let st := st.setState node.id .waiting
    if timer.2 then do
      appendRunEvent .stepWaiting
        [("stepId", idJson stepID), ("nodeId", .str node.id), ("reason", .str "DELAY"),
         ("dueAt", timeJson timer.1)]
      pure (st.touch.count, false)
    else pure (st, false)

/-- One iteration of the node loop: only a step that is still `BLOCKED` in memory. -/
def evaluateNode (d : Dag) (st : DagState) (node : WorkflowNode) : RunTx (DagState × Bool) :=
  match st.step? node.id with
  | none => pure (st, false)
  | some step =>
    if step.state = .blocked then applyDecision d st node step.id (d.decide st node)
    else pure (st, false)

def evaluateNodes (d : Dag) : List WorkflowNode → DagState → RunTx (DagState × Bool)
  | [], st => pure (st, false)
  | node :: rest, st => do
    let res ← evaluateNode d st node
    if res.2 then pure res else evaluateNodes d rest res.1

/-- Passes until one changes nothing. A pass that changes something takes a node out of
`BLOCKED` for good, so a fuel above the number of nodes is never used up. -/
def evaluatePasses (d : Dag) : Nat → DagState → RunTx (DagState × Bool)
  | 0, st => pure (st, false)
  | fuel + 1, st => do
    let res ← evaluateNodes d d.workflow.nodes { st with changed := false }
    if res.2 then pure res
    else if res.1.changed then evaluatePasses d fuel res.1
    else pure res

/-- `evaluateBlockedDAGTx`, `worker_engine.go:1977-2411`: the memory after the
fixed point, and whether the run was failed. -/
def evaluateBlockedDAGTx (d : Dag) (steps : List (String × DagStep)) (outputs : Outputs) :
    RunTx (DagState × Bool) :=
  evaluatePasses d (steps.length + 1) { steps, outputs, transitions := 0, changed := true }

/-! ### Settlement -/

/-- The steps of a run as `dagEvalStep`s by node. -/
def Run.dagSteps (r : Run) : List (String × DagStep) :=
  r.steps.rows.map fun e => (e.2.nodeID, ⟨e.1, e.2.state⟩)

/-- The outputs the engine passes on: JSON null counts as no output. -/
def Run.committedOutputs (r : Run) : Outputs :=
  r.steps.rows.filterMap fun e =>
    match e.2.output with
    | none => none
    | some .null => none
    | some v => some (e.2.nodeID, v)

inductive Settlement where
  | open
  | failed (reason : String) (payload : Payload)
  | tooLarge
  | succeeded (output : Json)

/-- The final output: the mapping if there is one, else the default. -/
def finalOutput (wf : WorkflowManifest) (outputs : Outputs) (runInput defaultOutput : Json) :
    Option Json :=
  match wf.output with
  | none => some defaultOutput
  | some mapping => (mapInput mapping runInput outputs).toOption

/-- The decision of `settleRunTerminalTx`. -/
def settlement (wf : WorkflowManifest) (state? : String → Option StepState) (outputs : Outputs)
    (runInput defaultOutput : Json) : Settlement :=
  if wf.nodes.any fun n => !((state? n.id).map StepState.terminal).getD false then .open
  else if wf.nodes.all fun n => ((state? n.id).map StepState.passed).getD false then
    match finalOutput wf outputs runInput defaultOutput with
    | none => .failed "OUTPUT_MAPPING_ERROR" [("reason", .str "OUTPUT_MAPPING_ERROR")]
    | some final =>
      if !schemaAccepts wf.outputSchema final then
        .failed "OUTPUT_SCHEMA_VIOLATION" [("reason", .str "OUTPUT_SCHEMA_VIOLATION")]
      else if fitsInline final then .succeeded final
      else .tooLarge
  else .failed "STEP_FAILED" [("status", .str "FAILED")]

/-- `settleRunTerminalTx`, `worker_engine.go:2513-2586`. -/
def settleRunTerminalTx (wf : WorkflowManifest) (state? : String → Option StepState)
    (outputs : Outputs) (runInput defaultOutput : Json) : RunTx Bool :=
  match settlement wf state? outputs runInput defaultOutput with
  | .open => pure false
  | .tooLarge => Tx.fail .payloadTooLarge
  | .failed reason payload => do
    note .settle
    let hit ← updateRun (fun r => !r.status.terminal) fun r =>
      r.setStatus .failed (some reason)
    if hit then do
      appendRunEvent .runFailed payload
      pure true
    else pure false
  | .succeeded output => do
    note .settle
    let hit ← updateRun (fun r => !r.status.terminal) fun r =>
      { r.setStatus .succeeded none with output := some output }
    if hit then do
      appendRunEvent .runCompleted [("status", .str "SUCCEEDED")]
      pure true
    else pure false

def Run.dag (r : Run) (wf : WorkflowManifest) (readyEventReason : String) : Dag :=
  { workflowName := r.workflowName, workflow := wf, manifest := r.deployment.manifest
    runInput := r.input, readyEventReason }

/-- `advanceAfterStepSuccessTx`, `worker_engine.go:2417-2497`. -/
def advanceAfterStepSuccessTx (defaultOutput : Json) : RunTx Unit := do
  let r ← getRun
  match r.workflow? with
  | none => pure ()
  | some wf => do
    let res ← evaluateBlockedDAGTx (r.dag wf "") r.dagSteps r.committedOutputs
    if res.2 then pure ()
    else do
      let _ ← settleRunTerminalTx wf res.1.state? res.1.outputs r.input defaultOutput

end Deadbolt.Execution

import Deadbolt.Contracts.Mapping
import Deadbolt.Execution.Retry

/-!
# Deployment manifests

`internal/execution/worker_engine.go:88-237` and the graph relations of lines 1901-1953. A manifest
is decoded JSON; an absent or null member is `none`.
-/

namespace Deadbolt.Execution

open Contracts

/-- `workflowNode.Type` and `run_steps.kind`; the empty type is `task`. -/
inductive NodeType where
  | task | approval | delay | choice | merge
  deriving DecidableEq

structure ChoiceBranch where
  name : String
  condition : Option Json

structure ChoiceConfig where
  branches : List ChoiceBranch
  default : String

structure MergeBranch where
  branch : String
  terminal : String
  value : Option Json

structure MergeConfig where
  choice : String
  branches : List MergeBranch
  outputSchema : Option Json

structure ApprovalNodeConfig where
  payload : Option Json
  outputSchema : Option Json
  requiredPermission : String
  expiresInMs : Int

structure WorkflowNode where
  id : String
  type : NodeType
  task : String
  after : List String
  input : Option Json
  delayMs : Option Int
  choice : Option ChoiceConfig
  merge : Option MergeConfig
  approval : Option ApprovalNodeConfig

structure WorkflowManifest where
  name : String
  inputSchema : Option Json
  outputSchema : Option Json
  nodes : List WorkflowNode
  output : Option Json

structure TaskManifest where
  name : String
  entrypoint : String
  recovery : String
  timeoutMs : Int
  inputSchema : Option Json
  outputSchema : Option Json
  idempotencyWindowMs : Option Int
  maxAttempts : Int
  initialDelayMs : Int
  maxDelayMs : Int

structure DeploymentManifest where
  tasks : List TaskManifest
  workflows : List WorkflowManifest

namespace DeploymentManifest

/-- The first workflow of a name, as every lookup of the engine takes it. -/
def workflow? (m : DeploymentManifest) (name : String) : Option WorkflowManifest :=
  m.workflows.find? fun wf => wf.name == name

private def nodeTask? (wf : WorkflowManifest) (nodeID : String) : Option String :=
  (wf.nodes.find? fun n => n.id == nodeID && n.task != "").map WorkflowNode.task

/-- The task name `taskRetryPolicy` resolves, in the first workflow of the name. -/
def retryTaskName (m : DeploymentManifest) (workflowName nodeID : String) : String :=
  ((m.workflow? workflowName).bind fun wf => nodeTask? wf nodeID).getD nodeID

/-- The task name `taskPolicy` and `taskSchemas` resolve: of several workflows with the
name, the last one that declares the node wins. -/
def taskName (m : DeploymentManifest) (workflowName nodeID : String) : String :=
  m.workflows.foldl
    (fun acc wf => if wf.name = workflowName then (nodeTask? wf nodeID).getD acc else acc) nodeID

def task? (m : DeploymentManifest) (name : String) : Option TaskManifest :=
  m.tasks.find? fun t => t.name == name

/-- `taskRetryPolicy`, `worker_engine.go:162-183`. An unknown task has
no recovery mode, which fails closed. -/
def taskRetryPolicy (m : DeploymentManifest) (workflowName nodeID : String) : RetryPolicy :=
  match m.task? (m.retryTaskName workflowName nodeID) with
  | some t =>
    normalizeRetryPolicy t.maxAttempts t.initialDelayMs t.maxDelayMs t.timeoutMs t.recovery
      t.idempotencyWindowMs
  | none => normalizeRetryPolicy 0 0 0 0 "" none

/-- `taskPolicy`, `worker_engine.go:190-216`. -/
def taskPolicy (m : DeploymentManifest) (workflowName nodeID : String) : String × Int :=
  match m.task? (m.taskName workflowName nodeID) with
  | some t =>
    let timeout := if t.timeoutMs ≤ 0 then defaultAttemptTimeoutMs else t.timeoutMs
    let timeout := if maxAttemptTimeoutMs < timeout then maxAttemptTimeoutMs else timeout
    (t.entrypoint, timeout)
  | none => (nodeID, defaultAttemptTimeoutMs)

/-- `taskSchemas`, `worker_engine.go:218-237`. -/
def taskSchemas (m : DeploymentManifest) (workflowName nodeID : String) :
    Option Json × Option Json :=
  match m.task? (m.taskName workflowName nodeID) with
  | some t => (t.inputSchema, t.outputSchema)
  | none => (none, none)

/-- The node a claim maps the input of: the first of its id in the first workflow of
the name, `worker_engine.go:1212-1224`. -/
def node? (m : DeploymentManifest) (workflowName nodeID : String) : Option WorkflowNode :=
  (m.workflow? workflowName).bind fun wf => wf.nodes.find? fun n => n.id == nodeID

end DeploymentManifest

/-! ### Graph relations -/

/-- Pairs `(node, ancestor)` of a workflow. -/
abbrev AncestorPairs := List (String × String)

/-- One relaxation of `buildGraphRelations`. -/
private def relax (ancestors : AncestorPairs) (k i j : String) : AncestorPairs :=
  if ancestors.contains (i, k) && ancestors.contains (k, j) && !ancestors.contains (i, j) then
    (i, j) :: ancestors
  else ancestors

/-- `buildGraphRelations`, `worker_engine.go:1901-1925`. The descendants
map is the converse of the ancestors map at every write, so one list holds both. -/
def buildGraphRelations (nodes : List WorkflowNode) : AncestorPairs :=
  let ids := nodes.map WorkflowNode.id
  let direct := nodes.flatMap fun n => n.after.map fun dep => (n.id, dep)
  ids.foldl (fun acc k =>
    ids.foldl (fun acc i =>
      ids.foldl (fun acc j => relax acc k i j) acc) acc) direct

/-- Insertion into a Go map kept as a list: the last value of a key wins. -/
private def setKey {β : Type} (acc : List (String × β)) (k : String) (v : β) :
    List (String × β) :=
  acc.filter (fun e => e.1 != k) ++ [(k, v)]

/-- `getBranchNodes`, `worker_engine.go:1927-1953`: the nodes between a
choice and the terminal of each branch of its merge. -/
def getBranchNodes (wf : WorkflowManifest) (choiceID : String) (ancestors : AncestorPairs) :
    List (String × List String) :=
  let merge? := wf.nodes.find? fun n =>
    n.type == .merge && (n.merge.map fun m => m.choice == choiceID).getD false
  match merge? with
  | none => []
  | some mergeNode =>
    match mergeNode.merge with
    | none => []
    | some merge =>
      merge.branches.foldl
        (fun acc b =>
          let inside := (wf.nodes.map WorkflowNode.id).filter fun n =>
            n != choiceID && n != mergeNode.id && ancestors.contains (n, choiceID)
              && (n == b.terminal || ancestors.contains (b.terminal, n))
          setKey acc b.branch inside)
        []

end Deadbolt.Execution

import Deadbolt.Contracts.Mapping
import Deadbolt.Contracts.Outline
import Deadbolt.Contracts.Schema

/-!
# Validation of tasks, workflows and deployments

`internal/contracts/validator.go`. A manifest is decoded JSON and a validator returns the code of
`contracts.Error` it fails with. Go iterates maps in any order; here the loops run in the order of
the manifest, which only decides between several codes of one rejected manifest.
-/

namespace Deadbolt.Contracts

open Base Base.Fallible

variable [Literals]

/-! ### Tasks -/

/-- `ValidateTask`, `validator.go:8-29`. -/
def validateTask (task : Json) : Except ContractError Unit := do
  require (task.check 0) .invalidJSON
  require (Schema.task task) .invalidTask
  validateSchema (task.field "inputSchema")
  validateSchema (task.field "outputSchema")
  let retry := task.field "retry"
  require ((retry.field "initialDelayMs").number 1000 ≤ (retry.field "maxDelayMs").number 30000)
    .invalidTask
  require (Json.text (task.get? "recovery") = "idempotent" →
    5000 + (task.field "timeoutMs").number 300000 ≤ (task.field "idempotencyWindowMs").number 0)
    .invalidTask

def setMember (members : List (String × Json)) (key : String) (v : Json) :
    List (String × Json) :=
  members.filter (fun m => m.1 != key) ++ [(key, v)]

/-- A Go map copied over another one: the members written last are found. -/
def overlay (members defaults : List (String × Json)) : List (String × Json) :=
  members ++ defaults.filter fun d => (members.lookup d.1).isNone

/-- The defaults of a retry policy, overwritten by the members the task has. -/
def normalizeRetry (retry : Json) : Json :=
  .obj (overlay retry.members
    [("maxAttempts", .num 3), ("initialDelayMs", .num 1000), ("maxDelayMs", .num 30000)])

/-- `NormalizeTask`, `validator.go:30-48`. -/
def normalizeTask (task : Json) : Except ContractError Json := do
  require (task.check 0) .invalidJSON
  validateTask task
  let out := setMember task.members "timeoutMs" (.num ((task.field "timeoutMs").number 300000))
  return .obj (setMember out "retry" (normalizeRetry (task.field "retry")))

/-! ### Guaranteed paths -/

/-- `guaranteed`, `validator.go:49-73`: every value of the schema has the
path. The fuel is the nesting depth of the schema, which `ValidateSchema` has bounded. -/
def guaranteed : Nat → Json → List String → Bool
  | _, _, [] => true
  | 0, _, _ :: _ => false
  | fuel + 1, schema, key :: rest =>
    match schema.field "oneOf" with
    | .arr variants => variants.all fun v => guaranteed fuel v (key :: rest)
    | _ =>
      if Json.text (schema.get? "type") = "object" then
        match (schema.field "properties").get? key with
        | some value => requires schema key && guaranteed fuel value rest
        | none => false
      else if Json.text (schema.get? "type") = "array" then
        match Text.decimal? key.toList with
        | some i =>
          decide ((i : Rat) < (schema.field "minItems").number 0)
            && (schema.field "items").kind != .null && guaranteed fuel (schema.field "items") rest
        | none => false
      else false

/-! ### Choice conditions -/

def allowsReference (allowed : List String) (ref : List (String × Json)) : Bool :=
  Json.text (ref.lookup "$ref") != "step.output"
    || allowed.contains (Json.text (ref.lookup "stepId"))

/-- `checkArg`, `validator.go:119-138`: an operand that is a reference names
an allowed node; a mapping around references is not looked into. -/
def checkOperand (allowed : List String) : Json → Bool
  | .obj members =>
    if (members.lookup "$ref").isSome then
      (reference members).isOk && allowsReference allowed members
    else if (members.lookup "literal").isSome then members.length == 1
    else true
  | _ => true

/-- `ValidateChoiceExpression`, `validator.go:74-146`. Every rejection has the
code `INVALID_EXPRESSION`; the fuel is the nesting depth, which `checkJSON` has bounded. -/
def choiceExpression (allowed : List String) : Nat → Json → Bool
  | 0, _ => false
  | fuel + 1, expr =>
    match expr, expr.field "args" with
    | .obj members, .arr args =>
      let op := Json.text (members.lookup "op")
      if members.length ≠ 2 then false
      else if op = "not" then
        match args with
        | [a] => choiceExpression allowed fuel a
        | _ => false
      else if op = "and" ∨ op = "or" then
        !args.isEmpty && args.all (choiceExpression allowed fuel)
      else if op = "exists" then
        match args with
        | [.obj ref] => (reference ref).isOk && allowsReference allowed ref
        | _ => false
      else if comparisons.contains op then
        match args with
        | [x, y] => checkOperand allowed x && checkOperand allowed y
        | _ => false
      else false
    | _, _ => false

/-- `ValidateChoiceExpression` of a condition inside a checked manifest. -/
def validateChoiceExpression (expr : Json) (allowed : List String) :
    Except ContractError Unit :=
  require (choiceExpression allowed (maxDepth + 1) expr) .invalidExpression

/-! ### Nodes -/

def nodeID (n : Json) : String := Json.text (n.get? "id")

def nodeType (n : Json) : String := Json.text (n.get? "type")

/-- `ApprovalDecisionCapability`, `approval.go:12`. -/
def approvalDecisionCapability : String := "approvals:decide"

def maxDelay : Rat := 30 * 24 * 60 * 60 * 1000

/-- `expiresInMs` of an approval, `validator.go:223-228`. -/
def expiryValid : Json → Bool
  | .null => true
  | .num ms => decide (0 < ms)
  | _ => false

/-- The configuration of an approval, `validator.go:212-233`. -/
def checkApproval (cfg : Json) : Except ContractError Unit := do
  require (cfg.members ≠ []) .invalidManifest
  let perm := Json.text (cfg.get? "requiredPermission")
  require (perm = "" ∨ perm = approvalDecisionCapability) .invalidManifest
  require (expiryValid (cfg.field "expiresInMs")) .invalidManifest
  match cfg.field "outputSchema" with
  | .null => pure ()
  | schema => validateSchema schema

/-- `delayMs` of a delay node, `validator.go:235-240`. -/
def delayValid : Json → Bool
  | .num ms => decide (1 ≤ ms) && decide (ms ≤ maxDelay) && ms.den == 1
  | _ => false

/-- One node by itself, `validator.go:194-240`. -/
def checkNode (tasks : List (String × Json)) (n : Json) : Except ContractError Unit :=
  match nodeType n with
  | "task" => require (tasks.lookup (Json.text (n.get? "task"))).isSome .missingTaskRef
  | "approval" => checkApproval (n.field "approval")
  | "delay" => require (delayValid (n.field "delayMs")) .invalidDelay
  | "choice" | "merge" => pure ()
  | _ => throw .unsupportedCapability

/-- The tasks by name, `validator.go:174-185`. -/
def checkTasks (definitions : List Json) : Except ContractError (List (String × Json)) :=
  definitions.foldlM (fun tasks t => do
    validateTask t
    let name := Json.text (t.get? "name")
    require (tasks.lookup name).isNone .invalidTask
    return tasks ++ [(name, t)]) []

/-- The node loop, `validator.go:186-241`; the ids it has seen. -/
def checkNodes (tasks : List (String × Json)) (nodes : List Json) :
    Except ContractError (List String) :=
  nodes.foldlM (fun seen n => do
    require (nodeID n ∉ seen) .duplicateNodeID
    checkNode tasks n
    return seen ++ [nodeID n]) []

/-! ### The outline -/

def texts (v : Json) : List String := v.items.map fun d => Json.text (some d)

/-- `str(c["default"])` as the last name, when there is one. -/
def defaultNames (choice : Json) : List String :=
  if Json.text (choice.get? "default") = "" then [] else [Json.text (choice.get? "default")]

def choiceOutline (n : Json) : ChoiceOutline :=
  { id := nodeID n
    names := ((n.field "choice").field "branches").items.map (fun b => Json.text (b.get? "name"))
      ++ defaultNames (n.field "choice") }

def mergeOutline (n : Json) : MergeOutline :=
  { id := nodeID n, choice := Json.text ((n.field "merge").get? "choice")
    branches := ((n.field "merge").field "branches").items.map fun b =>
      (Json.text (b.get? "branch"), Json.text (b.get? "terminal")) }

def outline (nodes : List Json) : Outline :=
  { nodes := nodes.map fun n => (nodeID n, texts (n.field "after"))
    choices := (nodes.filter fun n => nodeType n == "choice").map choiceOutline
    merges := (nodes.filter fun n => nodeType n == "merge").map mergeOutline }

/-! ### Choices and merges -/

/-- One branch of a choice, `validator.go:318-341`: the names so far and how
many branches had no condition. -/
def checkChoiceBranch (allowed : List String) (default : String) (acc : List String × Nat)
    (b : Json) : Except ContractError (List String × Nat) := do
  let name := Json.text (b.get? "name")
  require (b.kind = .object ∧ name ≠ "" ∧ name ∉ acc.1) .invalidChoice
  match b.field "condition" with
  | .null => do
    require (name = default) .invalidChoice
    return (name :: acc.1, acc.2 + 1)
  | cond => do
    validateChoiceExpression cond allowed
    return (name :: acc.1, acc.2)

/-- One choice, `validator.go:306-353`. -/
def checkChoiceNode (o : Outline) (n : Json) : Except ContractError Unit := do
  let c := n.field "choice"
  require (c.kind = .object) .invalidManifest
  let branches := (c.field "branches").items
  let default := Json.text (c.get? "default")
  require (branches ≠ [] ∧ (2 ≤ branches.length ∨ default ≠ "")) .invalidChoice
  let seen ← branches.foldlM (checkChoiceBranch (o.ancestors (nodeID n)) default) ([], 0)
  require (default = "" ∨ default ∈ seen.1) .invalidChoice
  require (seen.2 ≤ 1) .invalidChoice

/-- One merge, `validator.go:355-414`. -/
def checkMergeNode (o : Outline) (n : Json) : Except ContractError Unit := do
  let mrg := n.field "merge"
  require (mrg.kind = .object) .invalidManifest
  require (∀ b ∈ (mrg.field "branches").items, b.kind = .object) .invalidMerge
  o.checkMerge (mergeOutline n)
  require ((mrg.field "outputSchema").kind ≠ .null) .invalidMerge
  validateSchema (mrg.field "outputSchema")

/-! ### Mappings -/

/-- The schema of a choice's output, `validator.go:638-645`. -/
def choiceOutputSchema : Json :=
  .obj [("type", .str "object"),
    ("properties", .obj [("selected", .obj [("type", .str "string")]),
      ("branch", .obj [("type", .str "string")])]),
    ("required", .arr [.str "selected", .str "branch"])]

/-- The schema of the output of a merge without one, `validator.go:628-635`. -/
def mergeOutputSchema : Json :=
  .obj [("type", .str "object"),
    ("properties", .obj [("branch", .obj [("type", .str "string")]), ("value", .obj [])]),
    ("required", .arr [.str "branch", .str "value"])]

/-- The schema of the output of an approval without one,
`validator.go:655-660`. -/
def approvalOutputSchema : Json :=
  .obj [("type", .str "object"), ("properties", .obj []), ("required", .arr []),
    ("additionalProperties", .bool true)]

def declaredOr (schema default : Json) : Json :=
  match schema with
  | .null => default
  | s => s

/-- The schema of a node's output, `validator.go:623-664`. -/
def outputSource (tasks : List (String × Json)) (n : Json) : Json :=
  match nodeType n with
  | "merge" => declaredOr ((n.field "merge").field "outputSchema") mergeOutputSchema
  | "choice" => choiceOutputSchema
  | "approval" => declaredOr ((n.field "approval").field "outputSchema") approvalOutputSchema
  | _ => ((tasks.lookup (Json.text (n.get? "task"))).getD .null).field "outputSchema"

/-- The tables a mapping is checked against: the run's input schema, the nodes and the tasks. -/
structure Scope where
  inputSchema : Json
  nodes : List Json
  tasks : List (String × Json)

def Scope.node (s : Scope) (id : String) : Json :=
  (s.nodes.find? fun n => nodeID n == id).getD .null

/-- The reference case of `mapping`, `validator.go:613-675`: the nodes it
reads. -/
def checkReference (s : Scope) (allowed : List String) (v : List (String × Json)) :
    Except ContractError (List String) := do
  reference v
  let step : Bool := Json.text (v.lookup "$ref") = "step.output"
  let id := Json.text (v.lookup "stepId")
  require (step → id ∈ allowed) .inputMappingError
  let source := if step then outputSource s.tasks (s.node id) else s.inputSchema
  let parts ← pointerParts (v.lookup "pointer")
  require (guaranteed (maxDepth + 1) source parts ∨ (v.lookup "default").isSome)
    .inputMappingError
  return if step then [id] else []

mutual

/-- The `mapping` closure, `validator.go:598-683`, with the nodes read. -/
def checkMapping (s : Scope) (allowed : List String) : Json → Except ContractError (List String)
  | .arr items => checkMappingItems s allowed items
  | .obj members =>
    match members.lookup "literal" with
    | some _ => if members.length = 1 then return [] else throw .inputMappingError
    | none =>
      match members.lookup "$ref" with
      | some _ => checkReference s allowed members
      | none => checkMappingMembers s allowed members
  | _ => return []
termination_by structural v => v

def checkMappingItems (s : Scope) (allowed : List String) :
    List Json → Except ContractError (List String)
  | [] => return []
  | item :: rest =>
    return (← checkMapping s allowed item) ++ (← checkMappingItems s allowed rest)
termination_by structural items => items

def checkMappingMembers (s : Scope) (allowed : List String) :
    List (String × Json) → Except ContractError (List String)
  | [] => return []
  | member :: rest =>
    return (← checkMappingMember s allowed member) ++ (← checkMappingMembers s allowed rest)
termination_by structural members => members

def checkMappingMember (s : Scope) (allowed : List String) :
    String × Json → Except ContractError (List String)
  | (_, item) => checkMapping s allowed item
termination_by structural member => member

end

/-- The values of the branches of a merge, `validator.go:696-723`. -/
def checkMergeValues (s : Scope) (o : Outline) (n : Json) : Except ContractError Unit :=
  ((n.field "merge").field "branches").items.forM fun b => do
    let _ ← checkMapping s (o.branchAllowed (mergeOutline n) (Json.text (b.get? "branch")))
      (b.field "value")

/-- The mappings of one node, `validator.go:690-724`. -/
def checkNodeMappings (s : Scope) (o : Outline) (n : Json) : Except ContractError Unit := do
  let _ ← checkMapping s (o.allowed (nodeID n)) (n.field "input")
  if nodeType n = "merge" then checkMergeValues s o n else pure ()

/-- A node nothing depends on is used by the output or has a side effect,
`validator.go:739-751`. -/
def checkLeaf (o : Outline) (used : List String) (n : Json) : Except ContractError Unit :=
  require ((∃ w ∈ o.nodes, nodeID n ∈ w.2) ∨ nodeID n ∈ used ∨
    (n.field "sideEffect").same (.bool true)) .orphanLeaf

/-! ### Workflows and deployments -/

/-- The analysis of the nodes, `validator.go:242-752`. -/
def checkGraph (s : Scope) (output : Json) : Except ContractError Unit := do
  let o := outline s.nodes
  o.checkDependencies
  o.checkAcyclic
  (s.nodes.filter fun n => nodeType n == "choice").forM (checkChoiceNode o)
  (s.nodes.filter fun n => nodeType n == "merge").forM (checkMergeNode o)
  o.checkStructure
  s.nodes.forM (checkNodeMappings s o)
  let used ← checkMapping s o.outputAllowed output
  s.nodes.forM (checkLeaf o used)

/-- `ValidateWorkflow`, `validator.go:148-753`. -/
def validateWorkflow (manifest : Json) (definitions : List Json) : Except ContractError Unit := do
  require (manifest.check 0) .invalidJSON
  require (manifest.kind = .object) .invalidManifest
  require (Schema.const 1 (manifest.field "manifestVersion")) .unsupportedManifestVersion
  let nodes := (manifest.field "nodes").items
  require (nodes ≠ []) .emptyNodes
  require (nodes.length ≤ 50) .nodeCountExceeded
  require (Schema.workflow manifest) .invalidManifest
  validateSchema (manifest.field "inputSchema")
  validateSchema (manifest.field "outputSchema")
  let tasks ← checkTasks definitions
  let _ ← checkNodes tasks nodes
  checkGraph { inputSchema := manifest.field "inputSchema", nodes, tasks }
    (manifest.field "output")

/-- `ValidateDeployment`, `validator.go:754-774`. -/
def validateDeployment (v : Json) : Except ContractError Unit := do
  require (v.check 0) .invalidJSON
  require (Schema.deployment v) .invalidManifest
  let _ ← (v.field "workflows").items.foldlM (fun names w => do
    let name := Json.text (w.get? "name")
    require (name ∉ names) .invalidManifest
    validateWorkflow w (v.field "tasks").items
    return names ++ [name]) []

end Deadbolt.Contracts

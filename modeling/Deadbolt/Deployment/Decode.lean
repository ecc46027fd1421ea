import Deadbolt.Contracts.Validator
import Deadbolt.Execution.Manifest

/-!
# Decoding a stored manifest

`json.Unmarshal` of the manifest column into `deploymentManifest`,
`internal/execution/worker_engine.go:88-160`. An absent or null member leaves the zero value of
its field; a member of another type is an error, and then the engine reads no manifest at all.
Keys are matched exactly: in a closed object no key differs from a field's only in case.
-/

namespace Deadbolt.Deployment

open Contracts Execution

/-! ### Fields -/

def decodeInt : Json → Option Int
  | .null => some 0
  | .num n => if n.den = 1 ∧ -maxInt64 - 1 ≤ n.num ∧ n.num ≤ maxInt64 then some n.num else none
  | _ => none

def decodeString : Json → Option String
  | .null => some ""
  | .str s => some s
  | _ => none

/-- An `any` field; nil is none. -/
def decodeAny : Json → Option Json
  | .null => none
  | v => some v

def decodeList {α : Type} (f : Json → Option α) : Json → Option (List α)
  | .null => some []
  | .arr items => items.mapM f
  | _ => none

def decodePointer {α : Type} (f : Json → Option α) : Json → Option (Option α)
  | .null => some none
  | v => (f v).map some

/-- A struct: an object, or a null that leaves it zero. -/
def decodeStruct : Json → Option Json
  | .null => some (.obj [])
  | .obj members => some (.obj members)
  | _ => none

/-! ### Records -/

def decodeTask (v : Json) : Option TaskManifest := do
  let t ← decodeStruct v
  let retry ← decodeStruct (t.field "retry")
  return { name := ← decodeString (t.field "name")
           entrypoint := ← decodeString (t.field "entrypoint")
           recovery := ← decodeString (t.field "recovery")
           timeoutMs := ← decodeInt (t.field "timeoutMs")
           inputSchema := decodeAny (t.field "inputSchema")
           outputSchema := decodeAny (t.field "outputSchema")
           idempotencyWindowMs := ← decodePointer decodeInt (t.field "idempotencyWindowMs")
           maxAttempts := ← decodeInt (retry.field "maxAttempts")
           initialDelayMs := ← decodeInt (retry.field "initialDelayMs")
           maxDelayMs := ← decodeInt (retry.field "maxDelayMs") }

/-- `choiceBranch`. -/
def decodeChoiceBranch (v : Json) : Option ChoiceBranch := do
  let b ← decodeStruct v
  return { name := ← decodeString (b.field "name"), condition := decodeAny (b.field "condition") }

/-- `choiceConfig`. -/
def decodeChoice (v : Json) : Option ChoiceConfig := do
  let c ← decodeStruct v
  return { branches := ← decodeList decodeChoiceBranch (c.field "branches")
           default := ← decodeString (c.field "default") }

/-- `mergeBranch`. -/
def decodeMergeBranch (v : Json) : Option MergeBranch := do
  let b ← decodeStruct v
  return { branch := ← decodeString (b.field "branch")
           terminal := ← decodeString (b.field "terminal"), value := decodeAny (b.field "value") }

/-- `mergeConfig`. -/
def decodeMerge (v : Json) : Option MergeConfig := do
  let m ← decodeStruct v
  return { choice := ← decodeString (m.field "choice")
           branches := ← decodeList decodeMergeBranch (m.field "branches")
           outputSchema := decodeAny (m.field "outputSchema") }

/-- `approvalNodeConfig`. -/
def decodeApproval (v : Json) : Option ApprovalNodeConfig := do
  let a ← decodeStruct v
  return { payload := decodeAny (a.field "payload"), outputSchema := decodeAny (a.field "outputSchema")
           requiredPermission := ← decodeString (a.field "requiredPermission")
           expiresInMs := ← decodeInt (a.field "expiresInMs") }

/-- The type of a node; the validator admits no other text. -/
def decodeType : String → Option NodeType
  | "" | "task" => some .task
  | "approval" => some .approval
  | "delay" => some .delay
  | "choice" => some .choice
  | "merge" => some .merge
  | _ => none

/-- `workflowNode`. -/
def decodeNode (v : Json) : Option WorkflowNode := do
  let n ← decodeStruct v
  return { id := ← decodeString (n.field "id")
           type := ← (decodeString (n.field "type")).bind decodeType
           task := ← decodeString (n.field "task")
           after := ← decodeList decodeString (n.field "after")
           input := decodeAny (n.field "input")
           delayMs := ← decodePointer decodeInt (n.field "delayMs")
           choice := ← decodePointer decodeChoice (n.field "choice")
           merge := ← decodePointer decodeMerge (n.field "merge")
           approval := ← decodePointer decodeApproval (n.field "approval") }

/-- `workflowManifest`. -/
def decodeWorkflow (v : Json) : Option WorkflowManifest := do
  let w ← decodeStruct v
  return { name := ← decodeString (w.field "name"), inputSchema := decodeAny (w.field "inputSchema")
           outputSchema := decodeAny (w.field "outputSchema")
           nodes := ← decodeList decodeNode (w.field "nodes"), output := decodeAny (w.field "output") }

/-- `deploymentManifest`. -/
def decodeDeployment (v : Json) : Option DeploymentManifest := do
  let d ← decodeStruct v
  return { tasks := ← decodeList decodeTask (d.field "tasks")
           workflows := ← decodeList decodeWorkflow (d.field "workflows") }

end Deadbolt.Deployment

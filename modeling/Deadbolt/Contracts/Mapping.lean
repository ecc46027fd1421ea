import Deadbolt.Base.Text
import Deadbolt.Contracts.Canonical

/-!
# Pointers, input mappings and choice expressions

`internal/contracts/mapping.go`. A mapping is JSON with references into the run input
or a step output; a choice expression is JSON over such references. Evaluation fails
with the code of `contracts.Error`.
-/

namespace Deadbolt.Contracts

open Base

abbrev Outputs := List (String × Json)

/-- `pointerPattern`, `mapping.go:9`: text that starts with `/`, in
which every `~` is followed by `0` or `1`. -/
def pointerEscapes : List Char → Bool
  | [] => true
  | '~' :: '0' :: rest => pointerEscapes rest
  | '~' :: '1' :: rest => pointerEscapes rest
  | '~' :: _ => false
  | _ :: rest => pointerEscapes rest

/-- `PointerParts`, `mapping.go:12-25`. -/
def pointerParts (pointer : Option Json) : Except ContractError (List String) :=
  match pointer with
  | some (.str s) =>
    match s.toList with
    | [] => .ok []
    | '/' :: rest =>
      if pointerEscapes rest then
        .ok ((Text.split '/' rest).map fun part =>
          String.ofList (Text.replacePair '~' '0' '~' (Text.replacePair '~' '1' '/' part)))
      else .error .inputMappingError
    | _ => .error .inputMappingError
  | _ => .error .inputMappingError

/-- The walk of `Lookup` along the parts of a pointer, `mapping.go:31-52`. -/
def lookupParts : Json → List String → Option Json
  | value, [] => some value
  | .obj members, key :: rest =>
    match members.lookup key with
    | some v => lookupParts v rest
    | none => none
  | .arr items, key :: rest =>
    match Text.decimal? key.toList with
    | some i =>
      match items[i]? with
      | some v => lookupParts v rest
      | none => none
    | none => none
  | _, _ :: _ => none

/-- `Lookup`, `mapping.go:26-54`. -/
def lookup (value : Json) (pointer : Option Json) : Except ContractError (Option Json) := do
  let parts ← pointerParts pointer
  return lookupParts value parts

/-- `Reference`, `mapping.go:55-73`: the shape of a reference. -/
def reference (v : List (String × Json)) : Except ContractError Unit := do
  let ref := Json.text (v.lookup "$ref")
  if ref ≠ "run.input" ∧ ref ≠ "step.output" then throw .inputMappingError
  if v.any fun m => m.1 != "$ref" && m.1 != "pointer" && m.1 != "default"
      && !(m.1 == "stepId" && ref == "step.output") then
    throw .inputMappingError
  if ref = "step.output" then
    match v.lookup "stepId" with
    | some (.str _) => pure ()
    | _ => throw .inputMappingError
  let _ ← pointerParts (v.lookup "pointer")

/-- The reference case of `MapInput`, `mapping.go:103-126`. -/
def mapReference (v : List (String × Json)) (input : Json) (outputs : Outputs) :
    Except ContractError Json := do
  reference v
  let source :=
    if Json.text (v.lookup "$ref") = "step.output" then
      outputs.lookup (Json.text (v.lookup "stepId"))
    else some input
  let found ←
    match source with
    | some s => lookup s (v.lookup "pointer")
    | none => pure none
  match found with
  | some value => return value
  | none =>
    match v.lookup "default" with
    | some value => return value
    | none => throw .inputMappingError

mutual

/-- The walk of `MapInput`, `mapping.go:80-142`. -/
def mapWalk (input : Json) (outputs : Outputs) : Json → Except ContractError Json
  | .arr items => return .arr (← mapItems input outputs items)
  | .obj members =>
    match members.lookup "literal" with
    | some literal =>
      if members.length = 1 then return literal else throw .inputMappingError
    | none =>
      match members.lookup "$ref" with
      | some _ => mapReference members input outputs
      | none => return .obj (← mapMembers input outputs members)
  | v => return v
termination_by structural v => v

def mapItems (input : Json) (outputs : Outputs) : List Json → Except ContractError (List Json)
  | [] => return []
  | item :: rest => return (← mapWalk input outputs item) :: (← mapItems input outputs rest)
termination_by structural items => items

def mapMembers (input : Json) (outputs : Outputs) :
    List (String × Json) → Except ContractError (List (String × Json))
  | [] => return []
  | member :: rest =>
    return (← mapMember input outputs member) :: (← mapMembers input outputs rest)
termination_by structural members => members

def mapMember (input : Json) (outputs : Outputs) :
    String × Json → Except ContractError (String × Json)
  | (key, item) => return (key, ← mapWalk input outputs item)
termination_by structural member => member

end

/-- `MapInput`, `mapping.go:74-144`. -/
def mapInput (mapping input : Json) (outputs : Outputs) : Except ContractError Json :=
  if mapping.check 0 && input.check 0 && (Json.obj outputs).check 0 then
    mapWalk input outputs mapping
  else .error .invalidJSON

/-- The `equal` closure of `EvaluateChoice`, `mapping.go:197-233`: values of
different kinds are an error, not unequal. -/
def choiceEqual : Json → Json → Except ContractError Bool
  | .null, .null => .ok true
  | .str a, .str b => .ok (a == b)
  | .bool a, .bool b => .ok (a == b)
  | .num a, .num b => .ok (a == b)
  | .arr xs, .arr ys => .ok ((Json.arr xs).canonicalEq (.arr ys))
  | .obj xs, .obj ys => .ok ((Json.obj xs).canonicalEq (.obj ys))
  | _, _ => .error .invalidExpression

/-- The comparison operators on mapped operands, `mapping.go:234-274`. -/
def compareOperands (op : String) (a b : Json) : Except ContractError Bool :=
  if op = "in" then
    match b with
    | .arr items =>
      items.foldlM (fun result x => do
        let eq ← choiceEqual a x
        return result || eq) false
    | _ => .error .invalidExpression
  else if op = "eq" then choiceEqual a b
  else if op = "neq" then (!·) <$> choiceEqual a b
  else
    match a, b with
    | .num x, .num y =>
      if op = "gt" then .ok (decide (y < x))
      else if op = "gte" then .ok (decide (y ≤ x))
      else if op = "lt" then .ok (decide (x < y))
      else .ok (decide (x ≤ y))
    | _, _ => .error .invalidExpression

/-- The connectives fold every argument; no argument is skipped. -/
def connective (op : String) (acc b : Bool) : Bool :=
  if op = "not" then !b else if op = "and" then acc && b else acc || b

def comparisons : List String := ["eq", "neq", "gt", "gte", "lt", "lte", "in"]

/-- The walk of `EvaluateChoice`, `mapping.go:149-276`. The fuel is the
nesting depth, which `checkJSON` has bounded before the walk starts. -/
def choiceWalk (input : Json) (outputs : Outputs) : Nat → Json → Except ContractError Bool
  | 0, _ => .error .invalidExpression
  | fuel + 1, e =>
    match e.get? "args" with
    | some (.arr args) =>
      let op := Json.text (e.get? "op")
      if e.members.length ≠ 2 then .error .invalidExpression
      else if op = "and" ∨ op = "or" ∨ op = "not" then
        if (op = "not" ∧ args.length ≠ 1) ∨ args = [] then .error .invalidExpression
        else args.foldlM (fun acc a => do
          let b ← choiceWalk input outputs fuel a
          return connective op acc b) (op = "and")
      else if op = "exists" then
        match args with
        | [ref] =>
          match reference ref.members with
          | .error err => .error err
          | .ok () =>
            match mapInput (.obj ref.members) input outputs with
            | .ok _ => .ok true
            | .error .inputMappingError => .ok false
            | .error err => .error err
        | _ => .error .invalidExpression
      else
        match args with
        | [x, y] =>
          if op ∈ comparisons then do
            let a ← mapInput x input outputs
            let b ← mapInput y input outputs
            compareOperands op a b
          else .error .invalidExpression
        | _ => .error .invalidExpression
    | _ => .error .invalidExpression

/-- `EvaluateChoice`, `mapping.go:145-278`. -/
def evaluateChoice (expression input : Json) (outputs : Outputs) : Except ContractError Bool :=
  if expression.check 0 then choiceWalk input outputs (maxDepth + 1) expression
  else .error .invalidJSON

end Deadbolt.Contracts

import Deadbolt.Contracts.Mapped

/-!
# Mappings and choice expressions of the TypeScript SDK

`sdk/typescript/src/mapping.ts` with `assertJSON` of `json.ts` and `canonicalize` of
`canonical.ts`, on JSON values. The SDK's interpreters are written apart from the engine's
(`Contracts.mapInput`, `Contracts.evaluateChoice`); an own property of an array is an index below
its length, or `length`.
-/

namespace Deadbolt.Sdk

open Base Contracts

/-! ### Values -/

def isSafeInteger (n : Rat) : Bool :=
  n.den == 1 && decide (-maxSafeInteger ≤ n) && decide (n ≤ maxSafeInteger)

mutual

/-- `assertJSON`, `json.ts:29-70`, of a JSON value. -/
def assertJSON : Json → Nat → Bool
  | .num n, _ => !(n.den == 1 && !isSafeInteger n)
  | .arr items, depth => decide (depth + 1 ≤ 32) && assertItems items (depth + 1)
  | .obj members, depth => decide (depth + 1 ≤ 32) && assertMembers members (depth + 1)
  | _, _ => true
termination_by structural v => v

def assertItems : List Json → Nat → Bool
  | [], _ => true
  | item :: rest, depth => assertJSON item depth && assertItems rest depth
termination_by structural items => items

def assertMembers : List (String × Json) → Nat → Bool
  | [], _ => true
  | member :: rest, depth => assertMember member depth && assertMembers rest depth
termination_by structural members => members

def assertMember : String × Json → Nat → Bool
  | (_, item), depth => assertJSON item depth
termination_by structural member => member

end

/-- `canonicalize`, `canonical.ts:4-7`. -/
def canonicalize (v : Json) : Except ContractError (List Symbol) :=
  if assertJSON v 0 then .ok v.normalize.serialize else .error .invalidJSON

/-- `object`, `schema.ts:5-9`. -/
def object : Json → Except ContractError (List (String × Json))
  | .obj members => .ok members
  | _ => .error .invalidManifest

/-! ### Pointers and references -/

/-- The pattern of line 8: a tilde that neither `0` nor `1` follows. -/
def strayTilde : List Char → Bool
  | [] => false
  | c :: rest =>
    (c == '~' && rest.head? != some '0' && rest.head? != some '1') || strayTilde rest

/-- `pointerParts`, `mapping.ts:4-17`. -/
def pointerParts : Option Json → Except ContractError (List String)
  | some (.str pointer) =>
    if (pointer ≠ "" ∧ pointer.toList.head? ≠ some '/') ∨ strayTilde pointer.toList = true then
      .error .inputMappingError
    else if pointer = "" then .ok []
    else .ok ((Text.split '/' pointer.toList.tail).map fun part =>
      String.ofList (Text.replacePair '~' '0' '~' (Text.replacePair '~' '1' '/' part)))
  | _ => .error .inputMappingError

/-- `Object.hasOwn`. -/
def hasOwn : Json → String → Bool
  | .obj members, key => (members.lookup key).isSome
  | .arr items, key =>
    key == "length" || (Text.decimal? key.toList).any fun i => decide (i < items.length)
  | _, _ => false

def property? : Json → String → Option Json
  | .obj members, key => members.lookup key
  | .arr items, key => (Text.decimal? key.toList).bind fun i => items[i]?
  | _, _ => none

/-- The loop of `lookup`, `mapping.ts:18-37`. -/
def lookupParts : Json → List String → Option Json
  | current, [] => some current
  | current, key :: rest =>
    if !hasOwn current key then none
    else if current.kind = .array ∧ Text.decimal? key.toList = none then none
    else (property? current key).bind fun v => lookupParts v rest

def lookup (value : Json) (pointer : Option Json) : Except ContractError (Option Json) := do
  let parts ← pointerParts pointer
  return lookupParts value parts

/-- A value of type `string`. -/
def string? : Option Json → Option String
  | some (.str s) => some s
  | _ => none

/-- A value for which `Array.isArray` holds. -/
def array? : Option Json → Option (List Json)
  | some (.arr items) => some items
  | _ => none

def allowedKeys (ref : String) : List String :=
  ["$ref", "pointer", "default"] ++ if ref = "step.output" then ["stepId"] else []

/-- `reference`, `mapping.ts:39-54`. -/
def reference (v : List (String × Json)) : Except ContractError Unit :=
  match string? (v.lookup "$ref") with
  | none => .error .inputMappingError
  | some ref =>
    if ref ≠ "run.input" ∧ ref ≠ "step.output" then .error .inputMappingError
    else
      if (v.any fun m => !(allowedKeys ref).contains m.1) ||
          (ref == "step.output" && (string? (v.lookup "stepId")).isNone) then
        .error .inputMappingError
      else do
        let _ ← pointerParts (v.lookup "pointer")

/-! ### Mappings -/

/-- The reference case of `mapInput`, `mapping.ts:70-83`. -/
def mapReference (v : List (String × Json)) (input : Json) (outputs : Outputs) :
    Except ContractError Json := do
  reference v
  let source :=
    if Json.text (v.lookup "$ref") = "run.input" then some input
    else outputs.lookup (Json.text (v.lookup "stepId"))
  let result ←
    match source with
    | none => pure none
    | some source => lookup source (v.lookup "pointer")
  match result, v.lookup "default" with
  | some value, _ => return value
  | none, some value => return value
  | none, none => throw .inputMappingError

mutual

/-- The walk of `mapInput`, `mapping.ts:63-86`. -/
def mapWalk (input : Json) (outputs : Outputs) : Json → Except ContractError Json
  | .arr items => return .arr (← mapItems input outputs items)
  | .obj members =>
    match members.lookup "literal" with
    | some literal =>
      if members.length ≠ 1 then throw .inputMappingError else return literal
    | none =>
      if (members.lookup "$ref").isSome then mapReference members input outputs
      else return .obj (← mapMembers input outputs members)
  | v => return v
termination_by structural v => v

def mapItems (input : Json) (outputs : Outputs) : List Json → Except ContractError (List Json)
  | [] => return []
  | item :: rest => return (← mapWalk input outputs item) :: (← mapItems input outputs rest)
termination_by structural items => items

def mapMembers (input : Json) (outputs : Outputs) :
    List (String × Json) → Except ContractError (List (String × Json))
  | [] => return []
  | member :: rest =>
    return (← mapMember input outputs member) :: (← mapMembers input outputs rest)
termination_by structural members => members

def mapMember (input : Json) (outputs : Outputs) :
    String × Json → Except ContractError (String × Json)
  | (key, item) => return (key, ← mapWalk input outputs item)
termination_by structural member => member

end

/-- `mapInput`, `mapping.ts:55-87`. -/
def mapInput (mapping input : Json) (outputs : Outputs) : Except ContractError Json :=
  if !assertJSON mapping 0 then .error .invalidJSON
  else if !assertJSON input 0 then .error .invalidJSON
  else if !assertJSON (.obj outputs) 0 then .error .invalidJSON
  else mapWalk input outputs mapping

/-! ### Choice expressions -/

/-- The `equal` closure, `mapping.ts:145-148`. -/
def equal (x y : Json) : Except ContractError Bool := do
  if x.kind ≠ y.kind then throw .invalidExpression
  let left ← canonicalize x
  let right ← canonicalize y
  return left == right

/-- The comparison of two mapped operands, `mapping.ts:149-166`. -/
def compare (op : String) (a b : Json) : Except ContractError Bool :=
  if op = "in" then
    match b with
    | .arr items => do
      let values ← items.mapM (equal a)
      return values.any id
    | _ => .error .invalidExpression
  else if op = "eq" ∨ op = "neq" then do
    let eq ← equal a b
    return if op = "eq" then eq else !eq
  else
    match a, b with
    | .num x, .num y =>
      .ok (if op = "gt" then decide (x > y)
        else if op = "gte" then decide (x ≥ y)
        else if op = "lt" then decide (x < y)
        else decide (x ≤ y))
    | _, _ => .error .invalidExpression

/-- The walk of `evaluateChoice`, `mapping.ts:95-167`. The fuel is the nesting
depth, which `assertJSON` has bounded before the walk starts. -/
def choiceWalk (input : Json) (outputs : Outputs) : Nat → Json → Except ContractError Bool
  | 0, _ => .error .invalidExpression
  | fuel + 1, .obj v =>
    match string? (v.lookup "op"), array? (v.lookup "args") with
    | some op, some args =>
      if v.length ≠ 2 then .error .invalidExpression
      else if ["and", "or", "not"].contains op then
        if (op = "not" ∧ args.length ≠ 1) ∨ (op ≠ "not" ∧ args.length < 1) then
          .error .invalidExpression
        else do
          let values ← args.mapM (choiceWalk input outputs fuel)
          return if op = "not" then !values.headD false
            else if op = "and" then values.all id
            else values.any id
      else if op = "exists" then
        match args with
        | [arg] => do
          let ref ← object arg
          reference ref
          match mapInput (.obj ref) input outputs with
          | .ok _ => return true
          | .error .inputMappingError => return false
          | .error err => throw err
        | _ => .error .invalidExpression
      else if ["eq", "neq", "gt", "gte", "lt", "lte", "in"].contains op = false then
        .error .invalidExpression
      else
        match args with
        | [x, y] => do
          let a ← mapInput x input outputs
          let b ← mapInput y input outputs
          compare op a b
        | _ => .error .invalidExpression
    | _, _ => .error .invalidExpression
  | _ + 1, _ => .error .invalidExpression

/-- `evaluateChoice`, `mapping.ts:89-169`. -/
def evaluateChoice (expression input : Json) (outputs : Outputs) : Except ContractError Bool :=
  if !assertJSON expression 0 then .error .invalidJSON
  else choiceWalk input outputs 33 expression

end Deadbolt.Sdk

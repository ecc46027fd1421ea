import Deadbolt.Base.Fallible
import Deadbolt.Contracts.Canonical

/-!
# Manifest schemas

The JSON Schemas of `contracts/manifest` and `ValidateSchema` of
`internal/contracts/schema.go:56-116`. A schema is the test it stands for, one combinator a keyword,
so the two schema libraries that read the files agree by construction.
-/

namespace Deadbolt.Contracts

open Base.Fallible

/-- A schema as the test it stands for. -/
abbrev Schema := Json → Bool

namespace Schema

/-! ### Keywords -/

/-- `"type"` of every type but `integer`. -/
def ofType (k : Kind) : Schema := fun v => v.kind == k

/-- `"type": "integer"`: a number without a fraction. -/
def integer : Schema
  | .num n => n.den == 1
  | _ => false

def minimum (least : Rat) : Schema
  | .num n => decide (least ≤ n)
  | _ => true

def maximum (greatest : Rat) : Schema
  | .num n => decide (n ≤ greatest)
  | _ => true

def minLength (least : Nat) : Schema
  | .str s => decide (least ≤ s.length)
  | _ => true

/-- `"pattern"`, with the test of the pattern. -/
def pattern (p : String → Bool) : Schema
  | .str s => p s
  | _ => true

/-- `"enum"` and `"const"` of texts. -/
def enum (texts : List String) : Schema
  | .str s => texts.contains s
  | _ => false

/-- `"const"` of a number. -/
def const (n : Rat) : Schema
  | .num m => m == n
  | _ => false

def properties (ps : List (String × Schema)) : Schema := fun v =>
  ps.all fun p =>
    match v.get? p.1 with
    | some x => p.2 x
    | none => true

def required (keys : List String) : Schema
  | .obj members => keys.all fun k => (members.lookup k).isSome
  | _ => true

/-- `"additionalProperties": false`, beside the declared keys. -/
def closed (keys : List String) : Schema := fun v => v.members.all fun m => keys.contains m.1

def items (s : Schema) : Schema := fun v => v.items.all s

def minItems (least : Nat) : Schema
  | .arr xs => decide (least ≤ xs.length)
  | _ => true

def maxItems (greatest : Nat) : Schema
  | .arr xs => decide (xs.length ≤ greatest)
  | _ => true

def uniqueItems : Schema := fun v => decide (v.items.Pairwise fun a b => a.same b = false)

/-- All schemas of a list: the keywords of one schema object, or `"allOf"`. -/
def allOf (ss : List Schema) : Schema := fun v => ss.all fun s => s v

def ifThen (premise conclusion : Schema) : Schema := fun v => !premise v || conclusion v

/-- `"not"` of `"anyOf"` over single required keys. -/
def absent (keys : List String) : Schema := fun v => keys.all fun k => !required [k] v

def record (ps : List (String × Schema)) (keys : List String) : Schema :=
  allOf [ofType .object, properties ps, required keys, closed (ps.map Prod.fst)]

def integerBetween (least greatest : Rat) : Schema :=
  allOf [integer, minimum least, maximum greatest]

/-! ### Accepted values -/

section

variable {ps : List (String × Schema)} {keys : List String} {v x : Json} {key : String}
  {s : Schema}

theorem allOf_eq_true {ss : List Schema} : allOf ss v = true ↔ ∀ s ∈ ss, s v = true :=
  List.all_eq_true

theorem properties_eq_true : properties ps v = true ↔
    ∀ p ∈ ps, ∀ x, v.get? p.1 = some x → p.2 x = true := by
  simp only [properties, List.all_eq_true]
  refine forall₂_congr fun p _ => ?_
  cases v.get? p.1 <;> simp

theorem record_eq_true : record ps keys v = true ↔ v.kind = .object ∧
    (∀ p ∈ ps, ∀ x, v.get? p.1 = some x → p.2 x = true) ∧
    (∀ k ∈ keys, (v.get? k).isSome = true) ∧ ∀ m ∈ v.members, m.1 ∈ ps.map Prod.fst := by
  simp only [record, allOf_eq_true, List.forall_mem_cons, List.not_mem_nil, false_imp_iff,
    implies_true, and_true, ofType, properties_eq_true, closed, beq_iff_eq, List.all_eq_true,
    List.contains_iff_mem]
  refine and_congr_right fun hkind => ?_
  cases v with
  | obj members => simp only [required, Json.get?, Json.members, List.all_eq_true]
  | _ => simp [Json.kind] at hkind

theorem record_get? (h : record ps keys v = true) (hs : ps.lookup key = some s)
    (hx : v.get? key = some x) : s x = true := by
  obtain ⟨l1, l2, rfl, -⟩ := List.lookup_eq_some_iff.mp hs
  exact (record_eq_true.mp h).2.1 (key, s) (by simp) x hx

theorem record_required (h : record ps keys v = true) (hk : key ∈ keys) :
    ∃ x, v.get? key = some x :=
  Option.isSome_iff_exists.mp ((record_eq_true.mp h).2.2.1 key hk)

theorem record_member (key : String) (h : record ps keys v = true) (hk : key ∈ keys)
    (hs : ps.lookup key = some s) : ∃ x, v.get? key = some x ∧ s x = true :=
  let ⟨x, hx⟩ := record_required h hk
  ⟨x, hx, record_get? h hs hx⟩

theorem integerBetween_eq_true {least greatest : Rat} : integerBetween least greatest v = true ↔
    ∃ i : Int, v = .num i ∧ least ≤ i ∧ (i : Rat) ≤ greatest := by
  simp only [integerBetween, allOf_eq_true, List.forall_mem_cons, List.not_mem_nil, false_imp_iff,
    implies_true, and_true]
  cases v with
  | num n =>
    simp only [integer, minimum, maximum, beq_iff_eq, decide_eq_true_eq, Json.num.injEq]
    constructor
    · rintro ⟨hden, hlo, hhi⟩
      have hn : (n.num : Rat) = n := Rat.coe_int_num_of_den_eq_one hden
      exact ⟨n.num, hn.symm, hn.symm ▸ hlo, hn.symm ▸ hhi⟩
    · rintro ⟨i, rfl, hlo, hhi⟩
      exact ⟨Rat.den_intCast i, hlo, hhi⟩
  | _ => simp [integer]

end

/-! ### Identifiers -/

/-- The character class `[a-zA-Z0-9_-]`. -/
def identifierChar (c : Char) : Bool := c.isAlphanum || c == '_' || c == '-'

/-- `"^[a-zA-Z0-9_-]{1,64}$"` and no character outside the class. -/
def identifierText (s : String) : Bool :=
  decide (1 ≤ s.length) && decide (s.length ≤ 64) && s.toList.all identifierChar

def identifier : Schema := allOf [ofType .string, pattern identifierText]

/-! ### Tasks -/

/-- The properties of a retry policy; the files differ in the least initial delay. -/
def retry (leastInitialDelay : Rat) : Schema :=
  record
    [("maxAttempts", integerBetween 1 10),
     ("initialDelayMs", integerBetween leastInitialDelay maxSafeInteger),
     ("maxDelayMs", integerBetween 0 maxSafeInteger)]
    []

/-- A task; the files differ in the least initial delay and in the required keys. -/
def taskRecord (leastInitialDelay : Rat) (keys : List String) : Schema :=
  allOf
    [record
      [("name", identifier), ("inputSchema", ofType .object), ("outputSchema", ofType .object),
       ("recovery", enum ["safe", "idempotent", "reconcile"]),
       ("retry", retry leastInitialDelay), ("timeoutMs", integerBetween 1 3600000),
       ("idempotencyWindowMs", integerBetween 1 maxSafeInteger),
       ("entrypoint", allOf [ofType .string, minLength 1])]
      keys,
     ifThen (properties [("recovery", enum ["idempotent"])]) (required ["idempotencyWindowMs"])]

/-- `manifest/task.schema.json`. -/
def task : Schema := taskRecord 0 ["name", "inputSchema", "outputSchema", "recovery"]

/-- The tasks of `manifest/deployment.schema.json`. -/
def deploymentTask : Schema :=
  taskRecord 1 ["name", "inputSchema", "outputSchema", "recovery", "entrypoint"]

/-! ### Workflows -/

def choice : Schema :=
  record
    [("branches", allOf [ofType .array, minItems 1,
       items (record [("name", identifier), ("condition", ofType .object)] ["name"])]),
     ("default", identifier)]
    ["branches"]

def merge : Schema :=
  record
    [("choice", identifier),
     ("branches", allOf [ofType .array, minItems 1,
       items (record [("branch", identifier), ("terminal", identifier), ("value", fun _ => true)]
         ["branch", "terminal"])]),
     ("outputSchema", ofType .object)]
    ["choice", "branches", "outputSchema"]

def typedKeys : List String := ["task", "choice", "merge", "approval", "delayMs"]

/-- What a node type asks for: its own key and none of the other types'. -/
def nodeVariant (type key : String) : Schema :=
  ifThen (properties [("type", enum [type])])
    (allOf [required [key], absent (typedKeys.filter (· != key))])

/-- A node; the files differ in the least delay. -/
def node (leastDelay : Rat) : Schema :=
  allOf
    [record
      [("id", identifier), ("type", enum ["task", "choice", "merge", "approval", "delay"]),
       ("task", identifier), ("after", allOf [ofType .array, items identifier, uniqueItems]),
       ("input", ofType .object), ("sideEffect", ofType .boolean), ("choice", choice),
       ("merge", merge), ("branch", identifier), ("approval", ofType .object),
       ("delayMs", integerBetween leastDelay maxSafeInteger)]
      ["id", "type"],
     nodeVariant "task" "task", nodeVariant "choice" "choice", nodeVariant "merge" "merge",
     nodeVariant "approval" "approval", nodeVariant "delay" "delayMs"]

def workflowRecord (leastDelay : Rat) : Schema :=
  record
    [("manifestVersion", const 1), ("name", identifier), ("inputSchema", ofType .object),
     ("outputSchema", ofType .object),
     ("nodes", allOf [ofType .array, minItems 1, maxItems 200, items (node leastDelay)]),
     ("output", ofType .object)]
    ["manifestVersion", "name", "inputSchema", "outputSchema", "nodes", "output"]

/-- `manifest/workflow.schema.json`. -/
def workflow : Schema := workflowRecord 1

/-! ### Deployments -/

/-- `"^[0-9a-f]{64}$"`. -/
def digestText (s : String) : Bool :=
  decide (s.length = 64) && s.toList.all fun c =>
    c.isDigit || (decide ('a' ≤ c) && decide (c ≤ 'f'))

/-- `"^[A-Za-z_][A-Za-z0-9_]*$"`. -/
def secretText (s : String) : Bool :=
  match s.toList with
  | [] => false
  | c :: rest => (c.isAlpha || c == '_') && rest.all fun d => d.isAlphanum || d == '_'

/-- `manifest/deployment.schema.json`. -/
def deployment : Schema :=
  record
    [("manifestVersion", const 1), ("sdkVersion", ofType .string), ("protocolMajor", const 1),
     ("nodeRuntimeMajor", const 24), ("targetOS", enum ["linux"]),
     ("targetArchitecture", enum ["amd64", "arm64"]),
     ("dependencyLockDigest", allOf [ofType .string, pattern digestText]),
     ("bundleDigest", allOf [ofType .string, pattern digestText]),
     ("secretNames", allOf [ofType .array,
       items (allOf [ofType .string, pattern secretText]), uniqueItems]),
     ("tasks", allOf [ofType .array, minItems 1, items deploymentTask]),
     ("workflows", allOf [ofType .array, minItems 1, items (workflowRecord 0)])]
    ["manifestVersion", "sdkVersion", "protocolMajor", "nodeRuntimeMajor", "targetOS",
     "targetArchitecture", "dependencyLockDigest", "bundleDigest", "secretNames", "tasks",
     "workflows"]

/-! ### Payload schemas -/

def payloadKeywords : List (String × Schema) :=
  [("type", enum ["object", "array", "string", "boolean", "null", "integer", "number"]),
   ("required", allOf [ofType .array, items (ofType .string), uniqueItems]),
   ("enum", allOf [ofType .array, minItems 1, uniqueItems]), ("const", fun _ => true),
   ("title", ofType .string), ("description", ofType .string), ("minimum", ofType .number),
   ("maximum", ofType .number), ("exclusiveMinimum", ofType .number),
   ("exclusiveMaximum", ofType .number), ("minLength", integerBetween 0 maxSafeInteger),
   ("maxLength", integerBetween 0 maxSafeInteger), ("minItems", integerBetween 0 maxSafeInteger),
   ("maxItems", integerBetween 0 maxSafeInteger),
   ("minProperties", integerBetween 0 maxSafeInteger),
   ("maxProperties", integerBetween 0 maxSafeInteger)]

mutual

/-- `manifest/payload-schema.schema.json`. -/
def payload : Json → Bool
  | .obj members => payloadMembers members
  | _ => false
termination_by structural v => v

def payloadMembers : List (String × Json) → Bool
  | [] => true
  | member :: rest => payloadMember member && payloadMembers rest
termination_by structural members => members

def payloadMember : String × Json → Bool
  | ("properties", v) =>
    match v with
    | .obj members => payloadValues members
    | _ => false
  | ("oneOf", v) =>
    match v with
    | .arr variants => decide (2 ≤ variants.length) && payloadItems variants
    | _ => false
  | ("items", v) => payload v
  | ("additionalProperties", v) => v.kind == .boolean || payload v
  | (key, v) =>
    match payloadKeywords.lookup key with
    | some s => s v
    | none => false
termination_by structural member => member

def payloadItems : List Json → Bool
  | [] => true
  | item :: rest => payload item && payloadItems rest
termination_by structural items => items

def payloadValues : List (String × Json) → Bool
  | [] => true
  | member :: rest => payloadValue member && payloadValues rest
termination_by structural members => members

def payloadValue : String × Json → Bool
  | (_, v) => payload v
termination_by structural member => member

end

end Schema

/-! ### Accepted payload schemas -/

/-- The canonical text of a constant, as the key of a Go map. -/
def tagText (v : Json) : Option (List Symbol) := v.canonicalizeGeneric.toOption

/-- `"required"` of a schema lists a key. -/
def requires (schema : Json) (key : String) : Bool :=
  (schema.field "required").items.any fun v => v.kind == .string && Json.text (some v) == key

/-- The variants of a union share a required property whose constants differ,
`schema.go:72-93`. -/
def tagged (variants : List Json) : Bool :=
  match variants with
  | [] => false
  | first :: _ =>
    (first.field "properties").members.any fun p =>
      variants.all (fun a =>
        requires a p.1 && (((a.field "properties").field p.1).get? "const").isSome) &&
      decide (variants.map fun a =>
        tagText (((a.field "properties").field p.1).field "const")).Nodup

mutual

/-- The `visit` closure of `ValidateSchema`, `schema.go:71-114`. -/
def visitSchema : Json → Bool
  | .obj members => visitMembers members
  | _ => true
termination_by structural v => v

def visitMembers : List (String × Json) → Bool
  | [] => true
  | member :: rest => visitMember member && visitMembers rest
termination_by structural members => members

def visitMember : String × Json → Bool
  | ("oneOf", v) =>
    match v with
    | .arr variants => tagged variants && visitItems variants
    | _ => true
  | ("properties", v) =>
    match v with
    | .obj members => visitValues members
    | _ => true
  | ("items", v) => visitSchema v
  | ("additionalProperties", v) => visitSchema v
  | _ => true
termination_by structural member => member

def visitItems : List Json → Bool
  | [] => true
  | item :: rest => visitSchema item && visitItems rest
termination_by structural items => items

def visitValues : List (String × Json) → Bool
  | [] => true
  | member :: rest => visitValue member && visitValues rest
termination_by structural members => members

def visitValue : String × Json → Bool
  | (_, v) => visitSchema v
termination_by structural member => member

end

/-- The canonical literal of a number, which is also what JavaScript prints for it. -/
class Literals where
  text : Rat → String

def textSize [Literals] (symbols : List Symbol) : Nat :=
  (symbols.map fun
    | .char c => c.utf8Size
    | .number n => (Literals.text n).utf8ByteSize).sum

/-- The size limit of a schema, `schema.go:64`. -/
def maxSchemaBytes : Nat := 65536

/-- `ValidateSchema`, `schema.go:56-116`. -/
def validateSchema [Literals] (v : Json) : Except ContractError Unit := do
  require (v.check 0) .invalidJSON
  let compact ← v.canonicalizeGeneric
  require (textSize compact ≤ maxSchemaBytes) .schemaSizeExceeded
  require (Schema.payload v) .unsupportedSchema
  require (visitSchema v) .unsupportedSchema

end Deadbolt.Contracts

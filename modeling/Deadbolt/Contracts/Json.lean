import Mathlib

/-!
# JSON values

Decoded JSON as the control plane holds it in `any`: `internal/contracts/canonical.go`.
An object is the list of its members; Go's map has no order, so equality of objects is
membership both ways. Text is Unicode by construction, which is what `utf8.ValidString`
asks of a Go string.
-/

namespace Deadbolt.Contracts

/-- A decoded JSON value. Numbers are the exact values of the decoded `float64`s. -/
inductive Json where
  | null
  | bool (b : Bool)
  | num (n : Rat)
  | str (s : String)
  | arr (items : List Json)
  | obj (members : List (String × Json))

instance : Inhabited Json := ⟨.null⟩

inductive ContractError where
  | inputMappingError
  | invalidExpression
  | invalidJSON
  | invalidManifest
  | invalidTask
  | unsupportedSchema
  | schemaSizeExceeded
  | unsupportedManifestVersion
  | emptyNodes
  | nodeCountExceeded
  | duplicateNodeID
  | unsupportedCapability
  | missingTaskRef
  | invalidDelay
  | missingDependency
  | cycleDetected
  | invalidChoice
  | invalidMerge
  | invalidBranch
  | crossBranchDependency
  | irreducibleGraph
  | choiceNestingExceeded
  | orphanLeaf
  deriving DecidableEq

inductive Kind where
  | null | boolean | number | string | array | object
  deriving DecidableEq

/-- Nesting limit of `checkJSON`, `canonical.go:29,38`. -/
def maxDepth : Nat := 32

/-- Largest magnitude of an integer-valued number, `canonical.go:26`. -/
def maxSafeInteger : Rat := 9007199254740991

namespace Json

/-- Induction over the values inside a value. -/
@[induction_eliminator]
theorem induct {motive : Json → Prop} (null : motive .null) (bool : ∀ b, motive (.bool b))
    (num : ∀ n, motive (.num n)) (str : ∀ s, motive (.str s))
    (arr : ∀ items, (∀ v ∈ items, motive v) → motive (.arr items))
    (obj : ∀ members, (∀ m ∈ members, motive m.2) → motive (.obj members)) (v : Json) :
    motive v := by
  refine @Json.rec motive (fun items => ∀ v ∈ items, motive v)
    (fun members => ∀ m ∈ members, motive m.2) (fun m => motive m.2) null bool num str arr obj
    ?_ ?_ ?_ ?_ (fun _ _ ih => ih) v
  · exact fun v h => absurd h List.not_mem_nil
  · exact fun v rest hv hrest => List.forall_mem_cons.mpr ⟨hv, hrest⟩
  · exact fun m h => absurd h List.not_mem_nil
  · exact fun m rest hm hrest => List.forall_mem_cons.mpr ⟨hm, hrest⟩

def kind : Json → Kind
  | .null => .null
  | .bool _ => .boolean
  | .num _ => .number
  | .str _ => .string
  | .arr _ => .array
  | .obj _ => .object

/-- A number `checkJSON` accepts: not an integer beyond the safe range. -/
def safeNumber (n : Rat) : Bool :=
  !(n.den == 1 && (decide (maxSafeInteger < n) || decide (n < -maxSafeInteger)))

mutual

/-- `checkJSON`, `canonical.go:18-53`. -/
def check : Json → Nat → Bool
  | .null, _ => true
  | .bool _, _ => true
  | .str _, _ => true
  | .num n, _ => safeNumber n
  | .arr items, depth => decide (depth < maxDepth) && checkItems items (depth + 1)
  | .obj members, depth => decide (depth < maxDepth) && checkMembers members (depth + 1)
termination_by structural v => v

def checkItems : List Json → Nat → Bool
  | [], _ => true
  | item :: rest, depth => check item depth && checkItems rest depth
termination_by structural items => items

def checkMembers : List (String × Json) → Nat → Bool
  | [], _ => true
  | member :: rest, depth => checkMember member depth && checkMembers rest depth
termination_by structural members => members

def checkMember : String × Json → Nat → Bool
  | (_, item), depth => check item depth
termination_by structural member => member

end

theorem checkItems_eq (items : List Json) (depth : Nat) :
    checkItems items depth = items.all fun v => v.check depth := by
  induction items with
  | nil => rfl
  | cons item rest ih => simp only [checkItems, List.all_cons, ih]

theorem checkMembers_eq (members : List (String × Json)) (depth : Nat) :
    checkMembers members depth = members.all fun m => m.2.check depth := by
  induction members with
  | nil => rfl
  | cons member rest ih =>
    obtain ⟨key, item⟩ := member
    simp only [checkMembers, checkMember, List.all_cons, ih]

mutual

/-- The keys of every object are distinct: a Go map holds each key once. -/
def distinct : Json → Bool
  | .arr items => distinctItems items
  | .obj members => decide (members.map Prod.fst).Nodup && distinctMembers members
  | _ => true
termination_by structural v => v

def distinctItems : List Json → Bool
  | [] => true
  | item :: rest => distinct item && distinctItems rest
termination_by structural items => items

def distinctMembers : List (String × Json) → Bool
  | [] => true
  | member :: rest => distinctMember member && distinctMembers rest
termination_by structural members => members

def distinctMember : String × Json → Bool
  | (_, item) => distinct item
termination_by structural member => member

end

theorem distinct_arr {items : List Json} :
    (Json.arr items).distinct = true ↔ ∀ v ∈ items, v.distinct = true := by
  simp only [distinct]
  induction items with
  | nil => simp [distinctItems]
  | cons item rest ih => simp only [distinctItems, Bool.and_eq_true, ih, List.forall_mem_cons]

theorem distinct_obj {members : List (String × Json)} : (Json.obj members).distinct = true ↔
    (members.map Prod.fst).Nodup ∧ ∀ m ∈ members, m.2.distinct = true := by
  have hvalues : distinctMembers members = true ↔ ∀ m ∈ members, m.2.distinct = true := by
    induction members with
    | nil => simp [distinctMembers]
    | cons member rest ih =>
      obtain ⟨key, item⟩ := member
      simp only [distinctMembers, distinctMember, Bool.and_eq_true, ih, List.forall_mem_cons]
  simp only [distinct, Bool.and_eq_true, decide_eq_true_eq, hvalues]

mutual

/-- Structural equality: numbers by value, arrays in order, objects as unordered maps. -/
def same : Json → Json → Bool
  | .null, .null => true
  | .bool a, .bool b => a == b
  | .num a, .num b => a == b
  | .str a, .str b => a == b
  | .arr xs, .arr ys => sameItems xs ys
  | .obj xs, .obj ys => xs.length == ys.length && sameMembers xs ys
  | _, _ => false
termination_by structural a => a

def sameItems : List Json → List Json → Bool
  | [], [] => true
  | x :: xs, y :: ys => same x y && sameItems xs ys
  | _, _ => false
termination_by structural xs => xs

/-- Every member of the first object is in the second. -/
def sameMembers : List (String × Json) → List (String × Json) → Bool
  | [], _ => true
  | x :: xs, ys => sameMember x ys && sameMembers xs ys
termination_by structural xs => xs

def sameMember : String × Json → List (String × Json) → Bool
  | (k, v), ys =>
    match ys.lookup k with
    | some w => same v w
    | none => false
termination_by structural x => x

end

theorem sameMembers_iff {xs ys : List (String × Json)} : sameMembers xs ys = true ↔
    ∀ m ∈ xs, ∃ w, ys.lookup m.1 = some w ∧ m.2.same w = true := by
  induction xs with
  | nil => simp [sameMembers]
  | cons member rest ih =>
    obtain ⟨key, item⟩ := member
    simp only [sameMembers, sameMember, Bool.and_eq_true, ih, List.forall_mem_cons]
    refine and_congr_left fun _ => ?_
    cases ys.lookup key <;> simp

/-- `obj`, `schema.go:38`: the members, none for another value. -/
def members : Json → List (String × Json)
  | .obj ms => ms
  | _ => []

def get? (v : Json) (key : String) : Option Json := v.members.lookup key

/-- `str`, `schema.go:40`: the text, empty for another value. -/
def text : Option Json → String
  | some (.str s) => s
  | _ => ""

/-- A lookup in a Go map: an absent key gives the `nil` that a null decodes to. -/
def field (v : Json) (key : String) : Json := (v.get? key).getD .null

/-- `arr`, `schema.go:39`: the items, none for another value. -/
def items : Json → List Json
  | .arr xs => xs
  | _ => []

/-- `number`, `schema.go:41-47`. -/
def number : Json → Rat → Rat
  | .num n, _ => n
  | _, defaultValue => defaultValue

end Json

theorem mem_of_lookup {members : List (String × Json)} {key : String} {v : Json}
    (h : members.lookup key = some v) : (key, v) ∈ members := by
  obtain ⟨l1, l2, rfl, -⟩ := List.lookup_eq_some_iff.mp h
  simp

theorem lookup_filter (p : String → Bool) (members : List (String × Json)) (key : String) :
    (members.filter fun m => p m.1).lookup key = if p key then members.lookup key else none := by
  induction members with
  | nil => simp
  | cons m rest ih =>
    obtain ⟨k, v⟩ := m
    rw [List.filter_cons, List.lookup_cons]
    by_cases hk : key = k
    · subst hk
      cases hp : p key <;> simp [hp, ih]
    · have hne : (key == k) = false := by simpa using hk
      cases p k <;> simp [hne, List.lookup_cons, ih]

end Deadbolt.Contracts

import Deadbolt.Contracts.Mapped

/-!
# Equality in choice expressions

`eq`, `neq` and `in` compare canonical texts and drop the canonicalizer's error,
`internal/contracts/mapping.go:190-248`. On operands of one kind they decide structural equality as
long as not both operands are nested deeper than the canonicalizer accepts.
-/

namespace Deadbolt.Contracts

open Base

/-- The values are of one kind, and not both nested too deep for a canonical text. -/
structure Json.Comparable (a b : Json) : Prop where
  kind : a.kind = b.kind
  depth : a.depth ≤ maxDepth ∨ b.depth ≤ maxDepth

/-- A value as a mapping builds it: distinct keys and safe numbers. -/
structure Json.WellFormed (v : Json) : Prop where
  distinct : v.distinct = true
  numbersSafe : v.numbersSafe = true

theorem Json.WellFormed.item {v : Json} {items : List Json} (h : (Json.arr items).WellFormed)
    (hv : v ∈ items) : v.WellFormed :=
  ⟨Json.distinct_arr.mp h.distinct v hv, Json.partwise_numbersSafe.arr.mp h.numbersSafe v hv⟩

variable {a b : Json}

/-- The `equal` closure decides structural equality unless both sides are rejected. -/
theorem choiceEqual_same (ha : a.WellFormed) (hb : b.WellFormed) (h : a.Comparable b) :
    choiceEqual a b = .ok (a.same b) := by
  have hcanonical : a.canonicalEq b = a.same b := by
    rw [Json.canonicalEq_eq ha.distinct hb.distinct]
    rcases h.depth with hd | hd
    · simp [Json.check_of_depth ha.numbersSafe hd]
    · simp [Json.check_of_depth hb.numbersSafe hd]
  have hkind := h.kind
  cases a <;> cases b <;> first | exact congrArg Except.ok hcanonical | rfl | cases hkind

theorem foldlM_choiceEqual {items : List Json} (h : ∀ v ∈ items, choiceEqual a v = .ok (a.same v))
    (acc : Bool) :
    items.foldlM (fun result v => do
      let eq ← choiceEqual a v
      return result || eq) acc = .ok (acc || items.any fun v => a.same v) := by
  induction items generalizing acc with
  | nil => simp [pure, Except.pure]
  | cons v rest ih =>
    obtain ⟨hv, hrest⟩ := List.forall_mem_cons.mp h
    rw [List.foldlM_cons, hv]
    exact (ih hrest (acc || a.same v)).trans (by simp [Bool.or_assoc])

/-- An application of an operator to two operands. -/
structure Json.Compares (e : Json) (op : String) (x y : Json) : Prop where
  members : e.members.length = 2
  op : e.get? "op" = some (.str op)
  args : e.get? "args" = some (.arr [x, y])

theorem comparisons_binary : ∀ op ∈ comparisons, ¬ (op = "and" ∨ op = "or" ∨ op = "not") ∧
    op ≠ "exists" := by decide

/-- A comparison maps both operands and compares them. -/
theorem choiceWalk_compares {e x y input : Json} {outputs : Outputs} {op : String}
    (he : e.Compares op x y) (hop : op ∈ comparisons) (ha : mapInput x input outputs = .ok a)
    (hb : mapInput y input outputs = .ok b) (fuel : Nat) :
    choiceWalk input outputs (fuel + 1) e = compareOperands op a b := by
  obtain ⟨hbool, hexists⟩ := comparisons_binary op hop
  simp only [choiceWalk, he.args, he.op, he.members, Json.text]
  rw [if_neg (by decide), if_neg hbool, if_neg hexists, if_pos hop, ha, hb]
  rfl

/-- An expression has the result, alone and inside a larger expression. -/
def Json.EvaluatesTo (input : Json) (outputs : Outputs) (e : Json) (result : Bool) : Prop :=
  (∀ fuel, choiceWalk input outputs (fuel + 1) e = .ok result) ∧
    (e.check 0 = true → evaluateChoice e input outputs = .ok result)

theorem Json.evaluatesTo_compares {e x y input : Json} {outputs : Outputs} {op : String}
    {result : Bool} (he : e.Compares op x y) (hop : op ∈ comparisons)
    (ha : mapInput x input outputs = .ok a) (hb : mapInput y input outputs = .ok b)
    (h : compareOperands op a b = .ok result) : Json.EvaluatesTo input outputs e result := by
  have hwalk (fuel : Nat) := (choiceWalk_compares he hop ha hb fuel).trans h
  exact ⟨hwalk, fun hc => by rw [evaluateChoice, if_pos hc, hwalk]⟩

def Sample.comparison (op : String) (x y : Json) : Json :=
  .obj [("op", .str op), ("args", .arr [x, y])]

def Sample.fromInput (pointer : String) : Json :=
  .obj [("$ref", .str "run.input"), ("pointer", .str pointer)]

/-- An object, and the same object with its members in another order. -/
def Sample.record : Json × Json :=
  (.obj [("a", .num 1), ("b", .null)], .obj [("b", .null), ("a", .num 1)])

def Sample.nest : Nat → Json → Json
  | 0, v => v
  | n + 1, v => .arr [Sample.nest n v]

end Deadbolt.Contracts

import Mathlib

/-!
# Ancestors in a finite graph

A depth-first walk collects the ancestors of a node and stops at a cycle.
-/

namespace Deadbolt.Base.Ancestry

variable {α : Type} [DecidableEq α]

/-- The ancestors of a node, unless the walk meets a node it is inside of. -/
def visit (after : α → List α) : Nat → List α → α → Option (List α)
  | 0, _, _ => none
  | fuel + 1, visiting, u =>
    if u ∈ visiting then none
    else ((after u).mapM fun d => (visit after fuel (u :: visiting) d).map (d :: ·)).map
      List.flatten

end Deadbolt.Base.Ancestry

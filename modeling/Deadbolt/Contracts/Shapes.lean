import Deadbolt.Contracts.Schema

/-!
# Shapes

What the schema of a workflow says of a node, its choice and its merge, member by member: which
members are there and of which kind they are.
-/

namespace Deadbolt.Contracts

namespace Schema

section

variable {ps : List (String × Schema)} {keys : List String} {v x : Json}

theorem items_eq_true {s : Schema} : items s x = true ↔ ∀ y ∈ x.items, s y = true := by
  simp [items]

theorem record_optional {s : Schema} (key : String) (h : record ps keys v = true) (hs : ps.lookup key = some s) :
    v.get? key = none ∨ ∃ x, v.get? key = some x ∧ s x = true := by
  cases hx : v.get? key with
  | none => exact .inl rfl
  | some x => exact .inr ⟨x, rfl, record_get? h hs hx⟩

end

end Schema

def OptionalText (v : Option Json) : Prop := v = none ∨ ∃ s, v = some (.str s)

theorem optionalText_of_record {ps : List (String × Schema)} {keys : List String} {v : Json}
    {key : String} {s : Schema} (h : Schema.record ps keys v = true)
    (hs : ps.lookup key = some s) (htext : ∀ x, s x = true → x.kind = .string) :
    OptionalText (v.get? key) := by
  refine (Schema.record_optional key h hs).imp_right ?_
  rintro ⟨x, hx, hsx⟩
  have hkind := htext x hsx
  cases x with
  | str s => exact ⟨s, hx⟩
  | _ => cases hkind

/-! ### Shapes of accepted values -/

theorem array_shape {s : Schema} {x : Json}
    (h : Schema.allOf [Schema.ofType .array, Schema.minItems 1, Schema.items s] x = true) :
    ∃ items, x = .arr items ∧ items ≠ [] ∧ ∀ y ∈ items, s y = true := by
  simp only [Schema.allOf_eq_true, List.forall_mem_cons, List.not_mem_nil, false_imp_iff,
    implies_true, and_true] at h
  obtain ⟨htype, hmin, hitems⟩ := h
  cases x with
  | arr items =>
    refine ⟨items, rfl, ?_, Schema.items_eq_true.mp hitems⟩
    rintro rfl
    simp [Schema.minItems] at hmin
  | _ => simp [Schema.ofType, Json.kind] at htype

end Deadbolt.Contracts

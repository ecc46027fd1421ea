import Mathlib

/-!
# Paths of a relation

A path with the number of its edges. In a relation without cycles a path visits no element twice,
so it is no longer than the list of the elements that edges lead to.
-/

namespace Deadbolt.Base

open Relation

variable {α : Type*} {R : α → α → Prop} {a b c : α} {n : Nat}

inductive Path (R : α → α → Prop) (a : α) : Nat → α → Prop
  | refl : Path R a 0 a
  | step {n : Nat} {b c : α} (h : Path R a n b) (hbc : R b c) : Path R a (n + 1) c

namespace Path

theorem cons (hab : R a b) (h : Path R b n c) : Path R a (n + 1) c := by
  induction h with
  | refl => exact .step .refl hab
  | step _ hbc ih => exact .step ih hbc

/-- What a path visits after its start, from the end on. -/
theorem visits (hacyclic : ∀ a, ¬ TransGen R a a) (h : Path R a n b) :
    ∃ l : List α, l.length = n ∧ l.Nodup ∧ ∀ x ∈ l, (∃ y, R y x) ∧ ReflTransGen R x b := by
  induction h with
  | refl => exact ⟨[], rfl, List.nodup_nil, fun x hx => absurd hx List.not_mem_nil⟩
  | @step n b c _ hbc ih =>
    obtain ⟨l, hlength, hnodup, hl⟩ := ih
    have hnew : c ∉ l := fun hc => hacyclic c (.tail' (hl c hc).2 hbc)
    refine ⟨c :: l, by rw [List.length_cons, hlength], List.nodup_cons.mpr ⟨hnew, hnodup⟩, ?_⟩
    exact List.forall_mem_cons.mpr
      ⟨⟨⟨b, hbc⟩, .refl⟩, fun x hx => ⟨(hl x hx).1, (hl x hx).2.tail hbc⟩⟩

theorem length_le (hacyclic : ∀ a, ¬ TransGen R a a) {targets : List α}
    (htargets : ∀ a b, R a b → b ∈ targets) (h : Path R a n b) : n ≤ targets.length := by
  obtain ⟨l, rfl, hnodup, hl⟩ := h.visits hacyclic
  refine (List.Nodup.subperm hnodup fun x hx => ?_).length_le
  obtain ⟨⟨y, hy⟩, -⟩ := hl x hx
  exact htargets y x hy

end Path
end Deadbolt.Base

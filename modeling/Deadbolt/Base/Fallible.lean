import Mathlib

/-!
# Fallible computations

`Except` computations by their result alone: two of them agree when both return one value or both
fail, whatever the errors are.
-/

namespace Deadbolt.Base.Fallible

universe u v

variable {ε : Type u} {α β : Type v}

theorem bind_eq_ok {x : Except ε α} {f : α → Except ε β} {b : β} :
    (x >>= f) = .ok b ↔ ∃ a, x = .ok a ∧ f a = .ok b := by
  cases x with
  | error e => simp [bind, Except.bind]
  | ok a => simp [bind, Except.bind]

theorem bind_unit_eq_ok {x : Except ε PUnit} {f : PUnit → Except ε β} {b : β} :
    (x >>= f) = .ok b ↔ x = .ok ⟨⟩ ∧ f ⟨⟩ = .ok b := by
  rw [bind_eq_ok]
  exact ⟨fun ⟨_, hx, hf⟩ => ⟨hx, hf⟩, fun ⟨hx, hf⟩ => ⟨⟨⟩, hx, hf⟩⟩

def require (p : Prop) [Decidable p] (e : ε) : Except ε PUnit :=
  if p then pure ⟨⟩ else throw e

@[simp] theorem require_eq_ok {p : Prop} [Decidable p] {e : ε} :
    require p e = .ok (⟨⟩ : PUnit.{v + 1}) ↔ p := by
  unfold require
  split
  · simpa [pure, Except.pure]
  · simpa [throw, throwThe, MonadExceptOf.throw]

@[simp] theorem toOption_pure (a : α) : (pure a : Except ε α).toOption = some a := rfl

theorem toOption_bind (x : Except ε α) (f : α → Except ε β) :
    (x >>= f).toOption = x.toOption.bind fun a => (f a).toOption := by
  cases x <;> rfl

theorem toOption_map (x : Except ε α) (f : α → β) : (f <$> x).toOption = x.toOption.map f := by
  cases x <;> rfl

/-! ### Loops -/

theorem foldlM_eq_mapM {γ : Type v} (f : α → Except ε β) (g : γ → β → γ) (l : List α) (acc : γ) :
    l.foldlM (fun acc a => do
      let b ← f a
      return g acc b) acc = (fun bs => bs.foldl g acc) <$> l.mapM f := by
  induction l generalizing acc with
  | nil => rfl
  | cons a l ih =>
    rw [List.foldlM_cons, List.mapM_cons]
    cases f a with
    | error e => rfl
    | ok b =>
      refine (ih (g acc b)).trans ?_
      cases l.mapM f <;> rfl

variable {l : List α}

theorem toOption_mapM_congr {ε' : Type u} {f : α → Except ε β} {g : α → Except ε' β}
    (h : ∀ a ∈ l, (f a).toOption = (g a).toOption) : (l.mapM f).toOption = (l.mapM g).toOption := by
  induction l with
  | nil => rfl
  | cons a l ih =>
    obtain ⟨ha, hl⟩ := List.forall_mem_cons.mp h
    simp only [List.mapM_cons, toOption_bind, toOption_pure, ha, ih hl]

theorem forM_eq_ok {f : α → Except ε PUnit} : l.forM f = .ok ⟨⟩ ↔ ∀ a ∈ l, f a = .ok ⟨⟩ := by
  induction l with
  | nil => simp [pure, Except.pure]
  | cons a l ih =>
    rw [List.forM_eq_forM, List.forM_cons, bind_eq_ok, List.forall_mem_cons, ← ih]
    exact ⟨fun ⟨_, ha, hl⟩ => ⟨ha, hl⟩, fun ⟨ha, hl⟩ => ⟨⟨⟩, ha, hl⟩⟩

theorem mapM_eq_some {f : α → Option β} {bs : List β} :
    l.mapM f = some bs ↔ l.map f = bs.map some := by
  induction l generalizing bs with
  | nil => cases bs <;> simp
  | cons a l ih =>
    rw [List.mapM_cons]
    cases ha : f a with
    | none => cases bs <;> simp [ha]
    | some b =>
      cases hl : l.mapM f with
      | none =>
        cases bs with
        | nil => simp
        | cons c bs =>
          have hne : l.map f ≠ bs.map some := fun h => by
            rw [ih.mpr h] at hl
            cases hl
          simp [ha, hne]
      | some cs =>
        have hcs := ih.mp hl
        cases bs with
        | nil => simp
        | cons c bs =>
          simp only [Option.bind_eq_bind, Option.bind_some, Option.pure_def, Option.some.injEq,
            List.cons.injEq, List.map_cons, ha, hcs]
          exact and_congr_right fun _ =>
            (List.map_injective_iff.mpr (Option.some_injective β)).eq_iff.symm

/-! ### Agreement -/

section

universe w

variable {ε' : Type w} {E : ε' → Prop}

end

end Deadbolt.Base.Fallible

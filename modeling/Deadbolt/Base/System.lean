import Mathlib

/-!
# Deterministic labelled systems

A system is a step function on states and labels; whatever the environment chooses (interleaving,
times, answers of other services) is part of the label. A state is reachable if some list of labels
leads to it, so a claim about every interleaving is a claim about every list. The rules here package
the induction over that list.
-/

namespace Deadbolt.Base

/-- A step function on states `σ` and labels `α`. -/
structure System (σ α : Type) where
  step : σ → α → σ

namespace System

variable {σ α : Type} (S : System σ α)

def exec (s : σ) (as : List α) : σ := as.foldl S.step s

/-- Every step of the run finds a state that meets `C` with its label. -/
def Along (C : σ → α → Prop) : σ → List α → Prop
  | _, [] => True
  | s, a :: as => C s a ∧ Along C (S.step s a) as

@[simp] theorem exec_nil (s : σ) : S.exec s [] = s := rfl

@[simp] theorem exec_cons (s : σ) (a : α) (as : List α) :
    S.exec s (a :: as) = S.exec (S.step s a) as := rfl

theorem exec_append (s : σ) (as bs : List α) :
    S.exec s (as ++ bs) = S.exec (S.exec s as) bs := List.foldl_append

variable {C : σ → α → Prop} {s : σ} {as : List α}

theorem Along.and {D : σ → α → Prop} (hc : S.Along C s as) (hd : S.Along D s as) :
    S.Along (fun s a => C s a ∧ D s a) s as := by
  induction as generalizing s with
  | nil => trivial
  | cons a as ih => exact ⟨⟨hc.1, hd.1⟩, ih hc.2 hd.2⟩

theorem Along.mono {D : σ → α → Prop} (h : ∀ s a, C s a → D s a) (hc : S.Along C s as) :
    S.Along D s as := by
  induction as generalizing s with
  | nil => trivial
  | cons a as ih => exact ⟨h s a hc.1, ih hc.2⟩

/-- A test of every step is a test of the run. -/
instance decidableAlong {C : σ → α → Prop} [∀ s a, Decidable (C s a)] :
    ∀ (s : σ) (as : List α), Decidable (S.Along C s as)
  | _, [] => inferInstanceAs (Decidable True)
  | s, a :: as =>
    @instDecidableAnd (C s a) (S.Along C (S.step s a) as) _ (decidableAlong (S.step s a) as)

/-- What every conditioned step keeps holds after every run that meets the condition. -/
theorem invariant {I : σ → Prop} (hstep : ∀ s a, I s → C s a → I (S.step s a)) (hs : I s)
    (ha : S.Along C s as) : I (S.exec s as) := by
  induction as generalizing s with
  | nil => exact hs
  | cons a as ih => exact ih (hstep s a hs ha.1) ha.2

theorem invariant_of_step {I : σ → Prop} (hstep : ∀ s a, I s → I (S.step s a)) (hs : I s)
    (as : List α) : I (S.exec s as) := by
  induction as generalizing s with
  | nil => exact hs
  | cons a as ih => exact ih (hstep s a hs)

end System
end Deadbolt.Base

import Mathlib

/-!
# Unambiguous codes

A code writes a value as a list of symbols. A text is read back when no text of another value,
whatever follows it, starts the same way. Codes that can be read compose: one after the other,
under a mark, in a sequence that ends with a mark of its own, and in a sequence with separators.
-/

namespace Deadbolt.Base.Code

variable {α β σ : Type*}

/-- Whatever follows the text of `a`, it is read back as `a`. -/
def ReadsAt (enc : α → List σ) (a : α) : Prop :=
  ∀ b x y, enc a ++ x = enc b ++ y → a = b ∧ x = y

def Reads (enc : α → List σ) : Prop := ∀ a, ReadsAt enc a

/-- No text is empty or starts with the mark. -/
def Avoids (enc : α → List σ) (mark : σ) : Prop := ∀ a, ∃ s rest, enc a = s :: rest ∧ s ≠ mark

variable {enc : α → List σ} {enc' : β → List σ} {a : α} {b : β} {sep close : σ}

theorem ReadsAt.eq (h : ReadsAt enc a) {a' : α} (he : enc a = enc a') : a = a' :=
  (h a' [] [] (by rw [he])).1

/-- A text that a decoder takes back can be read. -/
theorem reads_of_decoder {dec : List σ → Option (α × List σ)}
    (h : ∀ a x, dec (enc a ++ x) = some (a, x)) : Reads enc := by
  intro a b x y he
  have hd : some (a, x) = some (b, y) := by rw [← h, he, h]
  exact Prod.mk.inj (Option.some.inj hd)

theorem ReadsAt.mark (h : ReadsAt enc a) (s : σ) : ReadsAt (fun a => s :: enc a) a := by
  intro b x y he
  exact h b x y (List.cons.inj he).2

theorem ReadsAt.pair (ha : ReadsAt enc a) (hb : ReadsAt enc' b) :
    ReadsAt (fun p : α × β => enc p.1 ++ enc' p.2) (a, b) := by
  rintro ⟨a', b'⟩ x y he
  simp only [List.append_assoc] at he
  obtain ⟨rfl, ht⟩ := ha a' _ _ he
  obtain ⟨rfl, rfl⟩ := hb b' _ _ ht
  exact ⟨rfl, rfl⟩

/-! ### Sequences -/

/-- The texts one after the other, ended by a mark. -/
def terminated (enc : α → List σ) (close : σ) (l : List α) : List σ := l.flatMap enc ++ [close]

theorem readsAt_terminated (hc : Avoids enc close) {l : List α} (hl : ∀ a ∈ l, ReadsAt enc a) :
    ReadsAt (terminated enc close) l := by
  unfold terminated
  -- The first symbol says whether the sequence goes on.
  induction l with
  | nil =>
    rintro (_ | ⟨b, m⟩) x y he
    · simpa using he
    · obtain ⟨s, rest, hs, hne⟩ := hc b
      simp only [List.flatMap_nil, List.nil_append, List.flatMap_cons, hs, List.cons_append] at he
      exact absurd (List.cons.inj he).1.symm hne
  | cons a l ih =>
    rintro (_ | ⟨b, m⟩) x y he
    · obtain ⟨s, rest, hs, hne⟩ := hc a
      simp only [List.flatMap_nil, List.nil_append, List.flatMap_cons, hs, List.cons_append] at he
      exact absurd (List.cons.inj he).1 hne
    · simp only [List.flatMap_cons, List.append_assoc] at he
      obtain ⟨rfl, ht⟩ := hl a List.mem_cons_self b _ _ he
      obtain ⟨rfl, rfl⟩ := ih (fun a ha => hl a (List.mem_cons_of_mem _ ha)) m x y (by simpa using ht)
      exact ⟨rfl, rfl⟩

/-- Texts that can be read and are not empty can be read one after the other. -/
theorem flatMap_injective (h : Reads enc) (hne : ∀ a, enc a ≠ []) :
    Function.Injective (List.flatMap enc) := by
  intro l
  induction l with
  | nil =>
    rintro (_ | ⟨b, m⟩) he
    · rfl
    · exact absurd (List.append_eq_nil_iff.mp he.symm).1 (hne b)
  | cons a l ih =>
    rintro (_ | ⟨b, m⟩) he
    · exact absurd (List.append_eq_nil_iff.mp he).1 (hne a)
    · obtain ⟨rfl, ht⟩ := h a b _ _ (by simpa using he)
      rw [ih ht]

/-- The texts with a separator between them, ended by a mark. -/
def separated (enc : α → List σ) (sep close : σ) : List α → List σ
  | [] => [close]
  | [a] => enc a ++ [close]
  | a :: b :: rest => enc a ++ sep :: separated enc sep close (b :: rest)

theorem separated_cons (a : α) (l : List α) :
    separated enc sep close (a :: l) =
      enc a ++ (if l = [] then [close] else sep :: separated enc sep close l) := by
  cases l <;> simp [separated]

theorem readsAt_separated (hsep : sep ≠ close) (hc : Avoids enc close) {l : List α}
    (hl : ∀ a ∈ l, ReadsAt enc a) : ReadsAt (separated enc sep close) l := by
  induction l with
  | nil =>
    rintro (_ | ⟨b, m⟩) x y he
    · simpa [separated] using he
    · obtain ⟨s, rest, hs, hne⟩ := hc b
      rw [separated_cons, separated, hs] at he
      exact absurd (List.cons.inj he).1.symm hne
  | cons a l ih =>
    rintro (_ | ⟨b, m⟩) x y he
    · obtain ⟨s, rest, hs, hne⟩ := hc a
      rw [separated_cons, separated, hs] at he
      exact absurd (List.cons.inj he).1 hne
    · rw [separated_cons, separated_cons, List.append_assoc, List.append_assoc] at he
      obtain ⟨rfl, ht⟩ := hl a List.mem_cons_self b _ _ he
      split at ht <;> split at ht <;> rename_i h1 h2
      · subst h1 h2
        simpa using ht
      · exact absurd (List.cons.inj ht).1.symm hsep
      · exact absurd (List.cons.inj ht).1 hsep
      · obtain ⟨rfl, rfl⟩ := ih (fun a ha => hl a (List.mem_cons_of_mem _ ha)) m x y
          (List.cons.inj ht).2
        exact ⟨rfl, rfl⟩

end Deadbolt.Base.Code

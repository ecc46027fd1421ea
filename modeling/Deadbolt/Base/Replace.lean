import Mathlib

/-!
# Replacing every occurrence of a text

`replaceAll` over lists of any type, and what the result contains. A text that avoids the marker
can neither overlap an inserted marker nor lie inside it, so replacements bring in no occurrence
of it.
-/

namespace Deadbolt.Base

variable {α : Type*}

/-! ### Occurrences around a symbol -/

variable {s old text : List α}

/-- An occurrence of a text without `x` lies on one side of an `x`. -/
theorem infix_append_cons {a b : List α} {x : α} (hx : x ∉ s) (h : s <:+: a ++ x :: b) :
    s <:+: a ∨ s <:+: b := by
  obtain ⟨p, q, h⟩ := h
  rcases List.append_eq_append_iff.mp h with ⟨c, rfl, rfl⟩ | ⟨c, hc, hb⟩
  · exact .inl ⟨p, c, rfl⟩
  · cases c with
    | nil => exact .inl ⟨p, [], by simpa using hc⟩
    | cons y c =>
      obtain ⟨rfl, rfl⟩ := List.cons_eq_cons.mp hb
      -- the `x` ends the part before it or stands in `s` itself
      rcases List.append_eq_append_iff.mp hc with ⟨d, rfl, hd⟩ | ⟨d, rfl, hd⟩
      · exact absurd (hd ▸ List.mem_append_right d List.mem_cons_self) hx
      · cases d with
        | nil => exact absurd (List.nil_append s ▸ hd ▸ List.mem_cons_self) hx
        | cons z d =>
          obtain ⟨rfl, rfl⟩ := List.cons_eq_cons.mp hd
          exact .inr ⟨d, q, rfl⟩

/-- Texts that `f` does not tell apart have occurrences that it does not tell apart. -/
theorem exists_infix_of_map_eq {β : Type*} {f : α → β} {m t : List α} (h : m <:+: s)
    (hst : s.map f = t.map f) : ∃ m', m' <:+: t ∧ m'.map f = m.map f := by
  obtain ⟨x, y, rfl⟩ := h
  refine ⟨(t.drop x.length).take m.length, ?_, ?_⟩
  · exact ( List.take_prefix _ _).isInfix.trans (List.drop_suffix _ _).isInfix
  · rw [List.map_take, List.map_drop, ← hst]
    simp

/-- The text has none of the marker's two ends, and the marker's inside does not contain it. -/
def Avoids (s marker : List α) : Prop :=
  ∃ left inside right, marker = left :: (inside ++ [right]) ∧ left ∉ s ∧ right ∉ s ∧
    ¬ s <:+: inside

theorem Avoids.infix_append {marker a b : List α} (h : Avoids s marker)
    (hs : s <:+: a ++ marker ++ b) : s <:+: a ∨ s <:+: b := by
  obtain ⟨left, inside, right, rfl, hl, hr, hin⟩ := h
  have hs : s <:+: a ++ left :: (inside ++ right :: b) := by simpa using hs
  refine (infix_append_cons hl hs).imp_right fun hs => ?_
  exact (infix_append_cons hr hs).resolve_left hin

/-! ### The replacement -/

variable [DecidableEq α]

/-- `strings.ReplaceAll` of a text that is not empty: the occurrences of `old`, from the left and
without overlaps, become `new`. -/
def replaceAll (old new : List α) : List α → List α
  | [] => []
  | c :: cs =>
    if old <+: c :: cs then new ++ replaceAll old new (cs.drop (old.length - 1))
    else c :: replaceAll old new cs
termination_by text => text.length
decreasing_by all_goals simp

@[simp] theorem replaceAll_nil (old new : List α) : replaceAll old new [] = [] := by
  rw [replaceAll]

theorem replaceAll_append (hold : old ≠ []) (new rest : List α) :
    replaceAll old new (old ++ rest) = new ++ replaceAll old new rest := by
  obtain ⟨c, cs, rfl⟩ := List.exists_cons_of_ne_nil hold
  rw [List.cons_append, replaceAll, if_pos ⟨rest, rfl⟩]
  simp

theorem replaceAll_cons {c : α} (h : ¬ old <+: c :: text) (new : List α) :
    replaceAll old new (c :: text) = c :: replaceAll old new text := by
  rw [replaceAll, if_neg h]

/-- The induction of the scan: an occurrence is passed as a whole, any other symbol alone. -/
theorem replaceAll_induction (hold : old ≠ []) {motive : List α → Prop} (nil : motive [])
    (found : ∀ rest, motive rest → motive (old ++ rest))
    (skip : ∀ c text, ¬ old <+: c :: text → motive text → motive (c :: text)) (text : List α) :
    motive text := by
  induction h : text.length using Nat.strong_induction_on generalizing text with
  | h n ih =>
    cases text with
    | nil => exact nil
    | cons c cs =>
      by_cases hp : old <+: c :: cs
      · obtain ⟨rest, hrest⟩ := hp
        have hlen : old.length + rest.length = n := by rw [← h, ← hrest, List.length_append]
        have hpos := List.length_pos_of_ne_nil hold
        exact hrest ▸ found rest (ih _ (by omega) rest rfl)
      · exact skip c cs hp (ih cs.length (by simp [← h]) cs rfl)

/-- A replacement brings in no occurrence of a text that avoids the marker. -/
theorem infix_of_infix_replaceAll {new : List α} (hold : old ≠ []) (hs : Avoids s new)
    (before text : List α) (h : s <:+: before ++ replaceAll old new text) :
    s <:+: before ++ text := by
  induction text using replaceAll_induction hold generalizing before with
  | nil => simpa using h
  | found rest ih =>
    rw [replaceAll_append hold, ← List.append_assoc] at h
    rcases hs.infix_append h with h | h
    · exact h.trans (List.prefix_append before _).isInfix
    · exact (ih [] h).trans ⟨before ++ old, [], by simp⟩
  | skip c text hc ih =>
    rw [replaceAll_cons hc] at h
    simpa using ih (before ++ [c]) (by simpa using h)

/-- No occurrence of the replaced text starts in `before`, where the text follows it. -/
def StartsAfter (old before text : List α) : Prop :=
  ∀ p q, before = p ++ q → q ≠ [] → ¬ old <+: q ++ text

omit [DecidableEq α] in
theorem StartsAfter.not_infix {before : List α} (h : StartsAfter old before text)
    (hold : old ≠ []) : ¬ old <:+: before := by
  rintro ⟨p, q, rfl⟩
  exact h p (old ++ q) (by simp) (by simp [hold]) ⟨q ++ text, by simp⟩

omit [DecidableEq α] in
theorem StartsAfter.concat {before : List α} {c : α} (h : StartsAfter old before (c :: text))
    (hc : ¬ old <+: c :: text) : StartsAfter old (before ++ [c]) text := by
  intro p q hpq hq hprefix
  obtain ⟨q, d, rfl⟩ := (List.eq_nil_or_concat q).resolve_left hq
  rw [List.concat_eq_append, ← List.append_assoc] at hpq
  obtain ⟨rfl, hd⟩ := List.append_inj' hpq rfl
  obtain rfl : c = d := by simpa using hd
  cases q with
  | nil => exact hc (by simpa using hprefix)
  | cons e q => exact h p (e :: q) rfl (by simp) (by simpa using hprefix)

/-- No occurrence of the replaced text is left. -/
theorem not_infix_replaceAll {new : List α} (hold : old ≠ []) (hnew : Avoids old new)
    (before text : List α) (hbefore : StartsAfter old before text) :
    ¬ old <:+: before ++ replaceAll old new text := by
  induction text using replaceAll_induction hold generalizing before with
  | nil => simpa using hbefore.not_infix hold
  | found rest ih =>
    rw [replaceAll_append hold, ← List.append_assoc]
    intro h
    rcases hnew.infix_append h with h | h
    · exact hbefore.not_infix hold h
    · exact ih [] (by simp [StartsAfter]) h
  | skip c text hc ih =>
    rw [replaceAll_cons hc]
    simpa using ih (before ++ [c]) (hbefore.concat hc)

end Deadbolt.Base

import Mathlib

/-!
# Token buckets

A bucket gains credit with time up to a capacity, and an admission costs a token. An admitted event
may be dated later than its admission, as long as the next admission comes after it. Over any window
the events then cost at most the capacity, the length of the window, and one token: the event of an
admission before the window may be dated into it.
-/

namespace Deadbolt.Base

structure Bucket (T : Type) where
  credit : T
  updatedAt : T

namespace Bucket

section Events

variable {T : Type} [LinearOrder T]

def since (s : T) (events : List T) : Nat := events.countP fun t => s ≤ t

def within (s e : T) (events : List T) : Nat := events.countP fun t => s ≤ t ∧ t ≤ e

theorem since_append (s t : T) (events : List T) :
    since s (events ++ [t]) = since s events + if s ≤ t then 1 else 0 := by
  simp [since, List.countP_append, List.countP_singleton]

theorem since_eq_zero {s now : T} {events : List T} (hpast : ∀ t ∈ events, t ≤ now)
    (hs : now < s) : since s events = 0 := by
  simp only [since, List.countP_eq_zero, decide_eq_true_eq, not_le]
  exact fun t ht => (hpast t ht).trans_lt hs

theorem within_le_since (s e : T) (events : List T) : within s e events ≤ since s events := by
  refine List.countP_mono_left fun t _ h => ?_
  simp only [decide_eq_true_eq] at h ⊢
  exact h.1

theorem within_append {s e t : T} (ht : ¬(s ≤ t ∧ t ≤ e)) (events : List T) :
    within s e (events ++ [t]) = within s e events := by
  simp [within, List.countP_append, ht]

end Events

variable {T : Type} [CommRing T] [LinearOrder T] [IsStrictOrderedRing T]

/-- The credit at a time: refilled since the last change, up to the capacity. -/
def creditAt (capacity : T) (b : Bucket T) (now : T) : T :=
  min capacity (b.credit + (now - b.updatedAt))

def debit (capacity token : T) (b : Bucket T) (now : T) : Bucket T :=
  ⟨b.creditAt capacity now - token, now⟩

/-- What is done with a bucket and the events it admits: it is opened full; it pays for an
admission without an event, or with one that is dated later. -/
inductive Step (capacity token : T) :
    Option (Bucket T) × List T → Option (Bucket T) × List T → Prop
  | stay (x : Option (Bucket T) × List T) : Step capacity token x x
  | fill (now : T) (events : List T) :
    Step capacity token (none, events) (some ⟨capacity, now⟩, events)
  | spend (b : Bucket T) (events : List T) (now : T)
    (hpast : ∀ t ∈ events, t ≤ now) (hcredit : token ≤ b.creditAt capacity now) :
    Step capacity token (some b, events) (some (b.debit capacity token now), events)
  | grant (b : Bucket T) (events : List T) (now t : T)
    (hpast : ∀ t ∈ events, t ≤ now) (hcredit : token ≤ b.creditAt capacity now) (hlater : now ≤ t) :
    Step capacity token (some b, events) (some (b.debit capacity token now), events ++ [t])

/-- The events are paid for, whatever window they are counted in. -/
structure Bounded (capacity token : T) (b : Bucket T) (events : List T) : Prop where
  credit : 0 ≤ b.credit
  paid : ∀ s ≤ b.updatedAt,
    since s events * token + b.credit ≤ capacity + token + (b.updatedAt - s)
  last : ∀ s, b.updatedAt < s → since s events ≤ 1
  window : ∀ s e, s ≤ e → within s e events * token ≤ capacity + token + (e - s)

section

variable {capacity token : T} {b : Bucket T} {events : List T}

theorem bounded_full (hcapacity : 0 ≤ capacity) (htoken : 0 ≤ token) (now : T) :
    Bounded capacity token ⟨capacity, now⟩ [] where
  credit := hcapacity
  paid s hs := by
    simp only [since, List.countP_nil, Nat.cast_zero, zero_mul]
    linarith
  last _ _ := by simp [since]
  window s e hs := by
    simp only [within, List.countP_nil, Nat.cast_zero, zero_mul]
    linarith

variable {now : T}

/-- The credit after an admission, with the events before it. -/
theorem Bounded.paid_debit (h : Bounded capacity token b events) (htoken : 0 ≤ token) {s : T}
    (hs : s ≤ now) :
    since s events * token + (b.debit capacity token now).credit ≤ capacity + (now - s) := by
  have hfull : b.creditAt capacity now ≤ capacity := min_le_left _ _
  have hrefill : b.creditAt capacity now ≤ b.credit + (now - b.updatedAt) := min_le_right _ _
  simp only [debit]
  rcases le_or_gt s b.updatedAt with hle | hgt
  · have := h.paid s hle
    linarith
  · -- After the last change there is at most its own event, which the full bucket covers.
    have hone : (since s events : T) ≤ 1 := by exact_mod_cast h.last s hgt
    have hcost : since s events * token ≤ token := mul_le_of_le_one_left htoken hone
    linarith

theorem Bounded.spend (h : Bounded capacity token b events) (htoken : 0 ≤ token)
    (hpast : ∀ t ∈ events, t ≤ now) (hcredit : token ≤ b.creditAt capacity now) :
    Bounded capacity token (b.debit capacity token now) events where
  credit := sub_nonneg.mpr hcredit
  paid s hs := (h.paid_debit htoken hs).trans (by simp only [debit]; linarith)
  last s hs := by rw [since_eq_zero hpast hs]; exact Nat.zero_le _
  window := h.window

theorem Bounded.grant (h : Bounded capacity token b events) (htoken : 0 ≤ token) {t : T}
    (hpast : ∀ t ∈ events, t ≤ now) (hcredit : token ≤ b.creditAt capacity now) (hlater : now ≤ t) :
    Bounded capacity token (b.debit capacity token now) (events ++ [t]) := by
  have hlast : ∀ s, now < s → since s (events ++ [t]) ≤ 1 := by
    intro s hs
    rw [since_append, since_eq_zero hpast hs]
    split <;> simp
  have hpaid : ∀ s ≤ now, since s (events ++ [t]) * token + (b.debit capacity token now).credit ≤
      capacity + token + (now - s) := by
    intro s hs
    rw [since_append, if_pos (hs.trans hlater)]
    have := h.paid_debit htoken hs
    push_cast
    linarith
  refine ⟨sub_nonneg.mpr hcredit, hpaid, hlast, fun s e hse => ?_⟩
  by_cases ht : s ≤ t ∧ t ≤ e
  · -- The window reaches the new event, so it ends after every other one.
    have hcount : (within s e (events ++ [t]) : T) ≤ since s (events ++ [t]) := by
      exact_mod_cast within_le_since s e (events ++ [t])
    have hcost := mul_le_mul_of_nonneg_right hcount htoken
    rcases le_or_gt s now with hs | hs
    · have := hpaid s hs
      have hcredit' : 0 ≤ (b.debit capacity token now).credit := sub_nonneg.mpr hcredit
      linarith [ht.2]
    · have hone : (since s (events ++ [t]) : T) ≤ 1 := by exact_mod_cast hlast s hs
      have hone' := mul_le_of_le_one_left htoken hone
      have hcapacity : b.creditAt capacity now ≤ capacity := min_le_left _ _
      linarith
  · rw [within_append ht]
    exact h.window s e hse

end

/-- A bucket that is open pays for its events, and without one there are none. -/
def Solvent (capacity token : T) : Option (Bucket T) × List T → Prop
  | (none, events) => events = []
  | (some b, events) => Bounded capacity token b events

theorem Step.solvent {capacity token : T} (hcapacity : 0 ≤ capacity) (htoken : 0 ≤ token)
    {x x' : Option (Bucket T) × List T} (h : Step capacity token x x')
    (hx : Solvent capacity token x) : Solvent capacity token x' := by
  cases h with
  | stay => exact hx
  | fill now events =>
    obtain rfl : events = [] := hx
    exact bounded_full hcapacity htoken now
  | spend b events now hpast hcredit => exact Bounded.spend hx htoken hpast hcredit
  | grant b events now t hpast hcredit hlater =>
    exact Bounded.grant hx htoken hpast hcredit hlater

/-- A window costs at most the capacity, its length and one token. -/
theorem Solvent.window {capacity token : T} (hcapacity : 0 ≤ capacity) (htoken : 0 ≤ token)
    {x : Option (Bucket T) × List T} (hx : Solvent capacity token x) {s e : T} (hse : s ≤ e) :
    within s e x.2 * token ≤ capacity + token + (e - s) := by
  match x with
  | (none, events) =>
    obtain rfl : events = [] := hx
    simp only [within, List.countP_nil, Nat.cast_zero, zero_mul]
    linarith
  | (some b, events) => exact Bounded.window hx s e hse

end Bucket
end Deadbolt.Base

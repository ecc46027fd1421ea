import Mathlib

/-!
# Transactions

A transaction reads and writes one state and either commits or fails. A failed
transaction yields no state, which is how a rollback reads here. `Commits x s Q`
is the weakest precondition of `x` at `s`: every commit from `s` satisfies `Q`.
The simp set below turns a body written with `read`, `write`, `fail` and
conditionals into a first-order statement about the states it passes through.
`Ensures x s Q` is the total one: `x` commits from `s`, and the commit satisfies `Q`.
-/

namespace Deadbolt.Base

/-- A transaction on a state `σ` that commits a value or fails with an `ε`. -/
abbrev Tx (σ ε : Type) := StateT σ (Except ε)

namespace Tx

variable {σ τ ε α β γ : Type}

def read (f : σ → β) : Tx σ ε β := fun s => .ok (f s, s)

def write (f : σ → σ) : Tx σ ε Unit := fun s => .ok ((), f s)

/-- Abort: nothing the transaction wrote survives. -/
def fail (e : ε) : Tx σ ε α := fun _ => .error e

def require (c : Prop) [Decidable c] (e : ε) : Tx σ ε Unit :=
  if c then pure () else fail e

def forEach : List β → (β → Tx σ ε Unit) → Tx σ ε Unit
  | [], _ => pure ()
  | x :: xs, f => do
    f x
    forEach xs f

/-- Thread an accumulator through a statement for every element, in order. -/
def foldEach : List β → γ → (γ → β → Tx σ ε γ) → Tx σ ε γ
  | [], c, _ => pure c
  | x :: xs, c, f => do
    let c' ← f c x
    foldEach xs c' f

/-- Run a transaction on a part of the state; a missing part aborts. -/
def zoom (view : σ → Option τ) (put : τ → σ → σ) (missing : ε) (x : Tx τ ε α) : Tx σ ε α :=
  fun s =>
    match view s with
    | none => .error missing
    | some t =>
      match x t with
      | .ok (a, t') => .ok (a, put t' s)
      | .error e => .error e

/-- The committed state, or the old one after a failure. -/
def commit (x : Tx σ ε α) (s : σ) : σ :=
  match x s with
  | .ok (_, s') => s'
  | .error _ => s

/-- Every commit of `x` from `s` satisfies `Q`. -/
def Commits (x : Tx σ ε α) (s : σ) (Q : α → σ → Prop) : Prop :=
  ∀ a s', x s = .ok (a, s') → Q a s'

/-- From every state, every commit of `x` relates the states before and after. -/
def Keeps (R : σ → σ → Prop) (x : Tx σ ε α) : Prop := ∀ s, Commits x s fun _ s' => R s s'

/-- `x` commits from `s`, and the commit satisfies `Q`. -/
def Ensures (x : Tx σ ε α) (s : σ) (Q : α → σ → Prop) : Prop := ∃ a s', x s = .ok (a, s') ∧ Q a s'

/-! ### Single runs -/

theorem bind_apply (x : Tx σ ε α) (f : α → Tx σ ε β) (s : σ) :
    (x >>= f) s = match x s with
      | .ok (a, s') => f a s'
      | .error e => .error e := by
  change (x s >>= fun p => f p.1 p.2) = _
  cases x s <;> rfl

theorem require_apply (c : Prop) [Decidable c] (e : ε) (s : σ) :
    (require c e : Tx σ ε Unit) s = if c then .ok ((), s) else .error e := by
  unfold require
  split <;> rfl

/-! ### Weakest preconditions -/

@[simp] theorem commits_pure (a : α) (s : σ) (Q : α → σ → Prop) :
    Commits (pure a : Tx σ ε α) s Q ↔ Q a s := by
  constructor
  · intro h
    exact h a s rfl
  · intro h b s' he
    cases he
    exact h

@[simp] theorem commits_read (f : σ → β) (s : σ) (Q : β → σ → Prop) :
    Commits (read f : Tx σ ε β) s Q ↔ Q (f s) s := by
  constructor
  · intro h
    exact h _ s rfl
  · intro h b s' he
    cases he
    exact h

@[simp] theorem commits_write (f : σ → σ) (s : σ) (Q : Unit → σ → Prop) :
    Commits (write f : Tx σ ε Unit) s Q ↔ Q () (f s) := by
  constructor
  · intro h
    exact h _ _ rfl
  · intro h b s' he
    cases he
    exact h

@[simp] theorem commits_fail (e : ε) (s : σ) (Q : α → σ → Prop) :
    Commits (fail e : Tx σ ε α) s Q ↔ True :=
  iff_of_true (fun _ _ he => nomatch he) trivial

@[simp] theorem commits_bind (x : Tx σ ε α) (f : α → Tx σ ε β) (s : σ) (Q : β → σ → Prop) :
    Commits (x >>= f) s Q ↔ Commits x s fun a s' => Commits (f a) s' Q := by
  have hb (b : β) (s'' : σ) :
      (x >>= f) s = .ok (b, s'') ↔ ∃ a s', x s = .ok (a, s') ∧ f a s' = .ok (b, s'') := by
    simp only [bind, StateT.bind, Except.bind]
    cases x s with
    | error e => simp
    | ok r =>
      obtain ⟨a, s'⟩ := r
      constructor
      · intro h
        exact ⟨a, s', rfl, h⟩
      · rintro ⟨_, _, he, h⟩
        cases he
        exact h
  constructor
  · intro h a s' ha b s'' hf
    exact h b s'' ((hb b s'').mpr ⟨a, s', ha, hf⟩)
  · intro h b s'' hbs
    obtain ⟨a, s', ha, hf⟩ := (hb b s'').mp hbs
    exact h a s' ha b s'' hf

@[simp] theorem commits_map (g : α → β) (x : Tx σ ε α) (s : σ) (Q : β → σ → Prop) :
    Commits (g <$> x) s Q ↔ Commits x s fun a s' => Q (g a) s' := by
  rw [← bind_pure_comp, commits_bind]
  simp only [commits_pure]

@[simp] theorem commits_require (c : Prop) [Decidable c] (e : ε) (s : σ)
    (Q : Unit → σ → Prop) : Commits (require c e : Tx σ ε Unit) s Q ↔ (c → Q () s) := by
  unfold require
  split <;> simp_all

@[simp] theorem commits_ite (c : Prop) [Decidable c] (x y : Tx σ ε α) (s : σ)
    (Q : α → σ → Prop) :
    Commits (if c then x else y) s Q ↔ (c → Commits x s Q) ∧ (¬ c → Commits y s Q) := by
  split <;> simp_all

variable {x : Tx σ ε α} {s : σ} {Q Q' : α → σ → Prop} {xs : List β}

theorem Commits.mono (h : Commits x s Q) (hq : ∀ a s', Q a s' → Q' a s') : Commits x s Q' :=
  fun a s' he => hq a s' (h a s' he)

theorem Commits.and (h : Commits x s Q) (h' : Commits x s Q') :
    Commits x s fun a s' => Q a s' ∧ Q' a s' :=
  fun a s' he => ⟨h a s' he, h' a s' he⟩

theorem Commits.bind {f : α → Tx σ ε β} {P : α → σ → Prop} {Q : β → σ → Prop} (hx : Commits x s P)
    (hf : ∀ a s', P a s' → Commits (f a) s' Q) : Commits (x >>= f) s Q :=
  (commits_bind x f s Q).mpr (hx.mono hf)

/-! ### Loops -/

theorem commits_forEach {f : β → Tx σ ε Unit} {I : σ → Prop}
    (h : ∀ x ∈ xs, ∀ s, I s → Commits (f x) s fun _ s' => I s') (s : σ) (hs : I s) :
    Commits (forEach xs f) s fun _ s' => I s' := by
  induction xs generalizing s with
  | nil => simpa [forEach] using hs
  | cons x xs ih =>
    simp only [forEach]
    refine Commits.bind (h x (by simp) s hs) ?_
    intro _ s' hs'
    exact ih (fun y hy => h y (by simp [hy])) s' hs'

theorem commits_foldEach {f : γ → β → Tx σ ε γ} {I : γ → σ → Prop}
    (h : ∀ x ∈ xs, ∀ c s, I c s → Commits (f c x) s I) (c : γ) (s : σ) (hs : I c s) :
    Commits (foldEach xs c f) s I := by
  induction xs generalizing c s with
  | nil => simpa [foldEach] using hs
  | cons x xs ih =>
    simp only [foldEach]
    refine Commits.bind (h x (by simp) c s hs) ?_
    intro c' s' hs'
    exact ih (fun y hy => h y (by simp [hy])) c' s' hs'

/-- Counting the statements that hit: a statement hits if and only if it can, and one that does not
leaves the state alone. -/
theorem commits_foldEach_count {f : β → Tx σ ε Bool} {p : σ → β → Bool}
    (h : ∀ x s, Commits (f x) s fun hit s' => hit = p s x ∧ (hit = false → s' = s)) (n : Nat)
    (s : σ) :
    Commits (foldEach xs n fun k x => do
      let hit ← f x
      pure (if hit then k + 1 else k)) s fun m _ =>
      n ≤ m ∧ (n < m ↔ ∃ x ∈ xs, p s x = true) := by
  induction xs generalizing n s with
  | nil => simp [foldEach]
  | cons x xs ih =>
    simp only [foldEach, commits_bind, commits_pure]
    refine (h x s).mono fun hit s' hhit => ?_
    cases hit with
    | true =>
      refine (ih (n + 1) s').mono fun m _ hm => ⟨by omega, fun _ => ?_, fun _ => by omega⟩
      exact ⟨x, List.mem_cons_self, hhit.1.symm⟩
    | false =>
      obtain rfl : s' = s := hhit.2 rfl
      refine (ih n s').mono fun m _ hm => ⟨hm.1, hm.2.trans ?_⟩
      simp [← hhit.1]

theorem commits_foldEach_rest {f : γ → β → Tx σ ε γ} {I : List β → γ → σ → Prop}
    (h : ∀ x xs c s, I (x :: xs) c s → Commits (f c x) s (I xs)) (xs : List β) (c : γ) (s : σ)
    (hs : I xs c s) : Commits (foldEach xs c f) s (I []) := by
  induction xs generalizing c s with
  | nil => simpa [foldEach] using hs
  | cons x xs ih =>
    simp only [foldEach]
    exact Commits.bind (h x xs c s hs) fun c' s' hs' => ih c' s' hs'

theorem commits_forEach_rest {f : β → Tx σ ε Unit} {I : List β → σ → Prop}
    (h : ∀ x xs s, I (x :: xs) s → Commits (f x) s fun _ => I xs) (xs : List β) (s : σ)
    (hs : I xs s) : Commits (forEach xs f) s fun _ => I [] := by
  induction xs generalizing s with
  | nil => simpa [forEach] using hs
  | cons x xs ih =>
    simp only [forEach]
    exact Commits.bind (h x xs s hs) fun _ s' hs' => ih s' hs'

/-! ### Kept relations -/

section

variable {R : σ → σ → Prop}

@[simp] theorem keeps_pure [Std.Refl R] (a : α) : Keeps R (pure a : Tx σ ε α) :=
  fun s => (commits_pure a s _).mpr (Std.Refl.refl s)

@[simp] theorem keeps_read [Std.Refl R] (f : σ → β) : Keeps R (read f : Tx σ ε β) :=
  fun s => (commits_read f s _).mpr (Std.Refl.refl s)

@[simp] theorem keeps_fail (e : ε) : Keeps R (fail e : Tx σ ε α) :=
  fun s => (commits_fail e s _).mpr trivial

@[simp] theorem keeps_require [Std.Refl R] (c : Prop) [Decidable c] (e : ε) :
    Keeps R (require c e : Tx σ ε Unit) :=
  fun s => (commits_require c e s _).mpr fun _ => Std.Refl.refl s

@[simp] theorem keeps_write (f : σ → σ) : Keeps R (write f : Tx σ ε Unit) ↔ ∀ s, R s (f s) :=
  forall_congr' fun s => commits_write f s _

variable {x : Tx σ ε α}

@[simp] theorem keeps_bind [IsTrans σ R] {f : α → Tx σ ε β} (hx : Keeps R x)
    (hf : ∀ a, Keeps R (f a)) : Keeps R (x >>= f) := by
  intro s
  refine (hx s).bind fun a s' hs' => (hf a s').mono fun _ s'' hs'' => ?_
  exact IsTrans.trans s s' s'' hs' hs''

@[simp] theorem keeps_map {g : α → β} (hx : Keeps R x) : Keeps R (g <$> x) := by
  intro s
  rw [commits_map]
  exact hx s

@[simp] theorem keeps_ite {c : Prop} [Decidable c] {y : Tx σ ε α} (hx : c → Keeps R x)
    (hy : ¬ c → Keeps R y) : Keeps R (if c then x else y) := by
  split
  · exact hx ‹_›
  · exact hy ‹_›

@[simp] theorem keeps_forEach [Std.Refl R] [IsTrans σ R] {xs : List β} {f : β → Tx σ ε Unit}
    (h : ∀ x, Keeps R (f x)) : Keeps R (forEach xs f) := by
  intro s
  refine commits_forEach (fun x _ s' hs' => (h x s').mono fun _ s'' hs'' => ?_) s (Std.Refl.refl s)
  exact IsTrans.trans s s' s'' hs' hs''

@[simp] theorem keeps_foldEach [Std.Refl R] [IsTrans σ R] {xs : List β} {c : γ}
    {f : γ → β → Tx σ ε γ} (h : ∀ c x, Keeps R (f c x)) : Keeps R (foldEach xs c f) := by
  intro s
  refine commits_foldEach (I := fun _ s' => R s s')
    (fun x _ c s' hs' => (h c x s').mono fun _ s'' hs'' => ?_) c s (Std.Refl.refl s)
  exact IsTrans.trans s s' s'' hs' hs''

end

/-! ### Parts of the state -/

theorem commits_zoom (view : σ → Option τ) (put : τ → σ → σ) (missing : ε) (x : Tx τ ε α)
    (s : σ) (Q : α → σ → Prop) :
    Commits (zoom view put missing x) s Q ↔
      ∀ t, view s = some t → Commits x t fun a t' => Q a (put t' s) := by
  unfold Commits zoom
  cases hv : view s with
  | none => simp
  | some t =>
    cases hx : x t with
    | error e => simp [hx]
    | ok r =>
      obtain ⟨a, t'⟩ := r
      simp [hx]

/-! ### Total correctness -/

theorem Ensures.mono (h : Ensures x s Q) (hq : ∀ a s', Q a s' → Q' a s') : Ensures x s Q' := by
  obtain ⟨a, s', he, h⟩ := h
  exact ⟨a, s', he, hq a s' h⟩

theorem Ensures.and_commits (h : Ensures x s Q) (h' : Commits x s Q') :
    Ensures x s fun a s' => Q a s' ∧ Q' a s' := by
  obtain ⟨a, s', he, h⟩ := h
  exact ⟨a, s', he, h, h' a s' he⟩

@[simp] theorem ensures_pure (a : α) (s : σ) (Q : α → σ → Prop) :
    Ensures (pure a : Tx σ ε α) s Q ↔ Q a s := by
  constructor
  · rintro ⟨_, _, he, h⟩
    cases he
    exact h
  · exact fun h => ⟨a, s, rfl, h⟩

@[simp] theorem ensures_read (f : σ → β) (s : σ) (Q : β → σ → Prop) :
    Ensures (read f : Tx σ ε β) s Q ↔ Q (f s) s := by
  constructor
  · rintro ⟨_, _, he, h⟩
    cases he
    exact h
  · exact fun h => ⟨f s, s, rfl, h⟩

@[simp] theorem ensures_write (f : σ → σ) (s : σ) (Q : Unit → σ → Prop) :
    Ensures (write f : Tx σ ε Unit) s Q ↔ Q () (f s) := by
  constructor
  · rintro ⟨_, _, he, h⟩
    cases he
    exact h
  · exact fun h => ⟨(), f s, rfl, h⟩

@[simp] theorem ensures_fail (e : ε) (s : σ) (Q : α → σ → Prop) :
    Ensures (fail e : Tx σ ε α) s Q ↔ False :=
  iff_of_false (fun ⟨_, _, he, _⟩ => nomatch he) id

@[simp] theorem ensures_bind (x : Tx σ ε α) (f : α → Tx σ ε β) (s : σ) (Q : β → σ → Prop) :
    Ensures (x >>= f) s Q ↔ Ensures x s fun a s' => Ensures (f a) s' Q := by
  unfold Ensures
  simp only [bind, StateT.bind, Except.bind]
  cases x s with
  | error e => simp
  | ok r =>
    obtain ⟨a, s'⟩ := r
    simp

@[simp] theorem ensures_map (g : α → β) (x : Tx σ ε α) (s : σ) (Q : β → σ → Prop) :
    Ensures (g <$> x) s Q ↔ Ensures x s fun a s' => Q (g a) s' := by
  rw [← bind_pure_comp, ensures_bind]
  simp only [ensures_pure]

@[simp] theorem ensures_require (c : Prop) [Decidable c] (e : ε) (s : σ) (Q : Unit → σ → Prop) :
    Ensures (require c e : Tx σ ε Unit) s Q ↔ c ∧ Q () s := by
  unfold require
  split <;> simp_all

@[simp] theorem ensures_ite (c : Prop) [Decidable c] (x y : Tx σ ε α) (s : σ)
    (Q : α → σ → Prop) :
    Ensures (if c then x else y) s Q ↔ (c → Ensures x s Q) ∧ (¬ c → Ensures y s Q) := by
  split <;> simp_all

theorem Ensures.bind {f : α → Tx σ ε β} {P : α → σ → Prop} {Q : β → σ → Prop} (hx : Ensures x s P)
    (hf : ∀ a s', P a s' → Ensures (f a) s' Q) : Ensures (x >>= f) s Q :=
  (ensures_bind x f s Q).mpr (hx.mono hf)

theorem ensures_zoom (view : σ → Option τ) (put : τ → σ → σ) (missing : ε) (x : Tx τ ε α)
    (s : σ) (Q : α → σ → Prop) :
    Ensures (zoom view put missing x) s Q ↔
      ∃ t, view s = some t ∧ Ensures x t fun a t' => Q a (put t' s) := by
  unfold Ensures zoom
  cases hv : view s with
  | none => simp
  | some t =>
    cases hx : x t with
    | error e => simp [hx]
    | ok r =>
      obtain ⟨a, t'⟩ := r
      simp [hx]

/-- A loop that visits every row that is not done leaves every row done. -/
theorem ensures_forEach_rows {κ ρ : Type} [DecidableEq κ] (find : σ → κ → Option ρ) (p : ρ → Bool)
    {J : σ → Prop} {D : ρ → Prop} {f : κ × ρ → Tx σ ε Unit} (hp : ∀ a, p a = true → D a)
    (hf : ∀ e s a, J s → find s e.1 = some a → p a = false → Ensures (f e) s fun _ s' => J s' ∧
      ∃ a', p a' = false ∧ D a' ∧ ∀ k, find s' k = if k = e.1 then some a' else find s k)
    {rows : List (κ × ρ)} {s : σ} (hJ : J s)
    (hrows : ∀ k a, (k, a) ∈ rows ↔ find s k = some a ∧ p a = false) :
    Ensures (forEach rows f) s fun _ s' => J s' ∧ ∀ k a, find s' k = some a → D a := by
  have hfound : ∀ e ∈ rows, ∃ a, find s e.1 = some a ∧ p a = false :=
    fun e he => ⟨e.2, (hrows e.1 e.2).mp he⟩
  have hdone : ∀ k a, find s k = some a → D a ∨ ∃ e ∈ rows, e.1 = k := by
    intro k a ha
    cases h : p a with
    | true => exact .inl (hp a h)
    | false => exact .inr ⟨(k, a), (hrows k a).mpr ⟨ha, h⟩, rfl⟩
  -- The induction carries that every row is done or still to come.
  clear hrows
  induction rows generalizing s with
  | nil => simpa [forEach, hJ] using hdone
  | cons e rows ih =>
    obtain ⟨a, ha, ho⟩ := hfound e List.mem_cons_self
    refine (hf e s a hJ ha ho).bind fun _ s' ⟨hJ', a', ho', hd, hfind⟩ => ih hJ' ?_ ?_
    · intro y hy
      rw [hfind]
      split
      · exact ⟨a', rfl, ho'⟩
      · exact hfound y (List.mem_cons_of_mem _ hy)
    · intro k b hb
      rw [hfind] at hb
      split at hb
      · exact .inl (Option.some.inj hb ▸ hd)
      · next hk => simpa [Ne.symm hk] using hdone k b hb

end Tx
end Deadbolt.Base

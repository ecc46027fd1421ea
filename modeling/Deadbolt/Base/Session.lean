import Deadbolt.Base.System

/-!
# Sessions under read committed

A transaction is a program of statements. Between two statements other sessions may commit, and
each statement sees the rows committed by then together with the session's own writes. A session
waits only for a row or index entry that another open session has claimed, and it keeps what it
claims until it ends.

`wp` is the weakest precondition of a program under a rely: what other sessions may commit while
this one holds its claims. A `Discipline` gives every request a postcondition that its program
meets under the rely from any committed state within an invariant, and that is itself no more than
the rely of any session with other claims. Every commit of every interleaving then meets its
postcondition, which is the induction that `Discipline.invariant` packages. `run` is the sequential
meaning, and `exec_alone` says that a session without competition ends with it.
-/

namespace Deadbolt.Base

/-- The statements that a transaction has yet to execute: on claims `κ` and a state `σ`, ending
in a commit of an `α` or a rollback with an `ε`. -/
inductive Program (κ σ ε α : Type) : Type
  | done (a : α)
  | fail (e : ε)
  /-- Wait until no other session claims `k`; keep it if the statement finds `p`. This is a
  `SELECT … FOR UPDATE` that may find no row, or an insert that may find its key taken. -/
  | claim (k : κ) (p : σ → Bool) (next : Bool → Program κ σ ε α)
  | query (next : σ → Program κ σ ε α)
  | write (f : σ → σ) (next : Program κ σ ε α)

namespace Program

variable {κ κ' σ τ ε ε' α β : Type}

/-- The statements of one program, then those of another. -/
def bind : Program κ σ ε α → (α → Program κ σ ε β) → Program κ σ ε β
  | done a, f => f a
  | fail e, _ => fail e
  | claim k p next, f => claim k p fun b => (next b).bind f
  | query next, f => query fun s => (next s).bind f
  | write g next, f => write g (next.bind f)

instance : Monad (Program κ σ ε) where
  pure := done
  bind := bind

def read (f : σ → β) : Program κ σ ε β := query fun s => done (f s)

def modify (f : σ → σ) : Program κ σ ε Unit := write f (done ())

def require (c : Prop) [Decidable c] (e : ε) : Program κ σ ε Unit :=
  if c then done () else fail e

/-- A program whose failure the caller looks at: nothing is rolled back. -/
def attempt : Program κ σ ε' α → Program κ σ ε (Except ε' α)
  | done a => done (.ok a)
  | fail e => done (.error e)
  | claim k p next => claim k p fun b => (next b).attempt
  | query next => query fun s => (next s).attempt
  | write f next => write f next.attempt

/-- A program on the second part of a state, with its own claims and errors. -/
def zoom (err : ε' → ε) : Program κ' τ ε' α → Program (κ ⊕ κ') (σ × τ) ε α
  | done a => done a
  | fail e => fail (err e)
  | claim k p next => claim (.inr k) (fun s => p s.2) fun b => (next b).zoom err
  | query next => query fun s => (next s.2).zoom err
  | write f next => write (fun s => (s.1, f s.2)) (next.zoom err)

/-- The program without competition. -/
def run : Program κ σ ε α → σ → Except ε (α × σ)
  | done a, s => .ok (a, s)
  | fail e, _ => .error e
  | claim _ p next, s => (next (p s)).run s
  | query next, s => (next s).run s
  | write f next, s => next.run (f s)

@[simp] theorem pure_eq (a : α) : (pure a : Program κ σ ε α) = done a := rfl

@[simp] theorem bind_eq (p : Program κ σ ε α) (f : α → Program κ σ ε β) :
    (p >>= f) = p.bind f := rfl

@[simp] theorem run_done (a : α) (s : σ) : (done a : Program κ σ ε α).run s = .ok (a, s) := rfl

@[simp] theorem run_fail (e : ε) (s : σ) : (fail e : Program κ σ ε α).run s = .error e := rfl

@[simp] theorem run_claim (k : κ) (p : σ → Bool) (next : Bool → Program κ σ ε α) (s : σ) :
    (claim k p next).run s = (next (p s)).run s := rfl

@[simp] theorem run_read (f : σ → β) (s : σ) :
    (read f : Program κ σ ε β).run s = .ok (f s, s) := rfl

@[simp] theorem run_modify (f : σ → σ) (s : σ) :
    (modify f : Program κ σ ε Unit).run s = .ok ((), f s) := rfl

theorem run_bind (p : Program κ σ ε α) (f : α → Program κ σ ε β) (s : σ) :
    (p.bind f).run s =
      match p.run s with
      | .ok (a, s') => (f a).run s'
      | .error e => .error e := by
  induction p generalizing s with
  | done a => rfl
  | fail e => rfl
  | claim k p next ih => exact ih _ s
  | query next ih => exact ih s s
  | write g next ih => exact ih (g s)

theorem run_bind_ok {p : Program κ σ ε α} {f : α → Program κ σ ε β} {s : σ} {x : β × σ} :
    (p.bind f).run s = .ok x ↔ ∃ a s', p.run s = .ok (a, s') ∧ (f a).run s' = .ok x := by
  rw [run_bind]
  split
  · next a s' h => simp [h]
  · next e h => simp [h]

theorem run_require_ok {c : Prop} [Decidable c] {e : ε} {s : σ} {x : Unit × σ} :
    (require c e : Program κ σ ε Unit).run s = .ok x ↔ c ∧ ((), s) = x := by
  unfold require
  split <;> simp [*]

theorem run_zoom (err : ε' → ε) (p : Program κ' τ ε' α) (s : σ × τ) :
    (p.zoom err : Program (κ ⊕ κ') (σ × τ) ε α).run s =
      match p.run s.2 with
      | .ok (a, t) => .ok (a, (s.1, t))
      | .error e => .error (err e) := by
  induction p generalizing s with
  | done a => rfl
  | fail e => rfl
  | claim k p next ih => exact ih _ s
  | query next ih => exact ih _ s
  | write f next ih => exact ih (s.1, f s.2)

/-! ### Weakest preconditions -/

end Program

/-- What other sessions may commit while a session holds its claims. -/
structure Rely (κ σ : Type) where
  Allows : Set κ → σ → σ → Prop
  refl : ∀ held s, Allows held s s
  trans : ∀ {held s s' s''}, Allows held s s' → Allows held s' s'' → Allows held s s''

/-- The rely of two parts with their own claims. -/
def Rely.both {κ κ' σ τ : Type} (first : Rely κ σ) (second : Rely κ' τ) :
    Rely (κ ⊕ κ') (σ × τ) where
  Allows held s s' := first.Allows (Set.preimage Sum.inl held) s.1 s'.1 ∧
    second.Allows (Set.preimage Sum.inr held) s.2 s'.2
  refl _ _ := ⟨first.refl _ _, second.refl _ _⟩
  trans h h' := ⟨first.trans h.1 h'.1, second.trans h.2 h'.2⟩

@[simp] theorem Rely.both_allows {κ κ' σ τ : Type} {first : Rely κ σ} {second : Rely κ' τ}
    {held : Set (κ ⊕ κ')} {s s' : σ × τ} : (first.both second).Allows held s s' ↔
      first.Allows (Set.preimage Sum.inl held) s.1 s'.1 ∧
        second.Allows (Set.preimage Sum.inr held) s.2 s'.2 := Iff.rfl

/-- No assumption about other sessions. -/
def Rely.any (κ σ : Type) : Rely κ σ where
  Allows _ _ _ := True
  refl _ _ := trivial
  trans _ _ := trivial

/-- Where a session stands between two statements: what it claims, what it has written, and what
is committed. -/
structure Standing (κ σ : Type) where
  held : Set κ
  pending : σ → σ
  committed : σ

namespace Program

variable {κ κ' σ τ ε ε' α β : Type}

/-- Every end of the program satisfies `Q`, whatever the rely lets other sessions commit before
each statement that looks at the committed state. -/
def wp (R : Rely κ σ) :
    Program κ σ ε α → (Except ε α → Standing κ σ → Prop) → Standing κ σ → Prop
  | done a, Q, c => Q (.ok a) c
  | fail e, Q, c => Q (.error e) c
  | claim k p next, Q, c => ∀ s, R.Allows c.held c.committed s →
      (next (p (c.pending s))).wp R Q
        ⟨if p (c.pending s) then insert k c.held else c.held, c.pending, s⟩
  | query next, Q, c => ∀ s, R.Allows c.held c.committed s →
      (next (c.pending s)).wp R Q ⟨c.held, c.pending, s⟩
  | write f next, Q, c => next.wp R Q ⟨c.held, fun s => f (c.pending s), c.committed⟩

variable {R : Rely κ σ} {c : Standing κ σ}

@[simp] theorem wp_done (a : α) (Q : Except ε α → Standing κ σ → Prop) :
    (done a).wp R Q c ↔ Q (.ok a) c := Iff.rfl

@[simp] theorem wp_fail (e : ε) (Q : Except ε α → Standing κ σ → Prop) :
    (fail e).wp R Q c ↔ Q (.error e) c := Iff.rfl

@[simp] theorem wp_claim (k : κ) (p : σ → Bool) (next : Bool → Program κ σ ε α)
    (Q : Except ε α → Standing κ σ → Prop) :
    (claim k p next).wp R Q c ↔ ∀ s, R.Allows c.held c.committed s →
      (next (p (c.pending s))).wp R Q
        ⟨if p (c.pending s) then insert k c.held else c.held, c.pending, s⟩ :=
  Iff.rfl

@[simp] theorem wp_read (f : σ → β) (Q : Except ε β → Standing κ σ → Prop) :
    (read f).wp R Q c ↔ ∀ s, R.Allows c.held c.committed s →
      Q (.ok (f (c.pending s))) ⟨c.held, c.pending, s⟩ := Iff.rfl

@[simp] theorem wp_modify (f : σ → σ) (Q : Except ε Unit → Standing κ σ → Prop) :
    (modify f).wp R Q c ↔ Q (.ok ()) ⟨c.held, fun s => f (c.pending s), c.committed⟩ := Iff.rfl

@[simp] theorem wp_require (p : Prop) [Decidable p] (e : ε)
    (Q : Except ε Unit → Standing κ σ → Prop) :
    (require p e).wp R Q c ↔ (p → Q (.ok ()) c) ∧ (¬p → Q (.error e) c) := by
  unfold require
  split <;> simp [*]

/-- A sequence reaches its end through the end of its first part. -/
@[simp] theorem wp_bind (p : Program κ σ ε α) (f : α → Program κ σ ε β)
    (Q : Except ε β → Standing κ σ → Prop) :
    (p.bind f).wp R Q c ↔ p.wp R
      (fun res c => match res with
        | .ok a => (f a).wp R Q c
        | .error e => Q (.error e) c) c := by
  induction p generalizing c with
  | done a => exact Iff.rfl
  | fail e => exact Iff.rfl
  | claim k p next ih => exact forall₂_congr fun s _ => ih _
  | query next ih => exact forall₂_congr fun s _ => ih _
  | write g next ih => exact ih

@[simp] theorem wp_attempt (p : Program κ σ ε' α)
    (Q : Except ε (Except ε' α) → Standing κ σ → Prop) :
    p.attempt.wp R Q c ↔ p.wp R (fun res c => Q (.ok res) c) c := by
  induction p generalizing c with
  | done a => exact Iff.rfl
  | fail e => exact Iff.rfl
  | claim k p next ih => exact forall₂_congr fun s _ => ih _
  | query next ih => exact forall₂_congr fun s _ => ih _
  | write g next ih => exact ih

variable {p : Program κ σ ε α} {Q : Except ε α → Standing κ σ → Prop} {W : σ → σ → Prop}

theorem wp_mono {Q' : Except ε α → Standing κ σ → Prop} (hq : ∀ res c, Q res c → Q' res c)
    (h : p.wp R Q c) : p.wp R Q' c := by
  induction p generalizing c with
  | done a => exact hq _ _ h
  | fail e => exact hq _ _ h
  | claim k p next ih => exact fun s hs => ih _ (h s hs)
  | query next ih => exact fun s hs => ih _ (h s hs)
  | write g next ih => exact ih h

theorem wp_trivial (p : Program κ σ ε α) (R : Rely κ σ) (c : Standing κ σ) :
    p.wp R (fun _ _ => True) c := by
  induction p generalizing c with
  | done a => trivial
  | fail e => trivial
  | claim k p next ih => exact fun s _ => ih _ _
  | query next ih => exact fun s _ => ih _ _
  | write g next ih => exact ih _

theorem wp_stable (hq : ∀ res (c : Standing κ σ) s, R.Allows c.held c.committed s → Q res c →
      Q res ⟨c.held, c.pending, s⟩) (h : p.wp R Q c) {s : σ} (hs : R.Allows c.held c.committed s) :
    p.wp R Q ⟨c.held, c.pending, s⟩ := by
  induction p generalizing c with
  | done a => exact hq _ _ _ hs h
  | fail e => exact hq _ _ _ hs h
  | claim k p next ih => exact fun s' hs' => h s' (R.trans hs hs')
  | query next ih => exact fun s' hs' => h s' (R.trans hs hs')
  | write g next ih => exact ih h hs

/-- Every write of the program relates the states before and after it. -/
def Writes (W : σ → σ → Prop) : Program κ σ ε α → Prop
  | done _ => True
  | fail _ => True
  | claim _ _ next => ∀ b, (next b).Writes W
  | query next => ∀ s, (next s).Writes W
  | write f next => (∀ s, W s (f s)) ∧ next.Writes W

@[simp] theorem writes_read (W : σ → σ → Prop) (f : σ → β) :
    (read f : Program κ σ ε β).Writes W := fun _ => trivial

@[simp] theorem writes_modify (W : σ → σ → Prop) (f : σ → σ) :
    (modify f : Program κ σ ε Unit).Writes W ↔ ∀ s, W s (f s) := and_iff_left trivial

@[simp] theorem writes_require (W : σ → σ → Prop) (c : Prop) [Decidable c] (e : ε) :
    (require c e : Program κ σ ε Unit).Writes W := by
  unfold require
  split <;> trivial

theorem Writes.bind {f : α → Program κ σ ε β} (h : p.Writes W) (hf : ∀ a, (f a).Writes W) :
    (p.bind f).Writes W := by
  induction p with
  | done a => exact hf a
  | fail e => trivial
  | claim k p next ih => exact fun b => ih b (h b)
  | query next ih => exact fun s => ih s (h s)
  | write g next ih => exact ⟨h.1, ih h.2⟩

/-- What every write relates, the whole program does. -/
theorem Writes.wp (h : p.Writes W) (htrans : ∀ {s s' s''}, W s s' → W s' s'' → W s s'')
    (R : Rely κ σ) {c : Standing κ σ} (hc : ∀ s, W s (c.pending s)) :
    p.wp R (fun _ c => ∀ s, W s (c.pending s)) c := by
  induction p generalizing c with
  | done a => exact hc
  | fail e => exact hc
  | claim k p next ih => exact fun s _ => ih _ (h _) hc
  | query next ih => exact fun s _ => ih _ (h _) hc
  | write g next ih => exact ih h.2 fun s => htrans (hc s) (h.1 _)

/-- A program that commits alone relates the states before and after it. -/
theorem Writes.run (h : p.Writes W) (hrefl : ∀ s, W s s)
    (htrans : ∀ {s s' s''}, W s s' → W s' s'' → W s s'') {s s' : σ} {a : α}
    (hrun : p.run s = .ok (a, s')) : W s s' := by
  induction p generalizing s with
  | done b =>
    cases hrun
    exact hrefl _
  | fail e => cases hrun
  | claim k p next ih => exact ih _ (h _) hrun
  | query next ih => exact ih _ (h _) hrun
  | write g next ih => exact htrans (h.1 s) (ih h.2 hrun)

theorem run_of_wp {held : Set κ} {f : σ → σ} {s s' : σ} {a : α} (h : p.wp R Q ⟨held, f, s⟩)
    (hrun : p.run (f s) = .ok (a, s')) : ∃ held' f', f' s = s' ∧ Q (.ok a) ⟨held', f', s⟩ := by
  induction p generalizing held f with
  | done b =>
    cases hrun
    exact ⟨held, f, rfl, h⟩
  | fail e => cases hrun
  | claim k p next ih => exact ih _ (h s (R.refl _ _)) hrun
  | query next ih => exact ih _ (h s (R.refl _ _)) hrun
  | write g next ih => exact ih h hrun

theorem preimage_inl_claim (b : Bool) (k : κ') (held : Set (κ ⊕ κ')) :
    Set.preimage Sum.inl (if b then insert (Sum.inr k) held else held) =
      Set.preimage Sum.inl held := by
  cases b
  · rfl
  · ext x
    simp

theorem preimage_inr_claim (b : Bool) (k : κ') (held : Set (κ ⊕ κ')) :
    Set.preimage Sum.inr (if b then insert (Sum.inr k) held else held) =
      if b then insert k (Set.preimage Sum.inr held) else Set.preimage Sum.inr held := by
  cases b
  · rfl
  · ext x
    simp

/-- A program on the second part leaves claims and writes of the first part as they are, and is
judged by the rely of its own part. -/
theorem wp_zoom {first : Rely κ σ} {second : Rely κ' τ} {err : ε' → ε}
    {p : Program κ' τ ε' α} {Q : Except ε α → Standing (κ ⊕ κ') (σ × τ) → Prop}
    {Q' : Except ε' α → Standing κ' τ → Prop} {f : σ → σ} {g : τ → τ}
    {held : Set (κ ⊕ κ')} {s : σ × τ}
    (h : p.wp second Q' ⟨Set.preimage Sum.inr held, g, s.2⟩)
    (hQ : ∀ res held' g' s', Set.preimage Sum.inl held' = Set.preimage Sum.inl held →
      first.Allows (Set.preimage Sum.inl held) s.1 s'.1 →
      Q' res ⟨Set.preimage Sum.inr held', g', s'.2⟩ →
      Q (res.mapError err) ⟨held', Prod.map f g', s'⟩) :
    (p.zoom err).wp (first.both second) Q ⟨held, Prod.map f g, s⟩ := by
  induction p generalizing held g s with
  | done a => exact hQ (.ok a) held g s rfl (first.refl _ _) h
  | fail e => exact hQ (.error e) held g s rfl (first.refl _ _) h
  | claim k p next ih =>
    intro s' hs
    rw [Rely.both_allows] at hs
    refine ih _ (preimage_inr_claim (p (g s'.2)) k held ▸ h s'.2 hs.2) ?_
    intro res held' g' s'' hheld hrely hres
    have hinl := preimage_inl_claim (p (g s'.2)) k held
    exact hQ res held' g' s'' (hheld.trans hinl) (first.trans hs.1 (hinl ▸ hrely)) hres
  | query next ih =>
    intro s' hs
    rw [Rely.both_allows] at hs
    refine ih _ (h s'.2 hs.2) ?_
    intro res held' g' s'' hheld hrely hres
    exact hQ res held' g' s'' hheld (first.trans hs.1 hrely) hres
  | write u next ih => exact ih h hQ

end Program

/-! ### Sessions -/

structure Session (ρ κ σ ε α : Type) where
  request : ρ
  program : Program κ σ ε α
  pending : σ → σ

/-- A database with its open sessions, the session that holds each claim, and the requests that
have ended so far with their results. -/
structure Pool (ρ κ σ ε α : Type) where
  committed : σ
  sessions : Nat → Option (Session ρ κ σ ε α)
  owner : κ → Option Nat
  finished : List (ρ × Except ε α)

/-- What the scheduler chooses: a request starts, a session executes its next statement, or its
connection is lost. -/
inductive SessionStep (ρ : Type)
  | start (i : Nat) (r : ρ)
  | advance (i : Nat)
  | abort (i : Nat)

namespace Pool

variable {ρ κ σ ε α : Type}

def idle (s : σ) : Pool ρ κ σ ε α := ⟨s, fun _ => none, fun _ => none, []⟩

def held (P : Pool ρ κ σ ε α) (i : Nat) : Set κ := { k | P.owner k = some i }

def close (P : Pool ρ κ σ ε α) (i : Nat) : Pool ρ κ σ ε α :=
  { P with
    sessions := Function.update P.sessions i none
    owner := fun k => if P.owner k = some i then none else P.owner k }

/-- The session ends with a result: a commit makes its writes visible. -/
def finish (P : Pool ρ κ σ ε α) (i : Nat) (S : Session ρ κ σ ε α) (res : Except ε α) :
    Pool ρ κ σ ε α :=
  { P.close i with
    committed := if res.isOk then S.pending P.committed else P.committed
    finished := P.finished ++ [(S.request, res)] }

def resume (P : Pool ρ κ σ ε α) (i : Nat) (S : Session ρ κ σ ε α) : Pool ρ κ σ ε α :=
  { P with sessions := Function.update P.sessions i (some S) }

@[simp] theorem sessions_resume (P : Pool ρ κ σ ε α) (i : Nat) (S : Session ρ κ σ ε α) :
    (P.resume i S).sessions i = some S := by
  simp [resume]

variable [DecidableEq κ]

/-- The session keeps a claim. -/
def grant (P : Pool ρ κ σ ε α) (i : Nat) (k : κ) : Pool ρ κ σ ε α :=
  { P with owner := Function.update P.owner k (some i) }

/-- The next statement of a session; a claim of another session makes it wait. -/
def advance (P : Pool ρ κ σ ε α) (i : Nat) (S : Session ρ κ σ ε α) : Pool ρ κ σ ε α :=
  match S.program with
  | .done a => P.finish i S (.ok a)
  | .fail e => P.finish i S (.error e)
  | .claim k p next =>
    if P.owner k = none ∨ P.owner k = some i then
      let found := p (S.pending P.committed)
      (if found then P.grant i k else P).resume i { S with program := next found }
    else P
  | .query next => P.resume i { S with program := next (S.pending P.committed) }
  | .write f next => P.resume i { S with program := next, pending := fun s => f (S.pending s) }

/-- The sessions of the programs that answer requests. -/
def system (body : ρ → Program κ σ ε α) : System (Pool ρ κ σ ε α) (SessionStep ρ) where
  step P a :=
    match a with
    | .start i r => if (P.sessions i).isSome then P else P.resume i ⟨r, body r, id⟩
    | .advance i =>
      match P.sessions i with
      | none => P
      | some S => P.advance i S
    | .abort i => P.close i

end Pool

/-- An invariant of the committed state, a rely, and for every request a postcondition on its
claims, its result and the committed states before and after it. Every program meets its
postcondition, which keeps the invariant, and what one request commits is within the rely of any
session with other claims. -/
structure Discipline {ρ κ σ ε α : Type} (body : ρ → Program κ σ ε α) where
  inv : σ → Prop
  rely : Rely κ σ
  post : ρ → Set κ → Except ε α → σ → σ → Prop
  meets : ∀ r s, inv s → (body r).wp rely
    (fun res c => ∀ s', rely.Allows c.held c.committed s' →
      post r c.held res s' (if res.isOk then c.pending s' else s')) ⟨∅, id, s⟩
  keeps : ∀ {r held res s s'}, inv s → post r held res s s' → inv s'
  apart : ∀ {r held held' res s s'}, inv s → Disjoint held held' → post r held' res s s' →
    rely.Allows held s s'

namespace Discipline

variable {ρ κ σ ε α : Type} {body : ρ → Program κ σ ε α} (D : Discipline body)

/-- The end of a request meets its postcondition whenever it comes. -/
def Settles (r : ρ) (res : Except ε α) (c : Standing κ σ) : Prop :=
  ∀ s, D.rely.Allows c.held c.committed s →
    D.post r c.held res s (if res.isOk then c.pending s else s)

/-- The invariant holds, every open session is on its way to its postcondition, and only open
sessions hold claims. -/
structure Holds (P : Pool ρ κ σ ε α) : Prop where
  inv : D.inv P.committed
  session : ∀ i S, P.sessions i = some S →
    S.program.wp D.rely (D.Settles S.request) ⟨P.held i, S.pending, P.committed⟩
  claims : ∀ k i, P.owner k = some i → (P.sessions i).isSome

variable {D} {P : Pool ρ κ σ ε α}

variable {s : σ} {j : Nat} {S : Session ρ κ σ ε α} {res : Except ε α}

theorem holds_idle (hs : D.inv s) : D.Holds (Pool.idle s) :=
  ⟨hs, fun _ _ h => (nomatch h), fun _ _ h => (nomatch h)⟩

/-- A session on its way stays on its way while others commit within its rely. -/
theorem settles_stable {r : ρ} {p : Program κ σ ε α} {c : Standing κ σ}
    (h : p.wp D.rely (D.Settles r) c) (hs : D.rely.Allows c.held c.committed s) :
    p.wp D.rely (D.Settles r) ⟨c.held, c.pending, s⟩ :=
  Program.wp_stable (fun _ _ _ hs hq s' hs' => hq s' (D.rely.trans hs hs')) h hs

theorem held_disjoint (P : Pool ρ κ σ ε α) {i : Nat} (hij : i ≠ j) :
    Disjoint (P.held i) (P.held j) := by
  rw [Set.disjoint_left]
  intro k hi hj
  exact hij (Option.mem_unique hi hj)

theorem held_close (P : Pool ρ κ σ ε α) {i : Nat} (hij : j ≠ i) :
    (P.close i).held j = P.held j := by
  ext k
  simp only [Pool.held, Pool.close, Set.mem_ofPred_eq]
  split
  · next h => simp [h, Ne.symm hij]
  · exact Iff.rfl

theorem Holds.resume (h : D.Holds P) (P' : Pool ρ κ σ ε α) {i : Nat}
    (hc : P'.committed = P.committed) (hs : P'.sessions = P.sessions)
    (hheld : ∀ j ≠ i, P'.held j = P.held j)
    (hclaims : ∀ k j, P'.owner k = some j → j = i ∨ P.owner k = some j)
    (hS : S.program.wp D.rely (D.Settles S.request) ⟨P'.held i, S.pending, P.committed⟩) :
    D.Holds (P'.resume i S) := by
  refine ⟨hc ▸ h.inv, fun j S' hj => ?_, fun k j hk => ?_⟩
  · change S'.program.wp D.rely (D.Settles S'.request) ⟨P'.held j, S'.pending, P'.committed⟩
    rw [hc]
    by_cases hij : j = i
    · subst hij
      have he : S = S' := by simpa [Pool.resume] using hj
      exact he ▸ hS
    · rw [hheld j hij]
      exact h.session j S' (by simpa [Pool.resume, hij, hs] using hj)
  · by_cases hij : j = i
    · simp [Pool.resume, hij]
    · have hold := h.claims k j ((hclaims k j hk).resolve_left hij)
      simpa [Pool.resume, hij, hs] using hold

theorem Holds.resume_self (h : D.Holds P) {i : Nat}
    (hS : S.program.wp D.rely (D.Settles S.request) ⟨P.held i, S.pending, P.committed⟩) :
    D.Holds (P.resume i S) :=
  h.resume P rfl rfl (fun _ _ => rfl) (fun _ _ hk => .inr hk) hS

theorem Holds.close (h : D.Holds P) (i : Nat) (fin : List (ρ × Except ε α)) (hinv : D.inv s)
    (hs : ∀ j ≠ i, D.rely.Allows (P.held j) P.committed s) :
    D.Holds { P.close i with committed := s, finished := fin } := by
  refine ⟨hinv, fun j S hj => ?_, fun k j hk => ?_⟩
  · by_cases hij : j = i
    · simp [Pool.close, hij] at hj
    · have hold := h.session j S (by simpa [Pool.close, hij] using hj)
      have hheld : Pool.held { P.close i with committed := s, finished := fin } j = P.held j :=
        held_close P hij
      rw [hheld]
      exact settles_stable hold (hs j hij)
  · simp only [Pool.close] at hk ⊢
    split at hk
    · cases hk
    · next hne =>
      have hij : j ≠ i := fun he => hne (he ▸ hk)
      simpa [hij] using h.claims k j hk

/-- What a step may do: nothing that is committed, or the end of one request within its
postcondition. -/
def Moves (D : Discipline body) (P P' : Pool ρ κ σ ε α) : Prop :=
  (P'.committed = P.committed ∧ P'.finished = P.finished) ∨
    ∃ r held res, D.post r held res P.committed P'.committed ∧
      P'.finished = P.finished ++ [(r, res)]

theorem Holds.finish (h : D.Holds P) {i : Nat}
    (hS : D.Settles S.request res ⟨P.held i, S.pending, P.committed⟩) :
    D.Holds (P.finish i S res) ∧ D.Moves P (P.finish i S res) := by
  have hpost := hS P.committed (D.rely.refl _ _)
  refine ⟨h.close i _ (D.keeps h.inv hpost) fun j hij => ?_,
    .inr ⟨S.request, P.held i, res, hpost, rfl⟩⟩
  exact D.apart h.inv (held_disjoint P hij) hpost

variable [DecidableEq κ]

theorem held_grant (P : Pool ρ κ σ ε α) {i : Nat} {k : κ}
    (hk : P.owner k = none ∨ P.owner k = some i) :
    (P.grant i k).held i = insert k (P.held i) ∧ ∀ j ≠ i, (P.grant i k).held j = P.held j := by
  refine ⟨?_, fun j hij => ?_⟩
  · ext k'
    by_cases he : k' = k <;> simp [Pool.held, Pool.grant, he]
  · ext k'
    by_cases he : k' = k
    · have hne : P.owner k ≠ some j := by
        rcases hk with hk | hk <;> simp [hk, Ne.symm hij]
      simp [Pool.held, Pool.grant, he, hne, Ne.symm hij]
    · simp [Pool.held, Pool.grant, he]

theorem owner_grant (P : Pool ρ κ σ ε α) {i : Nat} {k k' : κ}
    (h : (P.grant i k).owner k' = some j) : j = i ∨ P.owner k' = some j := by
  by_cases he : k' = k
  · simp [Pool.grant, he] at h
    exact .inl h.symm
  · exact .inr (by simpa [Pool.grant, he] using h)

theorem Holds.advance (h : D.Holds P) {i : Nat} (hS : P.sessions i = some S) :
    D.Holds (P.advance i S) ∧ D.Moves P (P.advance i S) := by
  have hwp := h.session i S hS
  unfold Pool.advance
  split
  · next hp => exact h.finish (by simpa [hp] using hwp)
  · next hp => exact h.finish (by simpa [hp] using hwp)
  · next k p next hp =>
    rw [hp] at hwp
    split
    · next hk =>
      have hnext := hwp P.committed (D.rely.refl _ _)
      cases hb : p (S.pending P.committed)
      · rw [hb] at hnext
        exact ⟨h.resume_self hnext, .inl ⟨rfl, rfl⟩⟩
      · obtain ⟨hown, hother⟩ := held_grant P hk
        rw [hb, if_pos rfl, ← hown] at hnext
        exact ⟨h.resume (P.grant i k) rfl rfl hother (fun _ _ => owner_grant P) hnext,
          .inl ⟨rfl, rfl⟩⟩
    · exact ⟨h, .inl ⟨rfl, rfl⟩⟩
  · next next hp =>
    rw [hp] at hwp
    exact ⟨h.resume_self (hwp P.committed (D.rely.refl _ _)), .inl ⟨rfl, rfl⟩⟩
  · next f next hp =>
    rw [hp] at hwp
    exact ⟨h.resume_self hwp, .inl ⟨rfl, rfl⟩⟩

/-- One step keeps every session on its way, and commits at most within a postcondition. -/
theorem Holds.step (h : D.Holds P) (a : SessionStep ρ) :
    D.Holds ((Pool.system body).step P a) ∧ D.Moves P ((Pool.system body).step P a) := by
  cases a with
  | start i r =>
    simp only [Pool.system]
    split
    · exact ⟨h, .inl ⟨rfl, rfl⟩⟩
    · next hi =>
      have hheld : P.held i = ∅ := by
        ext k
        simpa [Pool.held] using fun hk => hi (h.claims k i hk)
      exact ⟨h.resume_self (hheld ▸ D.meets r P.committed h.inv), .inl ⟨rfl, rfl⟩⟩
  | advance i =>
    simp only [Pool.system]
    split
    · exact ⟨h, .inl ⟨rfl, rfl⟩⟩
    · next S hS => exact h.advance hS
  | abort i =>
    exact ⟨h.close i P.finished h.inv fun j _ => D.rely.refl _ _, .inl ⟨rfl, rfl⟩⟩

/-- The step that ends a request commits within its postcondition. -/
theorem Holds.post (h : D.Holds P) {a : SessionStep ρ} {r : ρ}
    (hf : ((Pool.system body).step P a).finished = P.finished ++ [(r, res)]) :
    ∃ held, D.post r held res P.committed ((Pool.system body).step P a).committed := by
  obtain ⟨-, hsame⟩ | ⟨r', held, res', hpost, hend⟩ := (h.step a).2
  · rw [hsame] at hf
    simp at hf
  · obtain ⟨rfl, rfl⟩ : r' = r ∧ res' = res := by simpa using hend.symm.trans hf
    exact ⟨held, hpost⟩

/-- Every interleaving keeps its sessions on their way. -/
theorem holds_exec (hs : D.inv s) (as : List (SessionStep ρ)) :
    D.Holds ((Pool.system body).exec (Pool.idle s) as) :=
  (Pool.system body).invariant_of_step (fun _ a h => (h.step a).1) (holds_idle hs) as

/-- What every postcondition keeps holds after every interleaving. -/
theorem invariant {J : σ → List (ρ × Except ε α) → Prop}
    (hpost : ∀ {r held res s s' fin}, D.inv s → J s fin → D.post r held res s s' →
      J s' (fin ++ [(r, res)])) (hinv : D.inv s) (hs : J s []) (as : List (SessionStep ρ)) :
    J ((Pool.system body).exec (Pool.idle s) as).committed
      ((Pool.system body).exec (Pool.idle s) as).finished := by
  have hboth := (Pool.system body).invariant_of_step
    (I := fun P => D.Holds P ∧ J P.committed P.finished) (fun P a h => ?_)
    (s := Pool.idle s) ⟨holds_idle hinv, hs⟩ as
  · exact hboth.2
  · obtain ⟨hold, hmove⟩ := h.1.step a
    refine ⟨hold, ?_⟩
    obtain ⟨hc, hf⟩ | ⟨r, held, res, hp, hf⟩ := hmove
    · rw [hc, hf]
      exact h.2
    · rw [hf]
      exact hpost h.1.inv h.2 hp

/-- The same discipline for some of the requests. -/
def comap {ρ' : Type} (g : ρ' → ρ) : Discipline fun r => body (g r) where
  inv := D.inv
  rely := D.rely
  post r := D.post (g r)
  meets r := D.meets (g r)
  keeps := D.keeps
  apart := D.apart

end Discipline

/-! ### Sessions without competition -/

namespace Pool

variable {ρ κ σ ε α : Type}

/-- A request has ended with the result of its program, its session is closed, and nothing is
claimed any more. -/
structure Answered (P : Pool ρ κ σ ε α) (i : Nat) (r : ρ) (res : Except ε (α × σ))
    (P' : Pool ρ κ σ ε α) : Prop where
  committed : P'.committed = match res with
    | .ok (_, s) => s
    | .error _ => P.committed
  finished : P'.finished = P.finished ++ [(r, res.map Prod.fst)]
  owner : ∀ k, P'.owner k = none
  sessions : P'.sessions = Function.update P.sessions i none

variable {P : Pool ρ κ σ ε α} {i : Nat} {r : ρ} {S : Session ρ κ σ ε α}

theorem Answered.of_resume {Q P' : Pool ρ κ σ ε α} {res : Except ε (α × σ)}
    (h : (Q.resume i S).Answered i r res P') (hc : Q.committed = P.committed)
    (hf : Q.finished = P.finished) (hs : Q.sessions = P.sessions) : P.Answered i r res P' where
  committed := by
    rw [← hc]
    exact h.committed
  finished := by
    rw [← hf]
    exact h.finished
  owner := h.owner
  sessions := by
    rw [h.sessions, ← hs]
    exact Function.update_idem _ _ _

theorem owner_close (hfree : ∀ k j, P.owner k = some j → j = i) (k : κ) :
    (P.close i).owner k = none := by
  change (if P.owner k = some i then none else P.owner k) = none
  split
  · rfl
  · next hne =>
    cases ho : P.owner k with
    | none => rfl
    | some j => exact absurd (hfree k j ho ▸ ho) hne

variable [DecidableEq κ] {body : ρ → Program κ σ ε α}

theorem step_advance (hS : P.sessions i = some S) :
    (system body).step P (.advance i) = P.advance i S := by
  simp [system, hS]

/-- Nothing has been committed and no request has ended, and the next statement of the session
answers its request. -/
structure Answering (body : ρ → Program κ σ ε α) (P : Pool ρ κ σ ε α) (i : Nat) (r : ρ)
    (res : Except ε (α × σ)) (P' : Pool ρ κ σ ε α) : Prop where
  committed : P'.committed = P.committed
  finished : P'.finished = P.finished
  answered : P.Answered i r res ((system body).step P' (.advance i))

theorem Answering.of_resume {Q P' : Pool ρ κ σ ε α} {res : Except ε (α × σ)}
    (h : Answering body (Q.resume i S) i r res P') (hc : Q.committed = P.committed)
    (hf : Q.finished = P.finished) (hs : Q.sessions = P.sessions) : Answering body P i r res P' :=
  ⟨h.committed.trans hc, h.finished.trans hf, h.answered.of_resume hc hf hs⟩

theorem advance_alone (body : ρ → Program κ σ ε α) (p : Program κ σ ε α) {w : σ → σ}
    (hS : P.sessions i = some ⟨r, p, w⟩) (hfree : ∀ k j, P.owner k = some j → j = i) :
    ∃ n, Answering body P i r (p.run (w P.committed))
      ((system body).exec P (List.replicate n (.advance i))) := by
  induction p generalizing P w with
  | done a =>
    refine ⟨0, rfl, rfl, ?_⟩
    rw [List.replicate_zero, System.exec_nil, step_advance hS]
    exact ⟨rfl, rfl, owner_close hfree, rfl⟩
  | fail e =>
    refine ⟨0, rfl, rfl, ?_⟩
    rw [List.replicate_zero, System.exec_nil, step_advance hS]
    exact ⟨rfl, rfl, owner_close hfree, rfl⟩
  | claim k p next ih =>
    have hk : P.owner k = none ∨ P.owner k = some i := by
      cases ho : P.owner k with
      | none => exact .inl rfl
      | some j => exact .inr (by rw [hfree k j ho])
    -- The claim may be kept or not; nothing else of the pool changes.
    have hnext : ∀ b, ∀ Q : Pool ρ κ σ ε α, Q.committed = P.committed → Q.finished = P.finished →
        Q.sessions = P.sessions → (∀ k' j, Q.owner k' = some j → j = i) →
        ∃ n, Answering body P i r ((next b).run (w P.committed))
          ((system body).exec (Q.resume i ⟨r, next b, w⟩) (List.replicate n (.advance i))) := by
      intro b Q hc hf hs ho
      obtain ⟨n, hn⟩ := ih b (sessions_resume Q i ⟨r, next b, w⟩) ho
      rw [← hc]
      exact ⟨n, hn.of_resume hc hf hs⟩
    have hadv : P.advance i ⟨r, .claim k p next, w⟩ =
        (if p (w P.committed) then P.grant i k else P).resume i
          ⟨r, next (p (w P.committed)), w⟩ := by
      simp [advance, hk]
    have hrun : ∃ n, Answering body P i r ((next (p (w P.committed))).run (w P.committed))
        ((system body).exec (P.advance i ⟨r, .claim k p next, w⟩)
          (List.replicate n (.advance i))) := by
      rw [hadv]
      cases p (w P.committed) with
      | false => exact hnext false P rfl rfl rfl hfree
      | true =>
        exact hnext true (P.grant i k) rfl rfl rfl
          fun k' j hj => (Discipline.owner_grant P hj).elim id (hfree k' j)
    obtain ⟨n, hn⟩ := hrun
    refine ⟨n + 1, ?_⟩
    rw [List.replicate_succ, System.exec_cons, step_advance hS]
    exact hn
  | query next ih =>
    obtain ⟨n, hn⟩ := ih (w P.committed)
      (sessions_resume P i ⟨r, next (w P.committed), w⟩) hfree
    refine ⟨n + 1, ?_⟩
    rw [List.replicate_succ, System.exec_cons, step_advance hS]
    exact hn.of_resume rfl rfl rfl
  | write f next ih =>
    obtain ⟨n, hn⟩ := ih (sessions_resume P i ⟨r, next, fun s => f (w s)⟩) hfree
    refine ⟨n + 1, ?_⟩
    rw [List.replicate_succ, System.exec_cons, step_advance hS]
    exact hn.of_resume rfl rfl rfl

/-- A request that starts while nothing is claimed, and is left alone, comes to its last
statement. -/
theorem exec_last (body : ρ → Program κ σ ε α) (hi : P.sessions i = none)
    (hfree : ∀ k, P.owner k = none) (r : ρ) :
    ∃ n, Answering body P i r ((body r).run P.committed)
      ((system body).exec P (.start i r :: List.replicate n (.advance i))) := by
  have hstart : (system body).step P (.start i r) = P.resume i ⟨r, body r, id⟩ := by
    simp [system, hi]
  have hnone : ∀ k j, P.owner k = some j → j = i := by
    intro k j hk
    rw [hfree k] at hk
    cases hk
  obtain ⟨n, hn⟩ := advance_alone body (body r) (sessions_resume P i ⟨r, body r, id⟩) hnone
  refine ⟨n, ?_⟩
  rw [System.exec_cons, hstart]
  exact hn.of_resume rfl rfl rfl

/-- A request that starts while nothing is claimed, and is left alone, ends with the sequential
result of its program. -/
theorem exec_alone (hi : P.sessions i = none) (hfree : ∀ k, P.owner k = none) (r : ρ) :
    ∃ n, P.Answered i r ((body r).run P.committed)
      ((system body).exec P (.start i r :: List.replicate n (.advance i))) := by
  obtain ⟨n, hn⟩ := exec_last body hi hfree r
  refine ⟨n + 1, ?_⟩
  rw [List.replicate_succ', ← List.cons_append, System.exec_append, System.exec_cons,
    System.exec_nil]
  exact hn.answered

def quiet (x : σ × List (ρ × Except ε α)) : Pool ρ κ σ ε α :=
  ⟨x.1, fun _ => none, fun _ => none, x.2⟩

def respond (body : ρ → Program κ σ ε α) (x : σ × List (ρ × Except ε α)) (r : ρ) :
    σ × List (ρ × Except ε α) :=
  match (body r).run x.1 with
  | .ok (a, s) => (s, x.2 ++ [(r, .ok a)])
  | .error e => (x.1, x.2 ++ [(r, .error e)])

omit [DecidableEq κ] in
theorem respond_snd (body : ρ → Program κ σ ε α) (x : σ × List (ρ × Except ε α)) (r : ρ) :
    (respond body x r).2 = x.2 ++ [(r, ((body r).run x.1).map Prod.fst)] := by
  unfold respond
  cases (body r).run x.1 <;> rfl

omit [DecidableEq κ] in
theorem Answered.eq_quiet {x : σ × List (ρ × Except ε α)}
    (h : (quiet x).Answered i r ((body r).run x.1) P) : P = quiet (respond body x r) := by
  obtain ⟨hc, hf, ho, hs⟩ := h
  obtain ⟨c, sessions, owner, fin⟩ := P
  obtain rfl : owner = fun _ => none := funext ho
  obtain rfl : sessions = fun _ => none := hs.trans (Function.update_eq_self _ _)
  unfold respond
  cases hrun : (body r).run x.1 with
  | ok a =>
    rw [hrun] at hc hf
    exact (Pool.mk.injEq ..).mpr ⟨hc, rfl, rfl, hf⟩
  | error e =>
    rw [hrun] at hc hf
    exact (Pool.mk.injEq ..).mpr ⟨hc, rfl, rfl, hf⟩

/-- Serving requests one after the other is one of the interleavings. -/
theorem exists_exec_respond (body : ρ → Program κ σ ε α) (rs : List ρ)
    (x : σ × List (ρ × Except ε α)) :
    ∃ as, (system body).exec (quiet x) as = quiet (rs.foldl (respond body) x) := by
  induction rs generalizing x with
  | nil => exact ⟨[], rfl⟩
  | cons r rs ih =>
    obtain ⟨n, hn⟩ : ∃ n, (quiet x).Answered 0 r ((body r).run x.1)
        ((system body).exec (quiet x) (.start 0 r :: List.replicate n (.advance 0))) :=
      exec_alone rfl (fun _ => rfl) r
    obtain ⟨as, has⟩ := ih (respond body x r)
    refine ⟨.start 0 r :: List.replicate n (.advance 0) ++ as, ?_⟩
    rw [System.exec_append, hn.eq_quiet, has, List.foldl_cons]

end Pool
end Deadbolt.Base

import Deadbolt.Lifecycle.Ownership

/-!
# The idempotency deadline

The deadline of an idempotent step is written by the first claim that finds none, counted from
the clock at that statement, and is never written again: a step with attempts has one, so nothing
is derived from its history later. The claim tests the window at the clock reading it starts with,
and writes the attempt at a later one; between the two the window may become too small.
-/

namespace Deadbolt.Execution

open Base Contracts

namespace Step

theorem mintWindow_of_some {s : Step} (h : s.idempotencyValidUntil.isSome = true) (t : Time) :
    s.mintWindow t = s := by
  unfold mintWindow
  rw [if_neg]
  rw [Option.isNone_iff_eq_none]
  exact Option.isSome_iff_ne_none.mp h

/-- What a transition may do to the deadline: nothing, if the step has one; the mint of the first
claim; or a derivation from earlier attempts. -/
def Mints (r : Run) (tr : List Visit) (id : StepID) (s s' : Step) : Prop :=
  s'.idempotencyValidUntil = s.idempotencyValidUntil ∨
    s.idempotencyValidUntil = none ∧ (s.attempts ≠ [] ∨
      ∃ now windowMs, (r.retryPolicy s).window? = some windowMs ∧ s.nextAttemptNumber = 1 ∧
        ⟨.mintWindow id now, r⟩ ∈ tr ∧
        s'.idempotencyValidUntil = some (now + millis windowMs) ∧ s'.attempts = s.attempts)

section

variable {r : Run} {tr : List Visit} {id : StepID} {s s' : Step}

theorem mints_of_derive (hx : s.attempts ≠ []) (t : Time)
    (hs : s'.idempotencyValidUntil = s.idempotencyValidUntil) :
    Mints r tr id s (s'.mintWindow t) := by
  cases hv : s.idempotencyValidUntil with
  | none => exact .inr ⟨hv, .inl hx⟩
  | some d =>
    rw [mintWindow_of_some (by rw [hs, hv]; rfl)]
    exact .inl hs

theorem ne_nil_of_ages {l l' : List Attempt} (h : List.Forall₂ Attempt.Ages l l') (hne : l' ≠ []) :
    l ≠ [] := by
  rintro rfl
  rw [List.forall₂_nil_left_iff] at h
  exact hne h

theorem Closes.mints {a : AttemptID} {status : AttemptStatus}
    (hc : s.Closes (r.retryPolicy s) a status s') (h : s.Sound) (ho : s.Owns a) :
    Mints r tr id s s' := by
  induction hc with
  | complete => exact .inl rfl
  | lose => exact .inl rfl
  | minted hc x windowMs hx _ ih =>
    have hne : s.attempts ≠ [] :=
      ne_nil_of_ages (hc.frames h ho).attempts (List.ne_nil_of_mem hx)
    rcases ih with hsame | ⟨hnone, -⟩
    · exact mints_of_derive hne _ hsame
    · exact .inr ⟨hnone, .inl hne⟩

theorem Mints.congr {s2 : Step} (h : Mints r tr id s s')
    (hs : s2.idempotencyValidUntil = s'.idempotencyValidUntil)
    (ha : s'.attempts = s.attempts → s2.attempts = s.attempts) : Mints r tr id s s2 := by
  rcases h with h | ⟨hnone, h | ⟨now, windowMs, hw, hfirst, hv, hd, hatt⟩⟩
  · exact .inl (hs.trans h)
  · exact .inr ⟨hnone, .inl h⟩
  · exact .inr ⟨hnone, .inr ⟨now, windowMs, hw, hfirst, hv, hs.trans hd, ha hatt⟩⟩

theorem Moves.mints {k : Option VisitKind} {u : Option StatusMove} (hm : Moves r id s k u s')
    (hv : ∀ x ∈ k, ⟨x, r⟩ ∈ tr) (h : s.Sound) : Mints r tr id s s' := by
  cases hm with
  | mint now windowMs hw hnone hfirst =>
    refine .inr ⟨hnone, .inr ⟨now, windowMs, hw, hfirst, hv _ rfl, ?_, ?_⟩⟩
    · simp [mintWindow, hnone]
    · obtain ⟨v, hv⟩ := mintWindow_eq s (now + millis windowMs)
      rw [hv]
  | derive x windowMs hx => exact mints_of_derive (List.ne_nil_of_mem hx) _ rfl
  | requestApproval a _ _ _ hs =>
    rw [requestApproval_blocked hs]
    exact .inl rfl
  | lateApproval a _ _ _ hs =>
    rw [requestApproval_closed hs]
    exact .inl rfl
  | parkDelay timer dueAt _ _ hs =>
    rw [parkDelay_blocked hs]
    exact .inl rfl
  | lateDelay timer dueAt _ _ hs =>
    rw [parkDelay_closed hs]
    exact .inl rfl
  | park a _ howns hc _ _ hp =>
    cases hp <;> exact (hc.mints h howns).congr rfl fun ha => ha
  | fence a epoch error now =>
    unfold Step.fence
    split <;> exact .inl rfl
  | _ => exact .inl rfl

theorem Unsettles.mints {k : VisitKind} (hm : Unsettles r id s k s') (h : s.Sound) :
    Mints r tr id s s' := by
  cases hm with
  | finish a howns hc _ => exact hc.mints h howns
  | confirm => split <;> exact .inl rfl
  | retry => exact .inl rfl

theorem Transits.mints {r' : Run} (ht : Transits r r' tr id s s') (h : s.Sound) :
    Mints r tr id s s' := by
  cases ht with
  | same => exact .inl rfl
  | moves hm _ hv _ => exact hm.mints hv h
  | unsettles hm _ _ => exact hm.mints h
  | winds hw _ _ => exact .inl hw.window
  | closes howns hc hw _ _ =>
    refine (hc.mints h howns).congr hw.window fun ha => ?_
    rw [(hc.wound hw h howns).1, ha]
  | held hs _ =>
    obtain ⟨cases, rfl⟩ := hs.eq
    exact .inl rfl

end

end Step

/-! ### The deadline of a windowed step -/

/-- The visit of the first claim that wrote the deadline of the step: it found a step that was
never claimed and had none. -/
def Visit.MintedFor (v : Visit) (runID : RunID) (id : StepID) (now : Time) : Prop :=
  v.kind = .mintWindow id now ∧ v.run.id = runID ∧
    ∃ s, v.run.steps.find? id = some s ∧ s.attempts = [] ∧ s.idempotencyValidUntil = none

/-- The attempt can start and run within the deadline. -/
def Attempt.Within (a : Attempt) (deadline : Time) : Prop :=
  ∃ t, a.claimStartDeadlineAt = some t ∧ t + millis a.timeoutMs ≤ deadline

/-- What holds of the deadline of a step with a declared window. -/
structure Step.Windowed (r : Run) (tr : List Visit) (id : StepID) (windowMs : Int) (s : Step) :
    Prop where
  stored : s.attempts ≠ [] → s.idempotencyValidUntil.isSome = true
  minted : ∀ d, s.idempotencyValidUntil = some d →
    ∃ v ∈ tr, ∃ now, v.MintedFor r.id id now ∧ d = now + millis windowMs
  within : ∀ d, s.idempotencyValidUntil = some d → ∀ a ∈ s.attempts, a.Within d

/-- A claim whose window test still passes at the clock reading its attempt is written with. -/
def Visit.windowHolds (v : Visit) : Bool :=
  match v.kind with
  | .claimAttempt id now => (v.run.steps.find? id).all fun s =>
      (v.run.retryPolicy s).window?.isNone || s.idempotencyValidUntil.all fun d =>
        !insufficientIdempotencyWindow now d
          (assignmentTimeoutMs v.run.deployment.manifest v.run.workflowName s.nodeID)
  | _ => true

variable {r : Run} {id : StepID} {s : Step} {a b : View} {windowMs : Int}

theorem Visit.sufficient_of_windowHolds {now : Time} {d : Time}
    (h : Visit.windowHolds ⟨.claimAttempt id now, r⟩ = true) (hs : r.steps.find? id = some s)
    (hw : (r.retryPolicy s).window?.isSome = true) (hd : s.idempotencyValidUntil = some d) :
    insufficientIdempotencyWindow now d
      (assignmentTimeoutMs r.deployment.manifest r.workflowName s.nodeID) = false := by
  have hnone : (r.retryPolicy s).window?.isNone = false := by
    rw [Option.isNone_eq_false_iff]
    exact hw
  simpa [windowHolds, hs, hd, hnone] using h

theorem within_of_sufficient {now deadline timeoutMs : Int}
    (h : insufficientIdempotencyWindow now deadline timeoutMs = false) :
    now + millis claimStartBudgetMs + millis timeoutMs ≤ deadline := by
  have hdefault : (0 : Int) ≤ defaultAttemptTimeoutMs := by decide
  have hle : ¬ deadline < now + 1000 * (claimStartBudgetMs +
      if timeoutMs ≤ 0 then defaultAttemptTimeoutMs else timeoutMs) := of_decide_eq_false h
  have hgoal : now + 1000 * claimStartBudgetMs + 1000 * timeoutMs ≤ deadline := by
    split at hle <;> omega
  exact hgoal

/-- Every step with a declared window, and the order of its claims. -/
def View.Windowed (v : View) : Prop :=
  v.run.Ordered ∧ ∀ id s windowMs, v.run.steps.find? id = some s →
    (v.run.retryPolicy s).window? = some windowMs → s.Windowed v.run v.trace id windowMs

theorem View.Windowed.created (h : r.Created) (tr : List Visit) : View.Windowed ⟨r, tr⟩ := by
  refine ⟨h.ordered, fun id s windowMs hs _ => ?_⟩
  obtain ⟨n, t, rfl⟩ := h.step hs
  refine ⟨fun hne => absurd rfl hne, fun d hd => ?_, fun d hd => ?_⟩
  all_goals
    change (none : Option Time) = some d at hd
    cases hd

theorem View.Change.mem_trace (hc : a.Change b) {v : Visit} (hv : v ∈ a.trace) : v ∈ b.trace := by
  obtain ⟨vs, hvs⟩ := hc.trace
  rw [hvs]
  exact List.mem_append_left _ hv

theorem Step.Windowed.grant {r' : Run} {tr tr' : List Visit} {a : Attempt} {l : Lease} {now : Time}
    (h : s.Windowed r tr id windowMs) (hid : r'.id = r.id) (htr : ∀ v ∈ tr, v ∈ tr')
    (hc : ClaimedBy r tr' id s a l now) (hs : r.steps.find? id = some s)
    (hw : (r.retryPolicy s).window? = some windowMs) (hP : ∀ v ∈ tr', v.windowHolds = true) :
    (s.grant a l).Windowed r' tr' id windowMs where
  stored _ := hc.window (by rw [hw]; rfl)
  minted d hd := by
    obtain ⟨v, hv, now, hm, hd⟩ := h.minted d hd
    exact ⟨v, htr v hv, now, hid ▸ hm, hd⟩
  within d hd x hx := by
    rcases List.mem_append.mp hx with hx | hx
    · exact h.within d hd x hx
    · rw [List.mem_singleton.mp hx]
      refine ⟨_, hc.rows.claimStartDeadlineAt, ?_⟩
      rw [hc.rows.timeoutMs]
      exact within_of_sufficient
        (Visit.sufficient_of_windowHolds (hP _ hc.visited) hs (by rw [hw]; rfl) hd)

theorem Step.Windowed.frames {r' : Run} {tr tr' : List Visit} {s' : Step} {max : Int}
    (h : s.Windowed r tr id windowMs) (ho : s.Ordered max) (hid : r'.id = r.id)
    (htr : ∀ v ∈ tr, v ∈ tr') (hs : r.steps.find? id = some s)
    (hw : (r.retryPolicy s).window? = some windowMs) (hf : s.Frames s') (hm : Mints r tr' id s s') :
    s'.Windowed r' tr' id windowMs := by
  have hwithin (d : Time) (hd : s.idempotencyValidUntil = some d) :
      ∀ a' ∈ s'.attempts, a'.Within d := by
    intro a' ha'
    obtain ⟨a, ha, hclaim, -⟩ := hf.aged ha'
    obtain ⟨t, ht, hle⟩ := h.within d hd a ha
    have hstart : a'.claimStartDeadlineAt = a.claimStartDeadlineAt :=
      congrArg (fun c => c.2.2.2.2.1) hclaim
    have htimeout : a'.timeoutMs = a.timeoutMs := congrArg (fun c => c.2.2.2.2.2.1) hclaim
    exact ⟨t, hstart.trans ht, by rw [htimeout]; exact hle⟩
  rcases hm with hsame | ⟨hnone, hne | ⟨now, windowMs', hw', hfirst, hvisit, hd, hatt⟩⟩
  · refine ⟨fun hne => ?_, fun d hd => ?_, fun d hd => hwithin d (hsame ▸ hd)⟩
    · rw [hsame]
      exact h.stored (ne_nil_of_ages hf.attempts hne)
    · obtain ⟨v, hv, now, hmint, hd⟩ := h.minted d (hsame ▸ hd)
      exact ⟨v, htr v hv, now, hid ▸ hmint, hd⟩
  · -- A step with attempts has a deadline, so nothing is derived.
    have := h.stored hne
    rw [hnone] at this
    cases this
  · have hnil : s.attempts = [] := by
      have := ho.next
      rw [hfirst] at this
      exact List.eq_nil_of_length_eq_zero (by omega)
    obtain rfl := Option.mem_unique hw hw'
    refine ⟨fun _ => by rw [hd]; rfl, fun d hd' => ?_, fun d _ a ha => ?_⟩
    · obtain rfl := Option.mem_unique hd hd'
      exact ⟨_, hvisit, now, ⟨rfl, hid.symm, s, hs, hnil, hnone⟩, rfl⟩
    · rw [hatt, hnil] at ha
      cases ha

theorem View.Change.windowed (hc : a.Change b) (ha : a.run.Sound) (h : a.Windowed)
    (hP : ∀ v ∈ b.trace, v.windowHolds = true) : b.Windowed := by
  refine ⟨hc.ordered ha h.1, fun id s' windowMs hs' hw' => ?_⟩
  obtain ⟨s, hs, ht⟩ := hc.transits ha hs'
  have hsound : s.Sound := ha.steps.find hs
  have hid : b.run.id = a.run.id := congrArg Prod.fst hc.pinned
  have hw (hn : s'.nodeID = s.nodeID) : (a.run.retryPolicy s).window? = some windowMs := by
    rw [← Run.retryPolicy_of_pinned hc.pinned hn]
    exact hw'
  rcases ht.frames hsound with ⟨x, l, now, hclaim, rfl⟩ | hf
  · exact (h.2 id s windowMs hs (hw rfl)).grant hid (fun _ => hc.mem_trace) hclaim hs (hw rfl) hP
  · exact (h.2 id s windowMs hs (hw hf.node.1)).frames (h.1 id s hs) hid (fun _ => hc.mem_trace) hs
      (hw hf.node.1) hf (ht.mints hsound)

theorem View.Operates.deadline {d : Time} (hab : a.Operates b) (ha : a.run.Sound)
    (hP : ∀ v ∈ b.trace, v.windowHolds = true) (h : a.Windowed)
    (hs : ∃ s, a.run.steps.find? id = some s ∧ (a.run.retryPolicy s).window? = some windowMs ∧
      s.idempotencyValidUntil = some d) :
    ∃ s, b.run.steps.find? id = some s ∧ s.idempotencyValidUntil = some d := by
  have hJ := hab.invariant (J := fun v => v.Windowed ∧ ∃ s, v.run.steps.find? id = some s ∧
    (v.run.retryPolicy s).window? = some windowMs ∧ s.idempotencyValidUntil = some d) ?_ ha hP
    ⟨h, hs⟩
  · obtain ⟨s, hs, -, hd⟩ := hJ.2
    exact ⟨s, hs, hd⟩
  · rintro a b ha ⟨hwin, s, hs, hw, hd⟩ hP hc
    refine ⟨hc.windowed ha hwin hP, ?_⟩
    obtain ⟨s', hs', hn, -⟩ := hc.keeps id s hs
    obtain ⟨s0, hs0, ht⟩ := hc.transits ha hs'
    obtain rfl := Option.mem_unique hs hs0
    refine ⟨s', hs', by rw [Run.retryPolicy_of_pinned hc.pinned hn]; exact hw, ?_⟩
    rcases ht.mints (ha.steps.find hs) with hsame | ⟨hnone, -⟩
    · rw [hsame]
      exact hd
    · rw [hd] at hnone
      cases hnone

section

variable [Platform]

end

end Deadbolt.Execution

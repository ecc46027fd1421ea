import Deadbolt.Execution.Sample
import Deadbolt.Lifecycle.Steps

/-!
# Attempts, epochs and the retry budget

The attempts of a step are its claims in order: their numbers count from one, their epochs
increase, and the lease is of the last epoch. A step that is due for a claim, now or when its
backoff ends, has budget left for it; every way back to such a step tests the budget, and a
`BLOCKED` step was never claimed.
-/

namespace Deadbolt.Execution

open Base Contracts

/-- A policy grants one attempt at least and ten at most. -/
theorem DeploymentManifest.taskRetryPolicy_maxAttempts (m : DeploymentManifest)
    (workflowName nodeID : String) : 1 ≤ (m.taskRetryPolicy workflowName nodeID).maxAttempts ∧
      (m.taskRetryPolicy workflowName nodeID).maxAttempts ≤ 10 := by
  have hnormal (maxAttempts initialDelayMs maxDelayMs timeoutMs : Int) (recovery : String)
      (windowMs : Option Int) :
      1 ≤ (normalizeRetryPolicy maxAttempts initialDelayMs maxDelayMs timeoutMs recovery
        windowMs).maxAttempts ∧
      (normalizeRetryPolicy maxAttempts initialDelayMs maxDelayMs timeoutMs recovery
        windowMs).maxAttempts ≤ 10 := by
    simp only [normalizeRetryPolicy, defaultMaxAttempts, minMaxAttempts, maxMaxAttempts]
    split_ifs <;> omega
  unfold taskRetryPolicy
  split
  · exact hnormal ..
  · exact hnormal ..

theorem le_of_hasRetryBudget {next max : Int} (hmax : 1 ≤ max)
    (h : hasRetryBudget next max = true) : next ≤ max := by
  simp only [hasRetryBudget, Bool.and_eq_true, decide_eq_true_eq] at h
  split_ifs at h <;> omega

namespace Step

/-- The step is claimed next, or is so once its backoff ends. -/
def due (s : Step) : Bool := s.state == .ready || s.waitsFor "RETRY_BACKOFF"

/-- A step becomes due only out of `BLOCKED` or with budget left, and is never `BLOCKED` again. -/
def Reopens (max : Int) (s s' : Step) : Prop :=
  (s'.due = true → s.due = true ∨ s.state = .blocked ∨ s.nextAttemptNumber ≤ max) ∧
    (s'.state = .blocked → s.state = .blocked)

section

variable {s s' : Step} {max : Int}

theorem reopens_of_same (hs : s'.state = s.state) (hw : s'.waitReason = s.waitReason) :
    s.Reopens max s' := by
  refine ⟨fun h => .inl ?_, fun h => hs ▸ h⟩
  simpa [due, waitsFor, hs, hw] using h

theorem reopens_of_settled (hd : s'.due = false) (hs : s'.state ≠ .blocked) : s.Reopens max s' :=
  ⟨fun h => absurd h (by simp [hd]), fun h => absurd h hs⟩

theorem reopens_of_terminal (h : s'.state.terminal = true) : s.Reopens max s' := by
  apply reopens_of_settled
  · cases hs : s'.state <;> simp_all [due, waitsFor, StepState.terminal]
  · intro hb
    rw [hb] at h
    cases h

theorem reopens_of_budget (hb : s.nextAttemptNumber ≤ max) (hs : s'.state ≠ .blocked) :
    s.Reopens max s' :=
  ⟨fun _ => .inr (.inr hb), fun h => absurd h hs⟩

theorem reopens_of_blocked (hb : s.state = .blocked) : s.Reopens max s' :=
  ⟨fun _ => .inr (.inl hb), fun _ => hb⟩

theorem Winds.reopens (h : s.Winds s') : s.Reopens max s' := by
  rcases h.state with ⟨hs, hw⟩ | ht
  · exact reopens_of_same hs hw
  · exact reopens_of_terminal ht.terminal

end

variable {s s' : Step} {max : Int} {r : Run} {id : StepID}

theorem reopens_fence (a : AttemptID) (epoch : Int) (error : Json) (now : Time) :
    s.Reopens max (s.fence a epoch error now) := by
  unfold fence
  split
  · exact reopens_of_settled rfl nofun
  · exact reopens_of_same rfl rfl

theorem Moves.reopens {k : Option VisitKind} {u : Option StatusMove} (hm : Moves r id s k u s')
    (h : s.Sound) : s.Reopens (r.retryPolicy s).maxAttempts s' := by
  have hmax : 1 ≤ (r.retryPolicy s).maxAttempts :=
    (r.deployment.manifest.taskRetryPolicy_maxAttempts _ _).1
  cases hm with
  | mint now windowMs =>
    obtain ⟨v, hv⟩ := mintWindow_eq s (now + millis windowMs)
    rw [hv]
    exact reopens_of_same rfl rfl
  | derive x windowMs =>
    obtain ⟨v, hv⟩ := mintWindow_eq s (x.createdAt + durationMs windowMs)
    rw [hv]
    exact reopens_of_same rfl rfl
  | skip => exact reopens_of_terminal rfl
  | succeedControl => exact reopens_of_terminal rfl
  | ready t hs => exact reopens_of_blocked hs
  | requestApproval a _ _ _ hs => exact reopens_of_blocked hs
  | lateApproval a _ _ _ hs =>
    rw [requestApproval_closed hs]
    exact reopens_of_same rfl rfl
  | parkDelay timer dueAt _ _ hs => exact reopens_of_blocked hs
  | lateDelay timer dueAt _ _ hs =>
    rw [parkDelay_closed hs]
    exact reopens_of_same rfl rfl
  | fireRetry timer now hopen hw =>
    exact ⟨fun _ => .inl (by simp [due, hw]), nofun⟩
  | fireDelay => exact reopens_of_terminal rfl
  | grant => exact reopens_of_settled rfl nofun
  | start => exact reopens_of_same rfl rfl
  | renew => exact reopens_of_same rfl rfl
  | acknowledge => exact reopens_of_same rfl rfl
  | park a _ howns hc _ _ hp =>
    cases hp with
    | retry timer dueAt _ _ _ hbudget =>
      rw [(hc.frames h howns).counters.2] at hbudget
      exact reopens_of_budget (le_of_hasRetryBudget hmax hbudget) nofun
    | hold => exact reopens_of_settled rfl nofun
  | fence a epoch error now => exact reopens_fence a epoch error now
  | claimHold => exact reopens_of_settled rfl nofun
  | approve => exact reopens_of_terminal rfl
  | readyHandoff t _ _ hbudget => exact reopens_of_budget hbudget nofun

theorem Unsettles.reopens {k : VisitKind} (hm : Unsettles r id s k s') :
    s.Reopens (r.retryPolicy s).maxAttempts s' := by
  cases hm with
  | finish a _ _ hs => exact reopens_of_terminal (by rw [hs]; rfl)
  | confirm case actor now result hc =>
    split
    · exact reopens_of_terminal rfl
    · exact reopens_of_same rfl rfl
  | retry case actor now timer dueAt _ _ _ hbudget =>
    have hmax := (r.deployment.manifest.taskRetryPolicy_maxAttempts r.workflowName s.nodeID).1
    exact reopens_of_budget (le_of_hasRetryBudget hmax hbudget) nofun

theorem Transits.reopens {r' : Run} {tr : List Visit} (ht : Transits r r' tr id s s')
    (h : s.Sound) : s.Reopens (r.retryPolicy s).maxAttempts s' := by
  cases ht with
  | same => exact reopens_of_same rfl rfl
  | moves hm _ _ _ => exact hm.reopens h
  | unsettles hm _ _ => exact hm.reopens
  | winds hw _ _ => exact hw.reopens
  | closes _ _ _ hs _ => exact reopens_of_terminal hs
  | held hs _ =>
    obtain ⟨cases, rfl⟩ := hs.eq
    exact reopens_of_settled rfl nofun

/-! ### The claims in order -/

/-- The attempts are the claims of the step in order, within its budget. -/
structure Ordered (max : Int) (s : Step) : Prop where
  numbers : s.attempts.map Attempt.number = (List.range s.attempts.length).map fun i : Nat => (i : Int) + 1
  next : s.nextAttemptNumber = s.attempts.length + 1
  epochs : (s.attempts.map Attempt.epoch).Pairwise (· < ·)
  bound : ∀ a ∈ s.attempts, a.epoch ≤ s.currentEpoch
  lease : ∀ l, s.lease = some l → l.epoch = s.currentEpoch ∧
    ∃ a ∈ s.attempts, a.id = l.attemptID ∧ a.epoch = l.epoch ∧ a.sessionID = l.sessionID
  budget : (s.attempts.length : Int) ≤ max
  due : s.due = true → s.nextAttemptNumber ≤ max
  unclaimed : s.state = .blocked → s.attempts = []

theorem ordered_initial (hmax : 1 ≤ max) (n : WorkflowNode) (t : Time) :
    (initialStep n t).Ordered max where
  numbers := rfl
  next := rfl
  epochs := .nil
  bound _ ha := absurd ha List.not_mem_nil
  lease l hl := by
    change (none : Option Lease) = some l at hl
    cases hl
  budget := by
    simp only [initialStep, List.length_nil]
    omega
  due _ := hmax
  unclaimed _ := rfl

theorem Frames.map_claim (h : s.Frames s') {β : Type} (f : Attempt → β)
    (g : AttemptID × Int × SessionID × Int × Option Time × Int × Time → β)
    (hf : ∀ a, f a = g a.claim) : s'.attempts.map f = s.attempts.map f := by
  have hg : f = g ∘ Attempt.claim := funext hf
  rw [hg, ← List.map_map, ← List.map_map, claims_of_ages h.attempts]

theorem Ordered.frames (h : s.Ordered max) (hf : s.Frames s') (hr : s.Reopens max s')
    (hmax : 1 ≤ max) : s'.Ordered max where
  numbers := by
    rw [hf.map_claim Attempt.number (fun c => c.2.1) fun _ => rfl, ← hf.attempts.length_eq]
    exact h.numbers
  next := by
    rw [hf.counters.2, ← hf.attempts.length_eq]
    exact h.next
  epochs := by
    rw [hf.map_claim Attempt.epoch (fun c => c.2.2.2.1) fun _ => rfl]
    exact h.epochs
  bound a' ha' := by
    obtain ⟨a, ha, hc, -⟩ := hf.aged ha'
    have he : a'.epoch = a.epoch := congrArg (fun c => c.2.2.2.1) hc
    rw [he, hf.counters.1]
    exact h.bound a ha
  lease l' hl' := by
    obtain ⟨l, hl, heq⟩ := hf.lease l' hl'
    obtain ⟨hid, heq⟩ := Prod.mk.inj heq
    obtain ⟨hsession, hepoch⟩ := Prod.mk.inj heq
    obtain ⟨hcur, a, ha, haid, hae, has⟩ := h.lease l hl
    obtain ⟨a', ha', hc, -⟩ := hf.ages ha
    have hcid : a'.id = a.id := congrArg (fun c => c.1) hc
    have hcs : a'.sessionID = a.sessionID := congrArg (fun c => c.2.2.1) hc
    have hce : a'.epoch = a.epoch := congrArg (fun c => c.2.2.2.1) hc
    refine ⟨by rw [hepoch, hcur, hf.counters.1], a', ha', ?_, ?_, ?_⟩
    · rw [hcid, haid, hid]
    · rw [hce, hae, hepoch]
    · rw [hcs, has, hsession]
  budget := by
    rw [← hf.attempts.length_eq]
    exact h.budget
  due hdue := by
    rw [hf.counters.2]
    rcases hr.1 hdue with hd | hb | hle
    · exact h.due hd
    · rw [h.next, h.unclaimed hb]
      exact hmax
    · exact hle
  unclaimed hb := by
    have hall := hf.attempts
    rw [h.unclaimed (hr.2 hb), List.forall₂_nil_left_iff] at hall
    exact hall

theorem Ordered.grant {tr : List Visit} {a : Attempt} {l : Lease} {now : Time} (h : s.Ordered max)
    (hc : ClaimedBy r tr id s a l now) : (s.grant a l).Ordered max where
  numbers := by
    simp only [Step.grant, List.map_append, List.length_append, List.map_cons, List.map_nil,
      List.length_cons, List.length_nil, List.range_succ, h.numbers, hc.rows.number, h.next]
  next := by
    simp only [Step.grant, List.length_append, List.length_cons, List.length_nil, hc.rows.number,
      h.next]
    push_cast
    omega
  epochs := by
    simp only [Step.grant, List.map_append, List.map_cons, List.map_nil]
    refine List.pairwise_append.mpr ⟨h.epochs, List.pairwise_singleton _ _, fun e he e' he' => ?_⟩
    obtain ⟨x, hx, rfl⟩ := List.mem_map.mp he
    obtain rfl := List.mem_singleton.mp he'
    have := h.bound x hx
    have := hc.rows.epoch
    omega
  bound x hx := by
    rcases List.mem_append.mp hx with hx | hx
    · have := h.bound x hx
      have := hc.rows.epoch
      change x.epoch ≤ a.epoch
      omega
    · rw [List.mem_singleton.mp hx]
      exact le_refl _
  lease l' hl' := by
    obtain rfl : l = l' := Option.some.inj hl'
    exact ⟨hc.rows.leaseEpoch, a, List.mem_append_right _ (List.mem_singleton.mpr rfl),
      hc.rows.owner.symm, hc.rows.leaseEpoch.symm, hc.rows.leaseSession.symm⟩
  budget := by
    have hdue := h.due (by simp [Step.due, hc.ready])
    rw [h.next] at hdue
    simpa [Step.grant] using hdue
  due hdue := by
    exfalso
    simp [Step.due, Step.grant, waitsFor] at hdue
  unclaimed hb := by cases hb

end Step

def Run.Ordered (r : Run) : Prop :=
  ∀ id s, r.steps.find? id = some s → s.Ordered (r.retryPolicy s).maxAttempts

theorem Run.Created.ordered {r : Run} (h : r.Created) : r.Ordered := by
  intro id s hs
  have hmax := (r.deployment.manifest.taskRetryPolicy_maxAttempts r.workflowName s.nodeID).1
  obtain ⟨n, t, rfl⟩ := h.step hs
  exact Step.ordered_initial hmax n t

theorem View.Change.ordered {a b : View} (hc : a.Change b) (ha : a.run.Sound)
    (h : a.run.Ordered) : b.run.Ordered := by
  intro id s' hs'
  obtain ⟨s, hs, ht⟩ := hc.transits ha hs'
  have hsound : s.Sound := ha.steps.find hs
  have hmax := (a.run.deployment.manifest.taskRetryPolicy_maxAttempts a.run.workflowName s.nodeID).1
  -- The budget is the same one: the manifest is pinned and the step keeps its node.
  have hpolicy (hn : s'.nodeID = s.nodeID) : b.run.retryPolicy s' = a.run.retryPolicy s :=
    Run.retryPolicy_of_pinned hc.pinned hn
  rcases ht.frames hsound with ⟨x, l, now, hclaim, rfl⟩ | hf
  · rw [hpolicy rfl]
    exact (h id s hs).grant hclaim
  · rw [hpolicy hf.node.1]
    exact (h id s hs).frames hf (ht.reopens hsound) hmax

section

variable [Platform]

theorem installation_ordered {fleet : Fleet} {os : List Operation} {id : RunID} {r : Run}
    (hr : (installation.exec (World.initial fleet) os).db.runs.find? id = some r) :
    r.Sound ∧ r.Ordered := by
  obtain ⟨hs, -, ho⟩ := installation_invariant (J := fun v => v.run.Ordered) (P := fun _ => True)
    (fun _ _ hc => hc.ordered) (fun _ _ ha hJ _ hc => hc.ordered ha hJ) (fun _ _ => trivial) hr
  exact ⟨hs, ho⟩

/-- The attempts of every step are numbered from one without gaps, within the budget of its
task, and a `READY` step has budget left. -/
theorem attempts_numbered (fleet : Fleet) (os : List Operation) (id : RunID) (r : Run)
    (hr : (installation.exec (World.initial fleet) os).db.runs.find? id = some r) (k : StepID)
    (s : Step) (hs : r.steps.find? k = some s) :
    s.attempts.map Attempt.number = (List.range s.attempts.length).map (fun i : Nat => (i : Int) + 1) ∧
      (s.attempts.length : Int) ≤ (r.retryPolicy s).maxAttempts ∧
      (r.retryPolicy s).maxAttempts ≤ 10 ∧
      (s.state = .ready → (s.attempts.length : Int) < (r.retryPolicy s).maxAttempts) := by
  have h := (installation_ordered hr).2 k s hs
  refine ⟨h.numbers, h.budget, (r.deployment.manifest.taskRetryPolicy_maxAttempts _ _).2, ?_⟩
  intro hready
  have hdue := h.due (by simp [Step.due, hready])
  rw [h.next] at hdue
  omega

end

theorem attempts_numbered_claimed :
    ∃ r s, ((@installation Sample.platform).exec (World.initial (Sample.single "safe" none))
        (Sample.claimed.map .engine)).db.runs.find? 0 = some r ∧ r.steps.find? 1 = some s ∧
      s.attempts.length = 1 ∧ (s.attempts.length : Int) ≤ (r.retryPolicy s).maxAttempts :=
  ⟨_, _, rfl, rfl, rfl,
    (@attempts_numbered Sample.platform (Sample.single "safe" none) (Sample.claimed.map .engine)
      0 _ rfl 1 _ rfl).2.1⟩

end Deadbolt.Execution

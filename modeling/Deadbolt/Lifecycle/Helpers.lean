import Deadbolt.Lifecycle.Sound

/-!
# Helpers as moves

What the helpers of `Execution/Settle.lean` do to the run they are called on, in terms of the
automaton: one specification per helper, so that no caller unfolds it.
-/

namespace Deadbolt.Execution

open Base Contracts Tx RunTx

/-! ### Paths -/

namespace View

theorem Leads.refl (v : View) : v.Leads v := Relation.ReflTransGen.refl

theorem Leads.trans {a b c : View} (h : a.Leads b) (h' : b.Leads c) : a.Leads c :=
  Relation.ReflTransGen.trans h h'

variable {v : View} {r : Run} {id : StepID} {s s' : Step}

theorem Leads.single {vs : List Visit} (h : v.run.Moves v.trace vs r) :
    v.Leads ⟨r, v.trace ++ vs⟩ :=
  Relation.ReflTransGen.single ⟨vs, h, rfl⟩

theorem Leads.silent (h : v.run.Moves v.trace [] r) : v.Leads ⟨r, v.trace⟩ := by
  simpa using Leads.single h

theorem Leads.idle (v : View) (vs : List Visit) : v.Leads ⟨v.run, v.trace ++ vs⟩ :=
  Leads.single (.idle vs)

theorem Leads.event (t : EventType) (x : Payload) (ht : t.terminal = false)
    (hs : t ≠ .stepSucceeded) (hslot : v.run.hasEventSlot t = true) :
    v.Leads ⟨v.run.pushEvent t x, v.trace⟩ :=
  Leads.silent (.event t x ht hslot fun h => absurd h hs)

theorem Leads.status (u : StatusMove) (hu : u.Admissible v.run) (halone : u.alone = true)
    (hv : u.visit = none) : v.Leads ⟨u.apply v.run, v.trace⟩ := by
  have := Leads.single (v := v) (.status u halone hu)
  simpa [hv] using this

theorem Leads.step {u : Option StatusMove} (hf : v.run.steps.find? id = some s)
    (hm : Step.Moves v.run id s none u s') (hu : ∀ x ∈ u, x.Admissible (v.run.setStep id s')) :
    v.Leads ⟨StatusMove.follow u (v.run.setStep id s'), v.trace⟩ := by
  have := Leads.single (v := v) (.step hf hm hu)
  simpa using this

theorem Leads.visited {k : VisitKind} {u : Option StatusMove} (hf : v.run.steps.find? id = some s)
    (hm : Step.Moves v.run id s (some k) u s') (hu : ∀ x ∈ u, x.Admissible (v.run.setStep id s')) :
    v.Leads ⟨StatusMove.follow u (v.run.setStep id s'), v.trace ++ [⟨k, v.run⟩]⟩ :=
  Leads.single (.step hf hm hu)

theorem Leads.logs (h : v.run.Logs r) : v.Leads ⟨r, v.trace⟩ := by
  induction h with
  | refl => exact Leads.refl v
  | tail _ t x ht hs hslot ih => exact ih.trans (Leads.event t x ht hs hslot)

theorem Reaches.trans {a b c : View} (h : a.Reaches b) (h' : b.Reaches c) : a.Reaches c :=
  Relation.ReflTransGen.trans h h'

theorem Reaches.unsettle {k : VisitKind} (hf : v.run.steps.find? id = some s)
    (hm : Step.Unsettles v.run id s k s') :
    v.Reaches ⟨v.run.setStep id s', v.trace ++ [⟨k, v.run⟩]⟩ :=
  Relation.ReflTransGen.single (.inr ⟨_, .step hf hm, rfl⟩)

end View

namespace RunScope

@[simp] theorem view_withRun (c : RunScope) (r : Run) : (c.withRun r).view = ⟨r, c.sys.trace⟩ := rfl
@[simp] theorem view_tick (c : RunScope) : c.tick.view = c.view := rfl
@[simp] theorem view_draw (c : RunScope) : c.draw.view = c.view := rfl
@[simp] theorem run_view (c : RunScope) : c.view.run = c.run := rfl
@[simp] theorem trace_view (c : RunScope) : c.view.trace = c.sys.trace := rfl

end RunScope

/-! ### Effects -/

/-- A change that closed the run or left every other step alone. -/
def Run.Focused (id : StepID) (r r' : Run) : Prop :=
  r'.status.closing = true ∨ ∀ k, k ≠ id → r'.steps.find? k = r.steps.find? k

variable {id : StepID} {r r' : Run} {s s1 s' : Step} {policy : RetryPolicy} {c : RunScope}
  {failed : FailedAttempt}

theorem Run.Focused.setStep (h : r'.steps = (r.setStep id s).steps) : Run.Focused id r r' := by
  refine .inr fun k hk => ?_
  rw [h, find?_setStep, if_neg hk]

/-- The step as found or with an idempotency deadline derived from one of its attempts. -/
def Step.Minted (policy : RetryPolicy) (s s' : Step) : Prop :=
  s' = s ∨ ∃ x windowMs, x ∈ s.attempts ∧ policy.window? = some windowMs ∧
    s' = s.mintWindow (x.createdAt + durationMs windowMs)

theorem Step.Minted.trans {s2 : Step} (h1 : s.Minted policy s1) (h2 : s1.Minted policy s2) :
    s.Minted policy s2 := by
  rcases h1 with rfl | ⟨x, w, hx, hw, rfl⟩
  · exact h2
  · rcases h2 with rfl | ⟨y, w', hy, hw', rfl⟩
    · exact .inr ⟨x, w, hx, hw, rfl⟩
    · -- The first deadline stays.
      refine .inr ⟨x, w, hx, hw, ?_⟩
      unfold mintWindow
      cases h : s.idempotencyValidUntil <;> simp [h]

theorem Step.Minted.closes {s2 : Step} {a : AttemptID} {status : AttemptStatus}
    (h : s1.Minted policy s2) (hc : s.Closes policy a status s1) : s.Closes policy a status s2 := by
  rcases h with rfl | ⟨x, w, hx, hw, rfl⟩
  · exact hc
  · exact .minted hc x w hx hw

theorem Step.Minted.eq (h : s.Minted policy s') :
    ∃ v, s' = { s with idempotencyValidUntil := v } := by
  rcases h with rfl | ⟨x, w, -, -, rfl⟩
  · exact ⟨_, rfl⟩
  · exact mintWindow_eq s _

theorem Step.Minted.state (h : s.Minted policy s') : s'.state = s.state := by
  obtain ⟨_, rfl⟩ := h.eq
  rfl

theorem Step.Minted.leads {v : View} (h : s.Minted (v.run.retryPolicy s) s')
    (hf : v.run.steps.find? id = some s) : v.Leads ⟨v.run.setStep id s', v.trace⟩ := by
  rcases h with rfl | ⟨x, w, hx, hw, rfl⟩
  · rw [Run.setStep_self hf]
    exact View.Leads.refl v
  · exact View.Leads.step hf (.derive x w hx hw) (by simp)

theorem Run.Logs.map (h : r.Logs r') {f : Run → Run}
    (hpush : ∀ r t x, f (r.pushEvent t x) = (f r).pushEvent t x)
    (hslot : ∀ r t, (f r).hasEventSlot t = r.hasEventSlot t) : (f r).Logs (f r') := by
  induction h with
  | refl => exact .refl
  | tail _ t x ht hs hslot' ih =>
    rw [hpush]
    exact ih.tail t x ht hs ((hslot _ t).trans hslot')

theorem Run.Logs.setStep (h : r.Logs r') (id : StepID) (s : Step) :
    (r.setStep id s).Logs (r'.setStep id s) :=
  h.map (f := fun r => r.setStep id s) (fun _ _ _ => rfl) fun _ _ => rfl

theorem Run.Logs.mapSteps (h : r.Logs r') (g : StepID → Step → Step) :
    (r.mapSteps g).Logs (r'.mapSteps g) :=
  h.map (f := fun r => r.mapSteps g) (fun _ _ _ => rfl) fun _ _ => rfl

theorem Run.Logs.setStatus (h : r.Logs r') (status : RunStatus) (reason : Option String) :
    (r.setStatus status reason).Logs (r'.setStatus status reason) :=
  h.map (f := fun r => r.setStatus status reason) (fun _ _ _ => rfl) fun _ _ => rfl

namespace StatusMove

theorem apply_pushEvent (u : StatusMove) (r : Run) (t : EventType) (x : Payload) :
    u.apply (r.pushEvent t x) = (u.apply r).pushEvent t x := by
  cases u <;>
    simp only [apply, Run.recomputeForRetry, Run.recomputeForDelay, Run.recomputeAfterControl,
      Run.parkForReconciliation, Run.parkForQuota, Run.parkForHandoff, Run.leaveQuota,
      Run.markStarted, Run.leaveRetry, Run.leaveHandoff, Run.leaveReconciliation,
      Run.setStatusIf, apply_ite (fun r : Run => r.pushEvent t x)] <;> rfl

theorem hasEventSlot_apply (u : StatusMove) (r : Run) (t : EventType) :
    (u.apply r).hasEventSlot t = r.hasEventSlot t := by
  obtain ⟨_, _, _, _, h⟩ := u.apply_eq r
  rw [h]
  rfl

end StatusMove

/-- An event may be written before the status that comes with the step. -/
theorem View.Leads.event_apply (u : StatusMove) {t : EventType} (x : Payload)
    (ht : t.terminal = false) (hs : t ≠ .stepSucceeded) (hslot : r.hasEventSlot t = true)
    (trace : List Visit) : View.Leads ⟨u.apply r, trace⟩ ⟨u.apply (r.pushEvent t x), trace⟩ := by
  rw [u.apply_pushEvent]
  exact View.Leads.event t x ht hs ((u.hasEventSlot_apply r t).trans hslot)

theorem Run.Logs.apply (h : r.Logs r') (u : StatusMove) : (u.apply r).Logs (u.apply r') :=
  h.map (f := u.apply) u.apply_pushEvent u.hasEventSlot_apply

/-- The transaction derived at most the idempotency deadline of the step. -/
def RunScope.Mints (c : RunScope) (policy : RetryPolicy) (id : StepID) (s : Step)
    (c' : RunScope) : Prop :=
  ∃ s', s.Minted policy s' ∧ c'.view = ⟨c.run.setStep id s', c.sys.trace⟩

theorem RunScope.Mints.same {c' : RunScope} (hf : c.run.steps.find? id = some s)
    (h : c'.view = c.view) : c.Mints policy id s c' :=
  ⟨s, .inl rfl, by rw [h, Run.setStep_self hf]; rfl⟩

theorem Step.pendingTimer?_isSome {kind : TimerKind} {t : Timer}
    (h : s.pendingTimer? kind = some t) : s.hasPending kind = true :=
  List.any_eq_true.mpr ⟨t, List.mem_of_find?_eq_some h, by simpa using List.find?_some h⟩

theorem Step.Arms.pending {kind : TimerKind} {timer : Option Timer} (h : s.Arms kind timer) :
    ((s.timers ++ timer.toList).any fun t => t.kind == kind && t.state == .pending) = true := by
  rw [List.any_append]
  cases timer with
  | none => simpa [hasPending] using h.2 rfl
  | some t =>
    obtain ⟨hk, hs⟩ := h.1 t rfl
    simp [hk, hs]

theorem Step.Parks.admissible {effect : String} {u : StatusMove} (h : s.Parks policy effect u s')
    {old : Step} (hf : r.steps.find? id = some old) : u.Admissible (r.setStep id s') := by
  cases h with
  | retry timer dueAt harms =>
    refine (Run.anyStep_eq_true _ _).mpr ⟨id, _, Run.find?_setStep_self _ hf, ?_⟩
    exact harms.pending
  | hold => trivial

/-- What `scheduleRetryOrHoldTx` does to an open run whose step it finds closed. -/
def RunScope.Reschedules (c : RunScope) (policy : RetryPolicy) (effect : String) (id : StepID)
    (s : Step) (verdict : RetryVerdict) (c' : RunScope) : Prop :=
  (∃ code, verdict = .fail code) ∧ c.Mints policy id s c' ∨
    (∀ code, verdict ≠ .fail code) ∧ c.run.status.closing = false ∧ ∃ s1 s2 x, ∃ u : StatusMove,
      s.Minted policy s1 ∧ s1.Parks policy effect u s2 ∧
      (u.apply (c.run.setStep id s2)).hasEventSlot .stepWaiting = true ∧
      c'.view = ⟨(u.apply (c.run.setStep id s2)).pushEvent .stepWaiting x, c.sys.trace⟩

variable [Platform]

/-! ### Cases -/

theorem closeOpenCasesTx_spec (actor : Option ActorID) (reason : String)
    (resolution : CaseResolution) (c : RunScope) :
    Commits (closeOpenCasesTx actor reason resolution) c fun _ c' => ∃ now r,
      (c.run.mapSteps fun _ s => s.closeOpenCases actor resolution now).Logs r ∧
        c'.view = ⟨r, c.sys.trace⟩ := by
  simp only [closeOpenCasesTx, commits_bind, commits_getRun, commits_clockTimestamp,
    commits_mapSteps, commits_ite, commits_appendRunEvent, commits_pure]
  refine ⟨fun _ hslot => ⟨_, _, .tail .refl _ _ rfl (by simp) hslot, rfl⟩, fun _ => ⟨_, _, .refl, rfl⟩⟩

/-- The step is held with an open case, and the run parked if it has no live attempt. -/
theorem routeStepToReconciliationTx_spec (hf : c.run.steps.find? id = some s) (node : String)
    (attempt : Option AttemptID) (reason : String) (evidence : Payload) :
    Commits (routeStepToReconciliationTx id node attempt reason evidence) c fun _ c' =>
      ∃ case x, case.status = .open ∧
        (StatusMove.hold.apply (c.run.setStep id (s.hold case))).hasEventSlot .stepWaiting = true ∧
        c'.view = ⟨(StatusMove.hold.apply (c.run.setStep id (s.hold case))).pushEvent .stepWaiting x,
          c.sys.trace⟩ := by
  simp only [routeStepToReconciliationTx, commits_bind, commits_newID,
    commits_updateStep, commits_modifyRun, commits_appendRunEvent]
  intro hslot
  simp only [RunScope.run_draw, RunScope.run_withRun] at hslot ⊢
  rw [Run.updateStep_of_find hf rfl] at hslot ⊢
  exact ⟨_, _, rfl, hslot, rfl⟩

/-! ### Idempotency windows -/

omit [Platform] in
theorem Step.mem_of_firstAttempt? {a : Attempt} (h : s.firstAttempt? = some a) : a ∈ s.attempts :=
  (List.mem_insertionSort _).mp (List.mem_of_mem_head? h)

omit [Platform] in
theorem deriveIdempotencyDeadlineTx_spec (hf : c.run.steps.find? id = some s) {windowMs : Int}
    (hw : policy.window? = some windowMs) :
    Commits (deriveIdempotencyDeadlineTx id windowMs) c fun derived c' => ∃ s',
      s.Minted policy s' ∧ c'.view = ⟨c.run.setStep id s', c.sys.trace⟩ ∧
        (derived.isSome = true → s'.idempotencyValidUntil = derived) := by
  simp only [deriveIdempotencyDeadlineTx, commits_bind, commits_getStep]
  intro s' hs'
  obtain rfl := Option.mem_unique hf hs'
  have hsame : c.view = ⟨c.run.setStep id s, c.sys.trace⟩ := by rw [Run.setStep_self hf]; rfl
  cases hfirst : s.firstAttempt? with
  | none => simpa using ⟨s, .inl rfl, hsame⟩
  | some a =>
    cases hv : s.idempotencyValidUntil with
    | some t => simpa using ⟨s, .inl rfl, hsame, hv⟩
    | none =>
      simp only [commits_bind, commits_updateStep, commits_pure]
      rw [Run.updateStep_of_find hf rfl]
      refine ⟨_, .inr ⟨a, windowMs, Step.mem_of_firstAttempt? hfirst, hw, rfl⟩, rfl, fun _ => ?_⟩
      simp [Step.mintWindow, hv]

/-- An admitted step of a task with a declared window has a deadline. -/
theorem claimIdempotencyAdmissionTx_spec (hf : c.run.steps.find? id = some s)
    (hp : policy = c.run.retryPolicy s) :
    Commits (claimIdempotencyAdmissionTx id policy) c fun admission c' =>
      c.view.Leads c'.view ∧ ∃ v, c'.run.steps.find? id = some { s with idempotencyValidUntil := v } ∧
        (admission.2 = "" → policy.window?.isSome = true → v.isSome = true) := by
  have hsame : c.run.steps.find? id = some { s with idempotencyValidUntil := s.idempotencyValidUntil } :=
    hf
  simp only [claimIdempotencyAdmissionTx, commits_ite, commits_pure, commits_bind,
    commits_getStep]
  refine ⟨fun hmode => ⟨View.Leads.refl _, _, hsame, fun _ hw => ?_⟩, fun hmode s' hs' => ?_⟩
  · simp [RetryPolicy.window?, hmode] at hw
  obtain rfl := Option.mem_unique hf hs'
  rw [not_not] at hmode
  cases hvalid : s.idempotencyValidUntil with
  | some t => simpa using ⟨View.Leads.refl _, _, hf, fun _ => by simp [hvalid]⟩
  | none =>
    cases hw : policy.idempotencyWindowMs with
    | none =>
      have hnone : policy.window? = none := by simp [RetryPolicy.window?, hmode, hw]
      simp only [commits_ite, commits_pure]
      exact ⟨fun _ => ⟨View.Leads.refl _, _, hsame, fun h => by simp at h⟩,
        fun _ => ⟨View.Leads.refl _, _, hsame, fun _ h => by simp [hnone] at h⟩⟩
    | some windowMs =>
      have hsome : policy.window? = some windowMs := by simp [RetryPolicy.window?, hmode, hw]
      simp only [commits_ite, commits_bind]
      refine ⟨fun hfirst => ?_, fun _ => ?_⟩
      · simp only [ensureIdempotencyWindowTx, hw, hmode, ne_eq, not_true_eq_false, if_false,
          commits_bind, commits_getStep]
        intro s' hs'
        obtain rfl := Option.mem_unique hf hs'
        simp only [hvalid, commits_bind, commits_clockTimestamp, commits_note,
          commits_updateStep, commits_pure, RunScope.run_visit, RunScope.run_tick]
        rw [Run.updateStep_of_find hf rfl]
        refine ⟨View.Leads.visited (v := c.view) (u := none) hf (.mint _ windowMs (hp ▸ hsome) hvalid
          hfirst) (by simp), some (Platform.clock c.sys.ticks + millis windowMs), ?_, fun _ _ => rfl⟩
        refine (Run.find?_setStep_self _ hf).trans ?_
        simp only [Step.mintWindow, hvalid, Option.isNone_none, if_true]
      · refine (deriveIdempotencyDeadlineTx_spec hf hsome).mono ?_
        rintro derived c' ⟨s', hs', hview, hd⟩
        have hrun : c'.run = c.run.setStep id s' := congrArg View.run hview
        have hl : c.view.Leads c'.view := by
          rw [hview]
          exact Step.Minted.leads (v := c.view) (by exact hp ▸ hs') hf
        obtain ⟨v, rfl⟩ := hs'.eq
        have hfind : c'.run.steps.find? id = some { s with idempotencyValidUntil := v } := by
          rw [hrun]
          exact Run.find?_setStep_self _ hf
        cases derived with
        | none => simpa using ⟨hl, v, hfind⟩
        | some t => simpa using ⟨hl, v, hfind, fun _ => by simp [show v = some t from hd rfl]⟩

omit [Platform] in
theorem retryDeadline_spec (hf : c.run.steps.find? id = some s)
    (hmode : recoveryMode policy.recovery = "idempotent") (validUntil : Option Time) :
    Commits (retryDeadline id policy validUntil) c fun _ c' => c.Mints policy id s c' := by
  unfold retryDeadline
  cases hw : policy.idempotencyWindowMs with
  | none => simpa using RunScope.Mints.same hf rfl
  | some windowMs =>
    cases validUntil with
    | some t => simpa using RunScope.Mints.same hf rfl
    | none =>
      have hwindow : policy.window? = some windowMs := by simp [RetryPolicy.window?, hmode, hw]
      refine (deriveIdempotencyDeadlineTx_spec hf hwindow).mono ?_
      rintro _ c' ⟨s', hs', hview, -⟩
      exact ⟨s', hs', hview⟩

/-! ### Timers -/

theorem newTimer_spec (s : Step) (kind : TimerKind) (dueAt : Time) (number : Option Int)
    (operation : Option String) (reason : String) (c : RunScope) :
    Commits (newTimer s kind dueAt number operation reason) c fun timer c' =>
      s.Arms kind timer ∧ c'.view = c.view := by
  unfold newTimer
  cases hp : s.pendingTimer? kind with
  | some t => simpa [Step.Arms] using Step.pendingTimer?_isSome hp
  | none => simp [Step.Arms]

/-! ### Retries and holds -/

theorem scheduleRetryTx_spec (hf : c.run.steps.find? id = some s)
    (hopen : c.run.status.closing = false) (node : String)
    (hvalid : isValidRecoveryPolicy policy.recovery = true)
    (hclear : requiresReconciliation policy.recovery failed.effectStatus = false)
    (hbudget : hasRetryBudget s.nextAttemptNumber policy.maxAttempts = true) (number : Int)
    (now : Time) (deadline : Option Time) (operation : String) :
    Commits (scheduleRetryTx id node failed policy number now deadline operation) c
      fun verdict c' => c.Reschedules policy failed.effectStatus id s verdict c' := by
  simp only [scheduleRetryTx, commits_bind, commits_sampleJitter, commits_ite,
    commits_pure, commits_getStep]
  refine ⟨fun _ => Or.inl ⟨⟨_, rfl⟩, .same hf rfl⟩, fun _ s' hs' => ?_⟩
  obtain rfl := Option.mem_unique hf hs'
  refine (newTimer_spec s .retryBackoff _ _ _ _ _).mono fun timer c' h => ?_
  obtain ⟨harms, hview⟩ := h
  have hrun : c'.run = c.run := congrArg View.run hview
  have htr : c'.sys.trace = c.sys.trace := congrArg View.trace hview
  simp only [commits_updateStep, commits_modifyRun, commits_appendRunEvent,
    RunScope.run_withRun, hrun]
  rw [Run.updateStep_of_find hf (p := fun _ => true) rfl]
  intro hslot
  exact Or.inr ⟨by simp, hopen, s, _, _, .retryWait, .inl rfl,
    .retry _ _ harms hvalid hclear hbudget, hslot, by rw [← htr]; rfl⟩

private theorem reschedules_hold {c1 : RunScope} (hf : c.run.steps.find? id = some s)
    (hopen : c.run.status.closing = false) (hs1 : s.Minted policy s1)
    (hc1 : c1.view = ⟨c.run.setStep id s1, c.sys.trace⟩) (effect node : String)
    (attempt : Option AttemptID) (reason : String) (evidence : Payload) :
    Commits (routeStepToReconciliationTx id node attempt reason evidence) c1 fun _ c' =>
      c.Reschedules policy effect id s .hold c' := by
  have hrun : c1.run = c.run.setStep id s1 := congrArg View.run hc1
  have htr : c1.sys.trace = c.sys.trace := congrArg View.trace hc1
  have hf1 : c1.run.steps.find? id = some s1 := by rw [hrun]; exact Run.find?_setStep_self s1 hf
  refine (routeStepToReconciliationTx_spec hf1 node attempt reason evidence).mono ?_
  rintro _ c' ⟨case, x, hcase, hslot, hview⟩
  rw [hrun, Run.setStep_setStep] at hslot hview
  exact Or.inr ⟨by simp, hopen, s1, _, x, .hold, hs1, .hold case hcase, hslot, by rw [hview, htr]⟩

private theorem reschedules_retry {c1 : RunScope} (hf : c.run.steps.find? id = some s)
    (hopen : c.run.status.closing = false) (hs1 : s.Minted policy s1)
    (hc1 : c1.view = ⟨c.run.setStep id s1, c.sys.trace⟩)
    (hvalid : isValidRecoveryPolicy policy.recovery = true)
    (hclear : requiresReconciliation policy.recovery failed.effectStatus = false)
    (hbudget : hasRetryBudget s.nextAttemptNumber policy.maxAttempts = true) (node : String)
    (number : Int) (now : Time) (deadline : Option Time) (operation : String) :
    Commits (scheduleRetryTx id node failed policy number now deadline operation) c1
      fun verdict c' => c.Reschedules policy failed.effectStatus id s verdict c' := by
  have hrun : c1.run = c.run.setStep id s1 := congrArg View.run hc1
  have htr : c1.sys.trace = c.sys.trace := congrArg View.trace hc1
  have hf1 : c1.run.steps.find? id = some s1 := by rw [hrun]; exact Run.find?_setStep_self s1 hf
  have hopen1 : c1.run.status.closing = false := by rw [hrun]; exact hopen
  have hbudget1 : hasRetryBudget s1.nextAttemptNumber policy.maxAttempts = true := by
    obtain ⟨_, rfl⟩ := hs1.eq
    exact hbudget
  refine (scheduleRetryTx_spec hf1 hopen1 node hvalid hclear hbudget1 number now deadline
    operation).mono ?_
  rintro verdict c' (⟨hv, s', hs', hview⟩ | ⟨hv, -, s', s2, x, u, hs', hp, hslot, hview⟩)
  · refine Or.inl ⟨hv, s', ?_, by rw [hview, hrun, htr, Run.setStep_setStep]⟩
    exact Step.Minted.trans hs1 hs'
  · rw [hrun, Run.setStep_setStep] at hslot hview
    exact Or.inr ⟨hv, hopen, s', s2, x, u, Step.Minted.trans hs1 hs', hp, hslot, by rw [hview, htr]⟩

theorem retryIdempotentTx_spec (hf : c.run.steps.find? id = some s)
    (hopen : c.run.status.closing = false) (hmode : recoveryMode policy.recovery = "idempotent")
    (hvalid : isValidRecoveryPolicy policy.recovery = true)
    (hclear : requiresReconciliation policy.recovery failed.effectStatus = false)
    (hbudget : hasRetryBudget s.nextAttemptNumber policy.maxAttempts = true) (node : String)
    (now : Time) (deadline : Option Time) (operation : String) (evidence : Payload) :
    Commits (retryIdempotentTx id node failed policy s now deadline operation evidence) c
      fun verdict c' => c.Reschedules policy failed.effectStatus id s verdict c' := by
  unfold retryIdempotentTx
  refine (retryDeadline_spec hf hmode s.idempotencyValidUntil).bind ?_
  rintro valid c1 ⟨s1, hs1, hc1⟩
  cases valid with
  | none =>
    simp only [commits_bind, commits_pure]
    exact reschedules_hold hf hopen hs1 hc1 _ _ _ _ _
  | some validUntil =>
    simp only [commits_ite, commits_bind, commits_pure]
    exact ⟨fun _ => reschedules_hold hf hopen hs1 hc1 _ _ _ _ _,
      fun _ => reschedules_retry hf hopen hs1 hc1 hvalid hclear hbudget _ _ _ _ _⟩

/-- A closed attempt is retried or held in an open run, or is to fail the run. -/
theorem scheduleRetryOrHoldTx_spec (hf : c.run.steps.find? id = some s) (node : String)
    (failed : FailedAttempt) (policy : RetryPolicy) (deadline : Option Time) :
    Commits (scheduleRetryOrHoldTx id node failed policy deadline) c fun verdict c' =>
      c.Reschedules policy failed.effectStatus id s verdict c' := by
  simp only [scheduleRetryOrHoldTx, commits_bind, commits_clockTimestamp,
    commits_getRun, commits_getRunID, commits_getStep]
  intro s' hs'
  obtain rfl := Option.mem_unique hf hs'
  have hfail (code : String) :
      c.Reschedules policy failed.effectStatus id s (.fail code) c.tick :=
    Or.inl ⟨⟨_, rfl⟩, .same hf rfl⟩
  have hsame : c.tick.view = ⟨c.run.setStep id s, c.sys.trace⟩ := by
    rw [Run.setStep_self hf]
    rfl
  simp only [commits_ite, commits_pure, commits_bind]
  refine ⟨fun _ => hfail _, fun hopen => ⟨fun _ => hfail _, fun _ => ⟨fun _ => hfail _, fun _ =>
    ⟨fun _ => hfail _, fun hvalid => ⟨fun _ => ?_, fun hclear => ⟨fun _ => hfail _, fun _ =>
      ⟨fun _ => hfail _, fun hbudget => ⟨fun hmode => ?_, fun _ => ?_⟩⟩⟩⟩⟩⟩⟩⟩
  all_goals simp only [Bool.not_eq_true] at hopen
  · exact reschedules_hold hf hopen (.inl rfl) hsame _ _ _ _ _
  · exact retryIdempotentTx_spec (c := c.tick) hf hopen hmode (by simpa using hvalid)
      (by simpa using hclear) (by simpa using hbudget) _ _ _ _ _
  · exact reschedules_retry hf hopen (.inl rfl) hsame (by simpa using hvalid)
      (by simpa using hclear) (by simpa using hbudget) _ _ _ _ _

/-! ### Failure -/

omit [Platform] in
/-- The statements of `failRunForStepTx` on the steps, one after the other. -/
private theorem failFast_eq (r : Run) (id : StepID) (reason : String) (actor : Option ActorID)
    (now closedAt : Time) :
    r.failFast id reason actor now closedAt =
      ((((((r.mapSteps fun _ s => s.revokeSiblings now).updateStep id (fun _ => true)
        fun s => s.failWith reason).mapSteps fun _ s => s.closeOpenCases actor .fail closedAt).mapSteps
          fun k s => if k = id then s else s.cancelOpenWith none).mapSteps
            fun _ s => s.cancelTimers).setStatus .failed (some reason)) := by
  simp only [Run.failFast, Run.updateStep, Run.mapSteps_mapSteps]
  congr 2
  funext k s
  by_cases hk : k = id <;> simp [Step.failFast, hk]

omit [Platform] in
theorem Run.find?_failFast (hf : r.steps.find? id = some s) (reason : String)
    (actor : Option ActorID) (now closedAt : Time) :
    ∃ s', (r.failFast id reason actor now closedAt).steps.find? id = some s' ∧
      s'.state = .failed := by
  refine ⟨s.failFast (id == id) reason actor now closedAt, by simp [failFast, hf], ?_⟩
  simp [Step.failFast, Step.cancelTimers, Step.closeOpenCases, Step.failWith]

theorem failRunForStepTx_spec (id : StepID) (reason : String) (actor : Option ActorID)
    (c : RunScope) :
    Commits (failRunForStepTx id reason actor) c fun _ c' => ∃ now closedAt r',
      Run.Ends .runFailed (c.run.failFast id reason actor now closedAt) r' ∧
        c'.view = ⟨r', c.sys.trace ++ [⟨.failRun id, c.run⟩]⟩ := by
  simp only [failRunForStepTx, commits_bind, commits_note, commits_getRun,
    commits_clockTimestamp, commits_mapSteps, commits_updateStep]
  refine (closeOpenCasesTx_spec actor reason .fail _).mono ?_
  rintro _ c1 ⟨closedAt, r1, hlogs, hview⟩
  have hrun : c1.run = r1 := congrArg View.run hview
  have htr : c1.sys.trace = c.sys.trace ++ [⟨.failRun id, c.run⟩] := congrArg View.trace hview
  simp only [commits_modifyRun, commits_appendRunEvent, RunScope.run_withRun, hrun]
  intro hslot
  have hl := ((hlogs.mapSteps fun k s => if k = id then s else s.cancelOpenWith none).mapSteps
    fun _ s => s.cancelTimers).setStatus .failed (some reason)
  refine ⟨Platform.clock c.sys.ticks, closedAt, _, ?_, by rw [← htr]; rfl⟩
  rw [failFast_eq]
  exact hl.ends hslot _

theorem failRunForStepTx_closing (id : StepID) (reason : String) (actor : Option ActorID)
    (c : RunScope) : Commits (failRunForStepTx id reason actor) c fun _ c' =>
      c'.run.status.closing = true := by
  refine (failRunForStepTx_spec id reason actor c).mono ?_
  rintro _ c' ⟨_, _, r', hends, hview⟩
  have hrun : c'.run = r' := congrArg View.run hview
  rw [hrun, hends.status]
  rfl

/-- A closed attempt is retried, held, or fails the run: one move from the run with the
attempt still open. -/
theorem retryOrFailTx_leads {v : View} {a : AttemptID} {status : AttemptStatus}
    (failed : FailedAttempt) (hf : v.run.steps.find? id = some s) (howns : s.Owns a)
    (hpolicy : policy = v.run.retryPolicy s) (hc : s.Closes policy a status s1)
    (hfailed : status ≠ .cancelled ∧ status ≠ .succeeded)
    (hsaid : s1.Says a status failed.effectStatus) (hs : s1.state ≠ .succeeded)
    (hlogs : (v.run.setStep id s1).Logs c.run)
    (htr : c.sys.trace = v.trace ++ [⟨.closeAttempt id status failed.effectStatus, v.run⟩])
    (node : String) (deadline : Option Time) :
    Commits (retryOrFailTx id node failed policy deadline) c fun _ c' =>
      v.Leads c'.view ∧ Run.Focused id v.run c'.run := by
  subst hpolicy
  have hf1 : c.run.steps.find? id = some s1 := by
    rw [hlogs.steps]
    exact Run.find?_setStep_self s1 hf
  have hst : c.run.status = v.run.status := hlogs.status
  unfold retryOrFailTx
  refine (scheduleRetryOrHoldTx_spec hf1 node failed _ deadline).bind ?_
  rintro verdict c2 (⟨⟨code, rfl⟩, s2, hs2, hview⟩ | ⟨hv, hopen, s2, s3, x, u, hs2, hp, hslot, hview⟩)
  · have hrun2 : c2.run = c.run.setStep id s2 := congrArg View.run hview
    have htr2 : c2.sys.trace = _ := (congrArg View.trace hview).trans htr
    refine (failRunForStepTx_spec id _ none c2).mono ?_
    rintro _ c3 ⟨now, closedAt, r', hends, hview3⟩
    have hlogs2 : (v.run.setStep id s2).Logs c2.run := by
      have := hlogs.setStep id s2
      rwa [Run.setStep_setStep, ← hrun2] at this
    have hm : v.run.Moves v.trace
        ([⟨.closeAttempt id status failed.effectStatus, v.run⟩] ++ [⟨.failRun id, c2.run⟩]) r' :=
      .close (.fail _ _ none now closedAt
        (.closed hf a howns (hs2.closes hc) (by rw [hs2.state]; exact hs)) hlogs2) hends
    have hrun3 : c3.run = r' := congrArg View.run hview3
    refine ⟨?_, .inl (by rw [hrun3, hends.status]; rfl)⟩
    rw [hview3, htr2, List.append_assoc]
    exact View.Leads.single hm
  · have hfocus : Run.Focused id v.run c2.run := by
      have hrun2 : c2.run = _ := congrArg View.run hview
      refine .setStep (s := s3) ?_
      rw [hrun2, Run.steps_pushEvent, u.steps_apply, (hlogs.setStep id s3).steps,
        Run.setStep_setStep]
    have hsaid2 : s2.Says a status failed.effectStatus := by
      obtain ⟨_, rfl⟩ := hs2.eq
      exact hsaid
    have hend : v.Leads c2.view := by
      refine (View.Leads.visited hf (.park a (hst ▸ hopen) howns (hs2.closes hc) hfailed hsaid2 hp)
        ?_).trans ?_
      · rintro _ ⟨⟩
        exact hp.admissible hf
      · have hl := (hlogs.setStep id s3).apply u
        rw [Run.setStep_setStep] at hl
        rw [hview, htr]
        exact (View.Leads.logs (v := ⟨_, v.trace ++ _⟩) hl).trans
          (View.Leads.event .stepWaiting x rfl (by simp) hslot)
    cases verdict with
    | retry => simpa using ⟨hend, hfocus⟩
    | hold => simpa using ⟨hend, hfocus⟩
    | fail code => exact absurd rfl (hv code)

theorem failRunForStepTx_leads (hf : c.run.steps.find? id = some s) (hs : s.state ≠ .succeeded)
    (reason : String) (actor : Option ActorID) :
    Commits (failRunForStepTx id reason actor) c fun _ c' => c.view.Leads c'.view := by
  refine (failRunForStepTx_spec id reason actor c).mono ?_
  rintro _ c' ⟨now, closedAt, r', hends, hview⟩
  rw [hview]
  exact View.Leads.single (v := c.view)
    (.close (.fail [] reason actor now closedAt (.asFound hf hs) .refl) hends)

omit [Platform] in
theorem Run.firstNonterminal?_eq_some (h : r.firstNonterminal? = some id) :
    ∃ s, r.steps.find? id = some s ∧ s.state.terminal = false := by
  obtain ⟨e, he, rfl⟩ := Option.map_eq_some_iff.mp h
  have hmem := (List.mem_insertionSort _).mp (List.mem_of_find?_eq_some he)
  exact ⟨e.2, (r.steps.find?_eq_some_iff e.1 e.2).mpr hmem, by simpa using List.find?_some he⟩

omit [Platform] in
theorem Run.firstNonterminal?_eq_none (h : r.firstNonterminal? = none) : r.AllTerminal := by
  intro e he
  have hn := List.find?_eq_none.mp (Option.map_eq_none_iff.mp h) e
    ((List.mem_insertionSort _).mpr he)
  simpa using hn

omit [Platform] in
theorem RunStatus.terminal_of_closing {s : RunStatus} (h : s.closing = false) :
    s.terminal = false := by
  cases s <;> first | rfl | cases h

theorem failOverdueRunWithoutStepsTx_leads (hopen : c.run.status.closing = false)
    (hall : c.run.AllTerminal) :
    Commits failOverdueRunWithoutStepsTx c fun _ c' => c.view.Leads c'.view := by
  simp only [failOverdueRunWithoutStepsTx, commits_bind, commits_mapSteps]
  refine (closeOpenCasesTx_spec none _ .fail _).mono ?_
  rintro _ c1 ⟨closedAt, r1, hlogs, hview⟩
  have hrun : c1.run = r1 := congrArg View.run hview
  have htr : c1.sys.trace = c.sys.trace := congrArg View.trace hview
  rw [RunScope.run_withRun, Run.mapSteps_mapSteps] at hlogs
  have hst : r1.status.terminal = false := by
    rw [hlogs.status]
    exact RunStatus.terminal_of_closing hopen
  simp only [commits_updateRun, commits_ite, commits_appendRunEvent, commits_pure, hrun,
    hst, RunScope.run_withRun, Bool.not_false, if_true, not_true_eq_false, false_implies, and_true,
    true_implies]
  intro hslot
  have hends := (hlogs.setStatus .failed (some "RUN_DEADLINE_EXCEEDED")).ends hslot
    [("status", .str "FAILED"), ("reason", .str "RUN_DEADLINE_EXCEEDED")]
  have hl := View.Leads.silent (v := c.view) (.close (.failWithoutSteps closedAt hopen hall) hends)
  rw [RunScope.trace_view, ← htr] at hl
  exact hl

theorem settleExpiredRunForControlTx_leads (hopen : c.run.status.closing = false) :
    Commits settleExpiredRunForControlTx c fun _ c' => c.view.Leads c'.view := by
  simp only [settleExpiredRunForControlTx, commits_bind, commits_getRun]
  cases h : c.run.firstNonterminal? with
  | none => exact failOverdueRunWithoutStepsTx_leads hopen (Run.firstNonterminal?_eq_none h)
  | some id =>
    obtain ⟨s, hf, hs⟩ := Run.firstNonterminal?_eq_some h
    refine failRunForStepTx_leads hf ?_ _ _
    intro hsucc
    rw [hsucc] at hs
    cases hs

end Deadbolt.Execution

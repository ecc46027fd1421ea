import Deadbolt.Deployment.Registration
import Deadbolt.Execution.Sample
import Deadbolt.Lifecycle.Control

/-!
# Retry delays

`ComputeRetryDelayMs` and the due times of `scheduleRetryOrHoldTx` and `resolveCaseRetryTx`, in
64-bit arithmetic. The cap is the integer one on every policy that `ValidateTask` accepts. The due
time is exact as long as the nanoseconds of the delay fit 64 bits; `ValidateTask` admits longer
delays, which wrap into the past, and the columns of a registered task do not.
-/

namespace Deadbolt.Execution

open Base Contracts Deadbolt.Deployment Tx RunTx

/-! ### Arithmetic -/

/-- The largest number of milliseconds whose nanoseconds fit 64 bits. -/
def maxDurationMs : Int := 9223372036854

theorem durationMs_exact {ms : Int} (h0 : 0 ≤ ms) (h : ms ≤ maxDurationMs) :
    durationMs ms = millis ms := by
  unfold maxDurationMs at h
  have hb : Int.bmod (ms * 1000000) (2 ^ 64) = ms * 1000000 := by
    rw [Int.bmod_eq_of_le] <;> norm_num <;> omega
  rw [durationMs, hb, millis]
  change ms * 1000000 / 1000 = 1000 * ms
  omega

/-- The cap is exact: where the machine saturates, the integer is above the greatest delay. -/
theorem backoffCapMs_eq {a m : Int} (ha : 0 ≤ a) (hm : 0 < m) (hmax : m ≤ 2 ^ 53) (n : Int) :
    backoffCapMs n a m = min m (a * 2 ^ (n - 1).toNat) := by
  have hshift : ((if n < 1 then 1 else n) - 1).toNat = (n - 1).toNat := by
    split <;> omega
  simp only [backoffCapMs, hshift, if_neg (not_le.mpr hm)]
  generalize (n - 1).toNat = k
  have hpow : (0 : Int) < 2 ^ k := by positivity
  rcases Int.lt_or_eq_of_le ha with hpos | rfl
  swap
  · simp [hm.le]
  rw [if_neg (not_le.mpr hpos)]
  have hprod : 0 < a * 2 ^ k := Int.mul_pos hpos hpow
  have hmax64 : m ≤ maxInt64 := hmax.trans (by decide)
  -- Either the shifted value is exact, or it and its stand-in are both above the greatest delay.
  have hbase : ∀ base : Int, (base = a * 2 ^ k ∨ (m ≤ base ∧ m ≤ a * 2 ^ k)) →
      (let base := if m < base then m else base; if base < 0 then 0 else base) =
        min m (a * 2 ^ k) := by
    rintro base (rfl | ⟨h1, h2⟩)
    · dsimp only
      split <;> split <;> omega
    · dsimp only
      split <;> split <;> omega
  refine hbase _ ?_
  split
  · next hk =>
    refine .inr ⟨hmax64, hmax.trans ?_⟩
    calc (2 : Int) ^ 53 ≤ 2 ^ k := pow_le_pow_right₀ (by norm_num) (by omega)
      _ ≤ a * 2 ^ k := le_mul_of_one_le_left hpow.le hpos
  · split
    · next hlt =>
      exact .inr ⟨hmax64, hmax64.trans ((Int.ediv_lt_iff_lt_mul hpow).mp hlt).le⟩
    · exact .inl rfl

theorem jitteredDelayMs_mem {cap : Int} (hcap : 0 ≤ cap) (draw : Nat) :
    0 ≤ jitteredDelayMs cap draw ∧ jitteredDelayMs cap draw ≤ cap := by
  unfold jitteredDelayMs
  split
  · exact ⟨le_rfl, hcap⟩
  split
  · exact ⟨hcap, le_rfl⟩
  · next hdraw =>
    have hd : (draw : Int) ≤ 2 ^ 53 := by exact_mod_cast (not_le.mp hdraw).le
    refine ⟨Int.ediv_nonneg (Int.mul_nonneg (Int.natCast_nonneg draw) hcap) (by norm_num), ?_⟩
    refine Int.ediv_le_of_le_mul (by norm_num) ?_
    rw [Int.mul_comm]
    exact Int.mul_le_mul_of_nonneg_left hd hcap

/-- A raised delay stays between Retry-After, as far as the greatest delay allows it, and the
greatest delay. -/
theorem raiseDelay_mem {delay m : Int} (h0 : 0 ≤ delay) (hm : 0 < m) (hle : delay ≤ m)
    (ra : Option Int) : 0 ≤ raiseDelay delay m ra ∧ raiseDelay delay m ra ≤ m ∧
      ∀ r ∈ ra, min r m ≤ raiseDelay delay m ra := by
  cases ra with
  | none => exact ⟨h0, hle, by simp⟩
  | some r =>
    simp only [raiseDelay, Option.mem_some_iff, forall_eq']
    split_ifs <;> omega

/-! ### Due times -/

def Run.timersOf (r : Run) (id : StepID) : List Timer :=
  ((r.steps.find? id).map Step.timers).getD []

theorem Run.timersOf_eq {r : Run} {id : StepID} {s : Step} (h : r.steps.find? id = some s) :
    r.timersOf id = s.timers := by
  simp [Run.timersOf, h]

/-- The times at which a retry of a policy may be due. -/
def RetryPolicy.DueAt (p : RetryPolicy) (failedAttemptNumber : Int) (retryAfterMs : Option Int)
    (now dueAt : Time) : Prop :=
  ∃ draw, dueAt = now + durationMs
    (computeRetryDelayMs failedAttemptNumber p.initialDelayMs p.maxDelayMs draw retryAfterMs)

/-- Every timer a step gains is due at one of the times. -/
def Run.GainsDue (id : StepID) (due : Time → Prop) (r r' : Run) : Prop :=
  ∀ t ∈ r'.timersOf id, t ∈ r.timersOf id ∨ due t.dueAt

section

variable {r r' : Run} {id : StepID} {s : Step} {due : Time → Prop} {timer : Option Timer}

theorem Run.GainsDue.none (h : r'.steps = r.steps) : Run.GainsDue id due r r' :=
  fun t ht => .inl (by rwa [Run.timersOf, h] at ht)

theorem Run.GainsDue.step {s' : Step} (hf : r.steps.find? id = some s)
    (hf' : r'.steps.find? id = some s') (ht : s'.timers = s.timers ++ timer.toList)
    (hdue : ∀ t ∈ timer, due t.dueAt) : Run.GainsDue id due r r' := by
  intro t hmem
  rw [Run.timersOf_eq hf', ht, List.mem_append, Option.mem_toList] at hmem
  rw [Run.timersOf_eq hf]
  exact hmem.imp_right (hdue t)

theorem Run.GainsDue.of_minted {policy : RetryPolicy} {s1 : Step}
    (hf : r.steps.find? id = some s) (hs : s.Minted policy s1)
    (h : Run.GainsDue id due (r.setStep id s1) r') : Run.GainsDue id due r r' := by
  obtain ⟨v, rfl⟩ := hs.eq
  have htimers := Run.timersOf_eq (Run.find?_setStep_self { s with idempotencyValidUntil := v } hf)
  intro t ht
  rw [Run.timersOf_eq hf]
  exact htimers ▸ h t ht

end

section

variable [Platform] {id : StepID} {s : Step} {c : RunScope}

theorem newTimer_due (s : Step) (kind : TimerKind) (dueAt : Time) (number : Option Int)
    (operation : Option String) (reason : String) (c : RunScope) :
    Commits (newTimer s kind dueAt number operation reason) c fun timer c' =>
      (∀ t ∈ timer, t.dueAt = dueAt) ∧ c'.view = c.view := by
  unfold newTimer
  cases s.pendingTimer? kind <;> simp

theorem routeStepToReconciliationTx_due (due : Time → Prop)
    (hf : c.run.steps.find? id = some s) (node : String) (attempt : Option AttemptID)
    (reason : String) (evidence : Payload) :
    Commits (routeStepToReconciliationTx id node attempt reason evidence) c fun _ c' =>
      Run.GainsDue id due c.run c'.run := by
  refine (routeStepToReconciliationTx_spec hf node attempt reason evidence).mono ?_
  rintro _ c' ⟨case, x, -, -, hview⟩
  have hrun : c'.run = _ := congrArg View.run hview
  have hf' : c'.run.steps.find? id = some (s.hold case) := by
    rw [hrun]
    exact (congrArg (Table.find? · id) (StatusMove.steps_apply .hold _)).trans
      (Run.find?_setStep_self _ hf)
  have htimers : (s.hold case).timers = s.timers ++ Option.toList none := by simp [Step.hold]
  exact .step hf hf' htimers (by simp)

/-- Every timer of a scheduled retry is due after a computed delay. -/
theorem scheduleRetryTx_due (hf : c.run.steps.find? id = some s) (node : String)
    (failed : FailedAttempt) (policy : RetryPolicy) (number : Int) (now : Time)
    (deadline : Option Time) (operation : String) :
    Commits (scheduleRetryTx id node failed policy number now deadline operation) c fun _ c' =>
      Run.GainsDue id (policy.DueAt failed.number
        (parseRetryAfter Platform.parseHTTPDate failed.retryAfter now) now) c.run c'.run := by
  simp only [scheduleRetryTx, commits_bind, commits_sampleJitter, commits_ite,
    commits_pure, commits_getStep]
  refine ⟨fun _ => .none rfl, fun _ s' hs' => ?_⟩
  obtain rfl := Option.mem_unique hf hs'
  refine (newTimer_due s .retryBackoff _ _ _ _ _).mono ?_
  rintro timer c1 ⟨hdue, hview⟩
  have hrun : c1.run = c.run := congrArg View.run hview
  simp only [commits_updateStep, commits_modifyRun, commits_appendRunEvent,
    RunScope.run_withRun, hrun]
  rw [Run.updateStep_of_find hf (p := fun _ => true) rfl]
  intro _
  have hf' (dueAt : Time) :=
    (congrArg (Table.find? · id) (StatusMove.steps_apply .retryWait _)).trans
      (Run.find?_setStep_self (s.parkRetry timer dueAt) hf)
  exact .step hf (hf' _) rfl fun t ht => ⟨_, hdue t ht⟩

theorem retryIdempotentTx_due (hf : c.run.steps.find? id = some s) (node : String)
    (failed : FailedAttempt) {policy : RetryPolicy}
    (hmode : recoveryMode policy.recovery = "idempotent") (now : Time) (deadline : Option Time)
    (operation : String) (evidence : Payload) :
    Commits (retryIdempotentTx id node failed policy s now deadline operation evidence) c
      fun _ c' => Run.GainsDue id (policy.DueAt failed.number
        (parseRetryAfter Platform.parseHTTPDate failed.retryAfter now) now) c.run c'.run := by
  unfold retryIdempotentTx
  refine (retryDeadline_spec hf hmode s.idempotencyValidUntil).bind ?_
  rintro valid c1 ⟨s1, hs1, hview⟩
  have hrun : c1.run = c.run.setStep id s1 := congrArg View.run hview
  have hf1 : c1.run.steps.find? id = some s1 := by rw [hrun]; exact Run.find?_setStep_self s1 hf
  have hback {r' : Run} {due : Time → Prop} (h : Run.GainsDue id due c1.run r') :
      Run.GainsDue id due c.run r' := .of_minted hf hs1 (hrun ▸ h)
  cases valid with
  | none =>
    simp only [commits_bind, commits_pure]
    exact (routeStepToReconciliationTx_due _ hf1 _ _ _ _).mono fun _ _ h => hback h
  | some validUntil =>
    simp only [commits_ite, commits_bind, commits_pure]
    exact ⟨fun _ => (routeStepToReconciliationTx_due _ hf1 _ _ _ _).mono fun _ _ h => hback h,
      fun _ => (scheduleRetryTx_due hf1 _ _ _ _ _ _ _).mono fun _ _ h => hback h⟩

/-- Every timer a closed attempt leaves is due after a computed delay, counted from the database
time the transaction reads. -/
theorem scheduleRetryOrHoldTx_due (hf : c.run.steps.find? id = some s) (node : String)
    (failed : FailedAttempt) (policy : RetryPolicy) (deadline : Option Time) :
    Commits (scheduleRetryOrHoldTx id node failed policy deadline) c fun _ c' =>
      let now := Platform.clock c.sys.ticks
      Run.GainsDue id (policy.DueAt failed.number
        (parseRetryAfter Platform.parseHTTPDate failed.retryAfter now) now) c.run c'.run := by
  simp only [scheduleRetryOrHoldTx, commits_bind, commits_clockTimestamp,
    commits_getRun, commits_getRunID, commits_getStep]
  intro s' hs'
  obtain rfl := Option.mem_unique hf hs'
  simp only [commits_ite, commits_pure, commits_bind]
  refine ⟨fun _ => .none rfl, fun _ => ⟨fun _ => .none rfl, fun _ => ⟨fun _ => .none rfl, fun _ =>
    ⟨fun _ => .none rfl, fun _ => ⟨fun _ => ?_, fun _ => ⟨fun _ => .none rfl, fun _ =>
      ⟨fun _ => .none rfl, fun _ => ⟨fun hmode => ?_, fun _ => ?_⟩⟩⟩⟩⟩⟩⟩⟩
  · exact routeStepToReconciliationTx_due (c := c.tick) _ hf _ _ _ _
  · exact retryIdempotentTx_due (c := c.tick) hf _ _ hmode _ _ _ _
  · exact scheduleRetryTx_due (c := c.tick) hf _ _ _ _ _ _ _

/-- A confirmed retry counts the attempts the step has had, and reads no Retry-After. -/
theorem resolveCaseRetryTx_due (hf : c.run.steps.find? id = some s) (node : String)
    (case : CaseID) (policy : RetryPolicy) (actor : ActorID) (now : Time) :
    Commits (resolveCaseRetryTx id node case policy actor now) c fun _ c' =>
      Run.GainsDue id (policy.DueAt (max 1 (s.nextAttemptNumber - 1)) none now) c.run c'.run := by
  simp only [resolveCaseRetryTx, commits_bind, commits_getRun, commits_getRunID,
    commits_getStep, commits_require]
  intro s' hs' hw _
  obtain rfl := Option.mem_unique hf hs'
  refine (resolveRetryAdmission_spec hf policy now).mono ?_
  rintro _ c1 ⟨s1, hs1, hview1⟩
  have hrun1 : c1.run = c.run.setStep id s1 := congrArg View.run hview1
  have hf1 : c1.run.steps.find? id = some s1 := by
    rw [hrun1]
    exact Run.find?_setStep_self s1 hf
  have hnumber : (if s.nextAttemptNumber - 1 < 1 then 1 else s.nextAttemptNumber - 1) =
      max 1 (s.nextAttemptNumber - 1) := by
    split <;> omega
  simp only [commits_sampleJitter, hnumber]
  generalize hdueAt : now + durationMs _ = dueAt
  intro _
  refine (newTimer_due s .retryBackoff _ _ _ _ _).mono ?_
  rintro timer c2 ⟨hdue, hview2⟩
  have hrun2 : c2.run = c1.run := congrArg View.run hview2
  have hw1 : s1.waitsFor "RECONCILIATION" = true := by
    rw [hs1.waitsFor]
    exact hw
  simp only [commits_note, commits_updateStep, RunScope.run_visit, hrun2]
  rw [Run.updateStep_of_find hf1 hw1]
  refine (markCaseResolvedTx_spec (Run.find?_setStep_self _ hf1) case .retry actor).mono ?_
  rintro _ c3 ⟨-, t, hview3⟩
  rw [RunScope.run_withRun, Run.setStep_setStep] at hview3
  have hrun3 : c3.run = c1.run.setStep id
      ((s1.parkRetry timer dueAt).resolveCase case .retry actor t) := congrArg View.run hview3
  have hf3 := Run.find?_setStep_self ((s1.parkRetry timer dueAt).resolveCase case .retry actor t) hf1
  rw [← hrun3] at hf3
  simp only [commits_appendRunEvent]
  intro _ _
  refine .of_minted hf hs1 (hrun1 ▸ ?_)
  exact .step hf1 hf3 rfl fun t ht => ⟨_, (hdue t ht).trans hdueAt.symm⟩

end

/-! ### Accepted policies -/

/-- A due time of a policy is the present time and the delay in milliseconds, as long as the
greatest delay is one. -/
theorem RetryPolicy.DueAt.exact {p : RetryPolicy} {n : Int} {ra : Option Int} {now dueAt : Time}
    (h : p.DueAt n ra now dueAt) (hinitial : 0 ≤ p.initialDelayMs) (hmax : 0 < p.maxDelayMs)
    (hsafe : p.maxDelayMs ≤ 2 ^ 53) (hfits : p.maxDelayMs ≤ maxDurationMs) :
    ∃ delay, dueAt = now + millis delay ∧ now ≤ dueAt ∧ delay ≤ p.maxDelayMs ∧
      ∀ r ∈ ra, min r p.maxDelayMs ≤ delay := by
  obtain ⟨draw, rfl⟩ := h
  have hcap := backoffCapMs_eq hinitial hmax hsafe n
  have hcap0 : 0 ≤ backoffCapMs n p.initialDelayMs p.maxDelayMs := by
    rw [hcap]
    exact le_min hmax.le (Int.mul_nonneg hinitial (by positivity))
  obtain ⟨hj0, hj⟩ := jitteredDelayMs_mem hcap0 draw
  obtain ⟨h0, hle, hra⟩ := raiseDelay_mem hj0 hmax (hj.trans (hcap ▸ min_le_left _ _)) ra
  refine ⟨_, by rw [computeRetryDelayMs, durationMs_exact h0 (hle.trans hfits)], ?_, hle, hra⟩
  rw [computeRetryDelayMs, durationMs_exact h0 (hle.trans hfits)]
  exact Int.le_add_of_nonneg_right (Int.mul_nonneg (by norm_num) h0)

def Sample.delayed (initialDelayMs maxDelayMs : Rat) : Json :=
  Contracts.Sample.task "a" [("initialDelayMs", .num initialDelayMs), ("maxDelayMs", .num maxDelayMs)]

def Sample.delayedManifest (initialDelayMs maxDelayMs : Rat) : TaskManifest :=
  (decodeTask (Sample.delayed initialDelayMs maxDelayMs)).getD (Sample.taskManifest "a" "safe" none)

def Sample.retryAfter (seconds : String) : TaskError :=
  { code := "RATE_LIMITED", message := "", details := none, retryable := true
    effectStatus := "NOT_APPLIED", retryAfter := seconds }

end Deadbolt.Execution

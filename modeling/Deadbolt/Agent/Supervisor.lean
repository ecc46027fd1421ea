import Deadbolt.Base.System

/-!
# The lease of a running attempt

`internal/worker/lease.go` and the select loop of `ExecuteAttempt`, `process.go:360-428`. The lease
is kept twice: the tracker, which the heartbeat loop of the agent renews, and a timer of the loop,
which is set at launch and moved only by a renewal of the supervisor's own `RenewLeaseFn`. Durations
are milliseconds of one monotonic clock.
-/

namespace Deadbolt.Agent

open Base

abbrev Duration := Int

/-! ### The tracker -/

/-- `LeaseTracker`, `lease.go:22-30`. -/
structure LeaseTracker where
  budget : Duration
  safetyMargin : Duration
  estimatedRTT : Duration
  ackElapsed : Duration
  deriving DecidableEq

namespace LeaseTracker

/-- `NewLeaseTrackerWithElapsed`, `lease.go:39-55`. -/
def new (expiresAt wallNow rtt margin elapsed : Duration) : LeaseTracker where
  budget := expiresAt - wallNow
  safetyMargin := if margin ≤ 0 then 2000 else margin
  estimatedRTT := if rtt ≤ 0 then 500 else rtt
  ackElapsed := elapsed

/-- `SafeRemainingTTL`, `lease.go:57-72`; `none` is `ErrInsufficientLeaseTTL`. -/
def safeRemainingTTL (lt : LeaseTracker) (elapsed : Duration) : Option Duration :=
  let raw := lt.budget - (elapsed - lt.ackElapsed)
  let safe := raw - lt.estimatedRTT - lt.safetyMargin
  if safe ≤ 0 then none else some safe

/-- `IsExpired`, `lease.go:90-93`. -/
def isExpired (lt : LeaseTracker) (elapsed : Duration) : Bool :=
  (lt.safeRemainingTTL elapsed).isNone

/-- `Renew`, `lease.go:80-88`. -/
def renew (lt : LeaseTracker) (newExpiresAt wallNow measuredRTT elapsed : Duration) :
    LeaseTracker :=
  { lt with
    budget := newExpiresAt - wallNow
    estimatedRTT := if 0 < measuredRTT then measuredRTT else lt.estimatedRTT
    ackElapsed := elapsed }

end LeaseTracker

/-! ### The loop -/

inductive FinalErr where
  | exited (code : Int)
  | executionTimedOut
  | processTerminated
  | leaseExpired
  deriving DecidableEq

/-- What the loop selects next, and the renewals of the heartbeat loop beside it. -/
inductive Event where
  | heartbeat (expiresAt wallNow rtt : Duration)
  | exit (code : Int)
  | ctxDone (deadlineExceeded : Bool)
  | leaseTimer
  | renewalDone (renewal : Option (Duration × Duration)) (wallNow : Duration)
  | tick
  deriving DecidableEq

structure Moment where
  time : Duration
  event : Event
  deriving DecidableEq

structure Execution where
  tracker : LeaseTracker
  /-- When the timer of the loop fires. -/
  leaseTimer : Duration
  /-- The supervisor has a `RenewLeaseFn`. -/
  renews : Bool
  renewing : Bool
  timeoutMs : Int
  final : Option FinalErr
  deriving DecidableEq

namespace Execution

/-- The loop is entered, `process.go:366-381`. -/
def launch (tracker : LeaseTracker) (renews : Bool) (timeoutMs : Int) (elapsed : Duration) :
    Execution where
  tracker := tracker
  leaseTimer := elapsed + (tracker.safeRemainingTTL elapsed).getD 0
  renews := renews
  renewing := false
  timeoutMs := timeoutMs
  final := none

/-- A renewal of the supervisor, `process.go:401-418`. -/
def renewed (x : Execution) (renewal : Duration × Duration) (wallNow elapsed : Duration) :
    Execution :=
  let tracker := x.tracker.renew renewal.1 wallNow renewal.2 elapsed
  match tracker.safeRemainingTTL elapsed with
  | none => { x with tracker, renewing := false, final := some .leaseExpired }
  | some safe => { x with tracker, renewing := false, leaseTimer := elapsed + safe }

/-- One moment, `process.go:383-428`. A timer that has not fired and a renewal
that was not asked for cannot be selected. -/
def step (x : Execution) (m : Moment) : Execution :=
  if x.final.isSome then x
  else
    match m.event with
    | .heartbeat expiresAt wallNow rtt =>
      { x with tracker := x.tracker.renew expiresAt wallNow rtt m.time }
    | .exit code => { x with final := some (.exited code) }
    | .ctxDone deadlineExceeded =>
      if deadlineExceeded && decide (0 < x.timeoutMs) then
        { x with final := some .executionTimedOut }
      else { x with final := some .processTerminated }
    | .leaseTimer =>
      if x.leaseTimer ≤ m.time then { x with final := some .leaseExpired } else x
    | .renewalDone renewal wallNow =>
      if x.renewing then
        match renewal with
        | none => { x with renewing := false }
        | some renewal => x.renewed renewal wallNow m.time
      else x
    | .tick => if x.renews && !x.renewing then { x with renewing := true } else x

end Execution

def executeAttempt : System Execution Moment := ⟨Execution.step⟩

/-- The tracker is unexpired up to the moment and after it. -/
def Execution.Leased (x : Execution) (m : Moment) : Prop :=
  x.tracker.isExpired m.time = false ∧ (x.step m).tracker.isExpired m.time = false

/-- The moment comes before the timer of the loop. -/
def Execution.Early (x : Execution) (m : Moment) : Prop := m.time < x.leaseTimer

instance (x : Execution) (m : Moment) : Decidable (x.Early m) :=
  inferInstanceAs (Decidable (m.time < x.leaseTimer))

/-! ### When the timer kills -/

namespace Execution

variable {x : Execution}

theorem step_final_of_early {m : Moment} (hx : x.final ≠ some .leaseExpired) (hl : x.Leased m)
    (he : x.Early m) : (x.step m).final ≠ some .leaseExpired := by
  obtain ⟨-, hafter⟩ := hl
  unfold step at hafter ⊢
  cases hf : x.final with
  | some e => simpa [hf] using hx
  | none =>
    simp only [hf, Option.isSome_none, Bool.false_eq_true, if_false] at hafter ⊢
    cases hm : m.event with
    | heartbeat expiresAt wallNow rtt => simp
    | exit code => simp
    | ctxDone deadlineExceeded =>
      simp only
      split <;> simp
    | leaseTimer =>
      have : ¬ x.leaseTimer ≤ m.time := Int.not_le.mpr he
      simp [this, hf]
    | renewalDone renewal wallNow =>
      simp only [hm] at hafter ⊢
      split
      · next hr =>
        cases renewal with
        | none => simp
        | some renewal =>
          simp only [hr, if_true, renewed] at hafter ⊢
          -- A renewal that leaves no safe time would have left an expired tracker.
          split at hafter <;> simp_all [LeaseTracker.isExpired]
      · simp [hf]
    | tick =>
      simp only
      split <;> simp [hf]

theorem step_leaseTimer (hr : x.renews = false ∧ x.renewing = false) (m : Moment) :
    (x.step m).leaseTimer = x.leaseTimer ∧
      (x.step m).renews = false ∧ (x.step m).renewing = false := by
  obtain ⟨hr, hn⟩ := hr
  unfold step
  split
  · exact ⟨rfl, hr, hn⟩
  · cases m.event with
    | leaseTimer =>
      simp only
      split <;> exact ⟨rfl, hr, hn⟩
    | renewalDone renewal wallNow => simp [hr, hn]
    | tick => simp [hr, hn]
    | heartbeat expiresAt wallNow rtt => exact ⟨rfl, hr, hn⟩
    | exit code => exact ⟨rfl, hr, hn⟩
    | ctxDone deadlineExceeded =>
      simp only
      split <;> exact ⟨rfl, hr, hn⟩

theorem step_leaseTimer_fires (hx : x.final = none) {t : Duration} (ht : x.leaseTimer ≤ t) :
    (x.step ⟨t, .leaseTimer⟩).final = some .leaseExpired := by
  simp [step, hx, ht]

end Execution

theorem leaseTimer_exec {x : Execution} (hr : x.renews = false ∧ x.renewing = false)
    (ms : List Moment) : (executeAttempt.exec x ms).leaseTimer = x.leaseTimer := by
  have h := executeAttempt.invariant_of_step
    (I := fun y => y.leaseTimer = x.leaseTimer ∧ y.renews = false ∧ y.renewing = false)
    (fun y m hy => by
      obtain ⟨ht, hr'⟩ := y.step_leaseTimer hy.2 m
      exact ⟨ht.trans hy.1, hr'⟩) ⟨rfl, hr⟩ ms
  exact h.1

/-- While the tracker is unexpired, a runner is not ended for its lease before the timer of the
loop; a runner that is still there when the timer fires is ended, whatever the tracker says, and
for the supervisor of the agent the timer is the safe time left at launch. -/
theorem executeAttempt_leaseExpired (tracker : LeaseTracker) (renews : Bool) (timeoutMs : Int)
    (start : Duration) (ms : List Moment)
    (hleased : executeAttempt.Along Execution.Leased
      (Execution.launch tracker renews timeoutMs start) ms) :
    (executeAttempt.Along Execution.Early (Execution.launch tracker renews timeoutMs start) ms →
      (executeAttempt.exec (Execution.launch tracker renews timeoutMs start) ms).final ≠
        some .leaseExpired) ∧
    ((executeAttempt.exec (Execution.launch tracker renews timeoutMs start) ms).final = none →
      ∀ t, (executeAttempt.exec (Execution.launch tracker renews timeoutMs start) ms).leaseTimer ≤ t →
        (executeAttempt.exec (Execution.launch tracker renews timeoutMs start)
          (ms ++ [⟨t, .leaseTimer⟩])).final = some .leaseExpired) ∧
    (renews = false →
      (executeAttempt.exec (Execution.launch tracker renews timeoutMs start) ms).leaseTimer =
        start + (tracker.safeRemainingTTL start).getD 0) := by
  refine ⟨fun hearly => ?_, fun hrun t ht => ?_, fun hr => ?_⟩
  · exact executeAttempt.invariant (I := fun x => x.final ≠ some .leaseExpired)
      (fun x m hx h => x.step_final_of_early hx h.1 h.2) (by simp [Execution.launch])
      (System.Along.and executeAttempt hleased hearly)
  · rw [System.exec_append]
    exact Execution.step_leaseTimer_fires hrun ht
  · exact leaseTimer_exec ⟨hr, rfl⟩ ms

def renewedRunner : Execution := Execution.launch (.new 30000 0 500 2000 0) false 60000 0

def renewedSchedule : List Moment :=
  [⟨10000, .heartbeat 40000 10000 100⟩, ⟨20000, .heartbeat 50000 20000 100⟩, ⟨27500, .leaseTimer⟩]

/-- The tracker never expires, and the runner is ended for its lease after 27.5 s. -/
theorem renewedRunner_leaseExpired :
    executeAttempt.Along Execution.Leased renewedRunner renewedSchedule ∧
      (executeAttempt.exec renewedRunner renewedSchedule).final = some .leaseExpired :=
  ⟨⟨⟨rfl, rfl⟩, ⟨rfl, rfl⟩, ⟨rfl, rfl⟩, trivial⟩, rfl⟩

/-- A runner that exits before the timer keeps its result. -/
theorem renewedRunner_exits :
    (executeAttempt.exec renewedRunner
      [⟨10000, .heartbeat 40000 10000 100⟩, ⟨25000, .exit 0⟩]).final ≠ some .leaseExpired :=
  (executeAttempt_leaseExpired (.new 30000 0 500 2000 0) false 60000 0
    [⟨10000, .heartbeat 40000 10000 100⟩, ⟨25000, .exit 0⟩]
    ⟨⟨rfl, rfl⟩, ⟨rfl, rfl⟩, trivial⟩).1 ⟨by decide, by decide, trivial⟩

end Deadbolt.Agent

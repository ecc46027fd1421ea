import Deadbolt.Agent.Supervisor
import Deadbolt.Lifecycle.Fencing

/-!
# What the worker's tracker knows about the server's lease

The lease of one attempt on both sides: the row of `task_leases` that a claim inserts and
heartbeats renew, and the `LeaseTracker` that the agent sets from the replies it reads,
`internal/worker/agent.go:362-386, 612-662`. Replies can be late, lost or out of order. Both
clocks advance at one rate, and the wall clock of the worker is behind that of the server by a
fixed offset, which may be negative. Times are nanoseconds.
-/

namespace Deadbolt.Agent

open Base Tx

/-! ### 64-bit durations -/

/-- `time.Time.Sub`, which saturates. -/
def subTime (t u : Int) : Int := max (-2 ^ 63) (min (2 ^ 63 - 1) (t - u))

/-- Arithmetic of `time.Duration`, which wraps. -/
def wrap64 (d : Int) : Int := d.bmod (2 ^ 64)

theorem subTime_eq {t u : Int} (h : |t - u| < 2 ^ 62) : subTime t u = t - u := by
  rw [abs_lt] at h
  unfold subTime
  omega

theorem wrap64_eq {d : Int} (h : |d| < 2 ^ 63) : wrap64 d = d := by
  rw [abs_lt] at h
  refine Int.bmod_eq_of_le ?_ ?_
  · omega
  · omega

namespace LeaseTracker

/-- `new` with the saturating difference of the source. -/
def new64 (expiresAt wallNow rtt margin elapsed : Int) : LeaseTracker :=
  { new expiresAt wallNow rtt margin elapsed with budget := subTime expiresAt wallNow }

/-- `renew` with the saturating difference of the source. -/
def renew64 (lt : LeaseTracker) (newExpiresAt wallNow measuredRTT elapsed : Int) :
    LeaseTracker :=
  { lt.renew newExpiresAt wallNow measuredRTT elapsed with budget := subTime newExpiresAt wallNow }

/-- `safeRemainingTTL` with the wrapping arithmetic of the source. -/
def safeRemainingTTL64 (lt : LeaseTracker) (elapsed : Int) : Option Int :=
  let raw := wrap64 (lt.budget - wrap64 (elapsed - lt.ackElapsed))
  let safe := wrap64 (wrap64 (raw - lt.estimatedRTT) - lt.safetyMargin)
  if safe ≤ 0 then none else some safe

/-- `isExpired` with the wrapping arithmetic of the source. -/
def isExpired64 (lt : LeaseTracker) (elapsed : Int) : Bool :=
  (lt.safeRemainingTTL64 elapsed).isNone

/-- The four durations are small enough that no sum of them overflows. -/
structure InRange (lt : LeaseTracker) (elapsed : Int) : Prop where
  budget : |lt.budget| < 2 ^ 62
  elapsed : |elapsed - lt.ackElapsed| < 2 ^ 61
  rtt : |lt.estimatedRTT| < 2 ^ 60
  margin : |lt.safetyMargin| < 2 ^ 60

/-- Without overflow the machine arithmetic is that of the integers. -/
theorem isExpired64_eq {lt : LeaseTracker} {elapsed : Int} (h : lt.InRange elapsed) :
    lt.isExpired64 elapsed = lt.isExpired elapsed := by
  obtain ⟨hbudget, helapsed, hrtt, hmargin⟩ := h
  rw [abs_lt] at hbudget helapsed hrtt hmargin
  unfold Duration at *
  have h1 : wrap64 (elapsed - lt.ackElapsed) = elapsed - lt.ackElapsed :=
    wrap64_eq (abs_lt.mpr (by omega))
  have h2 : wrap64 (lt.budget - (elapsed - lt.ackElapsed)) =
      lt.budget - (elapsed - lt.ackElapsed) := wrap64_eq (abs_lt.mpr (by omega))
  have h3 : wrap64 (lt.budget - (elapsed - lt.ackElapsed) - lt.estimatedRTT) =
      lt.budget - (elapsed - lt.ackElapsed) - lt.estimatedRTT := wrap64_eq (abs_lt.mpr (by omega))
  have h4 : wrap64 (lt.budget - (elapsed - lt.ackElapsed) - lt.estimatedRTT - lt.safetyMargin) =
      lt.budget - (elapsed - lt.ackElapsed) - lt.estimatedRTT - lt.safetyMargin :=
    wrap64_eq (abs_lt.mpr (by omega))
  simp only [isExpired64, safeRemainingTTL64, h1, h2, h3, h4, isExpired, safeRemainingTTL]

/-- A tracker that is not expired has more left than its two margins. -/
theorem isExpired_eq_false {lt : LeaseTracker} {elapsed : Int} :
    lt.isExpired elapsed = false ↔
      lt.estimatedRTT + lt.safetyMargin < lt.budget - (elapsed - lt.ackElapsed) := by
  unfold isExpired safeRemainingTTL Duration
  simp only
  split <;> simp <;> omega

end LeaseTracker

/-! ### The two sides -/

/-- An expiry the server has sent: by the claim, or by a renewal. -/
structure Reply where
  expiresAt : Int
  first : Bool
  deriving DecidableEq

/-- The tracker, with the reply it was last set from, the server's time at that moment and how long
the process paused between its readings of the wall clock and of the monotonic clock. -/
structure Held where
  tracker : LeaseTracker
  reply : Reply
  ackAt : Int
  gap : Nat
  deriving DecidableEq

/-- The lease of one attempt. `now` is the server's clock, `granted` the expiry the claim wrote,
`lease` the row, and `deadline` the earlier of the deadlines of the attempt and of its run. -/
structure LeaseState where
  now : Int
  granted : Option Int
  lease : Option Int
  deadline : Option Int
  replies : List Reply
  held : Option Held
  deriving DecidableEq

/-- The clocks of the worker: how far its wall clock is behind the server's, and the server's time
at which its monotonic clock started. -/
structure Clocks where
  offset : Int
  boot : Int

inductive LeaseStep where
  /-- Time passes. -/
  | tick (d : Nat)
  /-- `Claim` inserts the lease. -/
  | claim
  /-- `Start` sets the deadline. -/
  | start (deadline : Int)
  /-- `Heartbeat` is handled; some time passes between its two readings of the clock. -/
  | heartbeat (pause : Nat)
  /-- The row is deleted. -/
  | drop
  /-- The worker reads the reply and measures a round trip. -/
  | receive (i : Nat) (measuredRTT : Int) (gap : Nat)
  deriving DecidableEq

def leaseTTL : Int := 30 * 10 ^ 9

namespace LeaseState

def initial (now : Int) : LeaseState where
  now := now
  granted := none
  lease := none
  deadline := none
  replies := []
  held := none

/-- The worker reads a reply: the first sets the tracker up, a renewal renews it. -/
def read (clocks : Clocks) (s : LeaseState) (reply : Reply) (measuredRTT : Int) (gap : Nat) :
    LeaseState :=
  let wallNow := s.now - clocks.offset
  let elapsed := s.now + gap - clocks.boot
  let set (tracker : LeaseTracker) : LeaseState :=
    { s with now := s.now + gap, held := some ⟨tracker, reply, s.now, gap⟩ }
  match reply.first, s.held with
  | true, none =>
    set (LeaseTracker.new64 reply.expiresAt wallNow (500 * 10 ^ 6) (2 * 10 ^ 9) elapsed)
  | false, some h => set (h.tracker.renew64 reply.expiresAt wallNow measuredRTT elapsed)
  | _, _ => s

def step (clocks : Clocks) (s : LeaseState) : LeaseStep → LeaseState
  | .tick d => { s with now := s.now + d }
  | .claim =>
    if s.granted.isSome then s
    else
      { s with
        granted := some (s.now + leaseTTL), lease := some (s.now + leaseTTL)
        replies := s.replies ++ [⟨s.now + leaseTTL, true⟩] }
  | .start deadline => if s.deadline.isSome then s else { s with deadline := some deadline }
  | .heartbeat pause =>
    match s.lease, s.deadline with
    | some expiresAt, some deadline =>
      if expiresAt ≤ s.now ∨ deadline ≤ s.now then s
      else
        let renewed := min (s.now + pause + leaseTTL) deadline
        { s with
          now := s.now + pause, lease := some renewed
          replies := s.replies ++ [⟨renewed, false⟩] }
    | _, _ => s
  | .drop => { s with lease := none }
  | .receive i measuredRTT gap =>
    match s.replies[i]? with
    | none => s
    | some reply => s.read clocks reply measuredRTT gap

end LeaseState

def leaseSystem (clocks : Clocks) : System LeaseState LeaseStep := ⟨LeaseState.step clocks⟩

namespace LeaseState

/-! ### The invariant -/

structure Sound (clocks : Clocks) (s : LeaseState) : Prop where
  /-- The first reply has the expiry that the claim wrote. -/
  first : ∀ r ∈ s.replies, r.first = true → s.granted = some r.expiresAt
  /-- No reply promises more than a lease of this moment. -/
  ahead : ∀ r ∈ s.replies, r.expiresAt ≤ s.now + leaseTTL
  /-- A renewal is bounded by the deadline, and later renewals do not take it back. -/
  renewal : ∀ r ∈ s.replies, r.first = false →
    (∃ d, s.deadline = some d ∧ r.expiresAt ≤ d) ∧ ∀ e, s.lease = some e → r.expiresAt ≤ e
  /-- The lease is the one of the claim, or has been renewed at a later time. -/
  lease : ∀ e, s.lease = some e → ∃ g, s.granted = some g ∧ g ≤ s.now + leaseTTL ∧
    (e = g ∨ ∃ d, s.deadline = some d ∧ min g d ≤ e)
  held : ∀ h, s.held = some h → h.reply ∈ s.replies ∧ h.ackAt + h.gap ≤ s.now ∧
    h.tracker.budget = subTime h.reply.expiresAt (h.ackAt - clocks.offset) ∧
    h.tracker.ackElapsed = h.ackAt + h.gap - clocks.boot

variable {clocks : Clocks} {s : LeaseState}

theorem sound_initial (now : Int) : (initial now).Sound clocks where
  first := by simp [initial]
  ahead := by simp [initial]
  renewal := by simp [initial]
  lease := by simp [initial]
  held := by simp [initial]

theorem Sound.tick (h : s.Sound clocks) (d : Nat) : ({ s with now := s.now + d }).Sound clocks := by
  obtain ⟨hfirst, hahead, hrenewal, hlease, hheld⟩ := h
  refine ⟨hfirst, fun r hr => ?_, hrenewal, fun e he => ?_, fun held hh => ?_⟩
  · have := hahead r hr
    simp only
    omega
  · obtain ⟨g, hg, hle, h⟩ := hlease e he
    exact ⟨g, hg, by simp only; omega, h⟩
  · obtain ⟨hmem, hle, h⟩ := hheld held hh
    exact ⟨hmem, by simp only; omega, h⟩

theorem Sound.claim (h : s.Sound clocks) : (s.step clocks .claim).Sound clocks := by
  rw [step]
  split
  · exact h
  · next hnone =>
    rw [Option.not_isSome_iff_eq_none] at hnone
    obtain ⟨hfirst, hahead, hrenewal, -, hheld⟩ := h
    refine ⟨fun r hr hf => ?_, fun r hr => ?_, fun r hr hf => ?_, fun e he => ?_, fun held hh => ?_⟩
    · rcases List.mem_append.mp hr with hr | hr
      · simp [hfirst r hr hf] at hnone
      · rw [List.mem_singleton.mp hr]
    · rcases List.mem_append.mp hr with hr | hr
      · exact hahead r hr
      · rw [List.mem_singleton.mp hr]
    · rcases List.mem_append.mp hr with hr | hr
      · refine ⟨(hrenewal r hr hf).1, fun e he => ?_⟩
        obtain rfl := Option.some.inj he
        exact hahead r hr
      · simp [List.mem_singleton.mp hr] at hf
    · exact ⟨s.now + leaseTTL, rfl, le_rfl, .inl (Option.some.inj he).symm⟩
    · obtain ⟨hmem, h⟩ := hheld held hh
      exact ⟨List.mem_append_left _ hmem, h⟩

theorem Sound.start (h : s.Sound clocks) (d : Int) : (s.step clocks (.start d)).Sound clocks := by
  rw [step]
  split
  · exact h
  · next hnone =>
    rw [Option.not_isSome_iff_eq_none] at hnone
    obtain ⟨hfirst, hahead, hrenewal, hlease, hheld⟩ := h
    refine ⟨hfirst, hahead, fun r hr hf => ?_, fun e he => ?_, hheld⟩
    · obtain ⟨d', hd', -⟩ := (hrenewal r hr hf).1
      simp [hnone] at hd'
    · obtain ⟨g, hg, hle, rfl | ⟨d', hd', -⟩⟩ := hlease e he
      · exact ⟨e, hg, hle, .inl rfl⟩
      · simp [hnone] at hd'

theorem Sound.heartbeat (h : s.Sound clocks) (pause : Nat) :
    (s.step clocks (.heartbeat pause)).Sound clocks := by
  rw [step]
  split
  · next expiresAt deadline hexp hd =>
    split
    · exact h
    · next hdue =>
      obtain ⟨hfirst, hahead, hrenewal, hlease, hheld⟩ := h.tick pause
      simp only at hfirst hahead hrenewal hlease hheld
      refine ⟨fun r hr hf => ?_, fun r hr => ?_, fun r hr hf => ?_, fun e he => ?_, fun held hh => ?_⟩
      · rcases List.mem_append.mp hr with hr | hr
        · exact hfirst r hr hf
        · simp [List.mem_singleton.mp hr] at hf
      · rcases List.mem_append.mp hr with hr | hr
        · exact hahead r hr
        · rw [List.mem_singleton.mp hr]
          exact min_le_left _ _
      · -- a renewal sent before is within the deadline and a lease of this moment
        rcases List.mem_append.mp hr with hr | hr
        · obtain ⟨d', hd', hle⟩ := (hrenewal r hr hf).1
          refine ⟨⟨d', hd', hle⟩, fun e he => ?_⟩
          obtain rfl := Option.some.inj he
          obtain rfl := Option.mem_unique hd hd'
          exact le_min (hahead r hr) hle
        · rw [List.mem_singleton.mp hr]
          exact ⟨⟨deadline, hd, min_le_right _ _⟩, fun e he => (Option.some.inj he).le⟩
      · obtain ⟨g, hg, hle, -⟩ := hlease expiresAt hexp
        refine ⟨g, hg, hle, .inr ⟨deadline, hd, ?_⟩⟩
        rw [← Option.some.inj he]
        exact min_le_min_right deadline hle
      · obtain ⟨hmem, h⟩ := hheld held hh
        exact ⟨List.mem_append_left _ hmem, h⟩
  · exact h

theorem Sound.drop (h : s.Sound clocks) : (s.step clocks .drop).Sound clocks := by
  obtain ⟨hfirst, hahead, hrenewal, -, hheld⟩ := h
  exact ⟨hfirst, hahead, fun r hr hf => ⟨(hrenewal r hr hf).1, by simp [step]⟩, by simp [step], hheld⟩

theorem Sound.hold (h : s.Sound clocks) {reply : Reply} (hr : reply ∈ s.replies) (gap : Nat)
    {tracker : LeaseTracker}
    (hbudget : tracker.budget = subTime reply.expiresAt (s.now - clocks.offset))
    (hack : tracker.ackElapsed = s.now + gap - clocks.boot) :
    ({ s with now := s.now + gap, held := some ⟨tracker, reply, s.now, gap⟩ }).Sound clocks := by
  obtain ⟨hfirst, hahead, hrenewal, hlease, -⟩ := h.tick gap
  refine ⟨hfirst, hahead, hrenewal, hlease, fun held hh => ?_⟩
  obtain rfl := Option.some.inj hh
  exact ⟨hr, le_rfl, hbudget, hack⟩

theorem Sound.receive (h : s.Sound clocks) (i : Nat) (measuredRTT : Int) (gap : Nat) :
    (s.step clocks (.receive i measuredRTT gap)).Sound clocks := by
  rw [step]
  split
  · exact h
  · next reply hreply =>
    have hr := List.mem_of_getElem? hreply
    unfold read
    simp only
    split
    · exact h.hold hr gap rfl rfl
    · exact h.hold hr gap rfl rfl
    · exact h

theorem Sound.step (h : s.Sound clocks) (e : LeaseStep) : (s.step clocks e).Sound clocks := by
  cases e with
  | tick d => exact h.tick d
  | claim => exact h.claim
  | start d => exact h.start d
  | heartbeat pause => exact h.heartbeat pause
  | drop => exact h.drop
  | receive i rtt gap => exact h.receive i rtt gap

/-- The server's lease runs at least as long as the reply the tracker was set from: always if that
was a renewal, and if it was the claim's as long as the deadline is not before it. -/
theorem Sound.expiresAt_le (h : s.Sound clocks) {held : Held} (hheld : s.held = some held)
    (hshort : held.reply.first = true → ∀ d, s.deadline = some d → held.reply.expiresAt ≤ d)
    {e : Int} (he : s.lease = some e) : held.reply.expiresAt ≤ e := by
  obtain ⟨hmem, -, -, -⟩ := h.held held hheld
  cases hfirst : held.reply.first with
  | false => exact (h.renewal _ hmem hfirst).2 e he
  | true =>
    obtain ⟨g, hg, -, hcase⟩ := h.lease e he
    obtain rfl := Option.mem_unique (h.first _ hmem hfirst) hg
    rcases hcase with rfl | ⟨d, hd, hle⟩
    · exact le_rfl
    · rwa [min_eq_left (hshort hfirst d hd)] at hle

end LeaseState

/-! ### The tracker is conservative -/

/-- What the tracker says is safe: the wall clock of the worker is behind by no more than the two
margins, together with the pause between its two readings; the tracker was not set from a claim
whose lease a renewal has shortened to the deadline; and no duration overflows. -/
structure LeaseState.Trusted (clocks : Clocks) (s : LeaseState) (h : Held) : Prop where
  margin : clocks.offset + h.gap ≤ h.tracker.estimatedRTT + h.tracker.safetyMargin
  unshortened : h.reply.first = true → ∀ d, s.deadline = some d → h.reply.expiresAt ≤ d
  difference : |h.reply.expiresAt - (h.ackAt - clocks.offset)| < 2 ^ 62
  range : h.tracker.InRange (s.now - clocks.boot)

/-- Whatever the delays, losses and renewals: while a trusted tracker reports the lease not expired,
the lease of the server has not expired. -/
theorem tracker_conservative (clocks : Clocks) (start : Int) (es : List LeaseStep) (h : Held)
    (e : Int)
    (hheld : ((leaseSystem clocks).exec (.initial start) es).held = some h)
    (htrust : ((leaseSystem clocks).exec (.initial start) es).Trusted clocks h)
    (hlive : h.tracker.isExpired64
      (((leaseSystem clocks).exec (.initial start) es).now - clocks.boot) = false)
    (hlease : ((leaseSystem clocks).exec (.initial start) es).lease = some e) :
    ((leaseSystem clocks).exec (.initial start) es).now < e := by
  have hsound : ((leaseSystem clocks).exec (.initial start) es).Sound clocks :=
    System.invariant_of_step _ (fun s e h => h.step e) (LeaseState.sound_initial start) es
  generalize (leaseSystem clocks).exec (.initial start) es = s at *
  obtain ⟨-, -, hbudget, hack⟩ := hsound.held h hheld
  have hle := hsound.expiresAt_le hheld htrust.unshortened hlease
  rw [LeaseTracker.isExpired64_eq htrust.range, LeaseTracker.isExpired_eq_false, hbudget, hack,
    subTime_eq htrust.difference] at hlive
  have := htrust.margin
  unfold Duration at *
  omega

def lateRenewal : List LeaseStep :=
  [.claim, .tick (10 ^ 9), .receive 0 0 0, .start (60 * 10 ^ 9), .heartbeat 0, .tick (2 * 10 ^ 9),
    .receive 1 (3 * 10 ^ 9) 0, .tick (20 * 10 ^ 9)]

def lateTracker : Held :=
  ⟨⟨28 * 10 ^ 9, 2 * 10 ^ 9, 3 * 10 ^ 9, 3 * 10 ^ 9⟩, ⟨31 * 10 ^ 9, false⟩, 3 * 10 ^ 9, 0⟩

/-- With equal clocks the tracker of a renewal that was read late is right. -/
theorem tracker_conservative_late :
    ((leaseSystem ⟨0, 0⟩).exec (.initial 0) lateRenewal).held = some lateTracker ∧
      ((leaseSystem ⟨0, 0⟩).exec (.initial 0) lateRenewal).now < 31 * 10 ^ 9 := by
  refine ⟨by decide +kernel, ?_⟩
  refine tracker_conservative ⟨0, 0⟩ 0 lateRenewal lateTracker _ (by decide +kernel) ?_
    (by decide +kernel) (by decide +kernel)
  refine ⟨by decide +kernel, by decide +kernel, by decide +kernel, ?_⟩
  exact ⟨by decide +kernel, by decide +kernel, by decide +kernel, by decide +kernel⟩

/-- A wall clock that is three seconds behind: the tracker of a claim reports the lease not expired
when the lease has just expired. And with equal clocks: a renewal shortens the lease of the claim to
the deadline of the attempt, its reply is not read, and the tracker still counts on the claim. -/
theorem tracker_outlives_lease :
    (∃ h e, ((leaseSystem ⟨3 * 10 ^ 9, 0⟩).exec (.initial 0)
          [.claim, .receive 0 0 0, .tick (30 * 10 ^ 9)]).held = some h ∧
        ((leaseSystem ⟨3 * 10 ^ 9, 0⟩).exec (.initial 0)
          [.claim, .receive 0 0 0, .tick (30 * 10 ^ 9)]).lease = some e ∧
        h.tracker.isExpired64 (30 * 10 ^ 9) = false ∧ e ≤ 30 * 10 ^ 9) ∧
      ∃ h e, ((leaseSystem ⟨0, 0⟩).exec (.initial 0) [.claim, .receive 0 0 0, .start (6 * 10 ^ 9),
          .tick (10 ^ 9), .heartbeat 0, .tick (6 * 10 ^ 9)]).held = some h ∧
        ((leaseSystem ⟨0, 0⟩).exec (.initial 0) [.claim, .receive 0 0 0, .start (6 * 10 ^ 9),
          .tick (10 ^ 9), .heartbeat 0, .tick (6 * 10 ^ 9)]).lease = some e ∧
        h.tracker.isExpired64 (7 * 10 ^ 9) = false ∧ e ≤ 7 * 10 ^ 9 := by
  refine ⟨⟨⟨⟨33 * 10 ^ 9, 2 * 10 ^ 9, 500 * 10 ^ 6, 0⟩, ⟨30 * 10 ^ 9, true⟩, 0, 0⟩, 30 * 10 ^ 9,
    ?_⟩, ⟨⟨30 * 10 ^ 9, 2 * 10 ^ 9, 500 * 10 ^ 6, 0⟩, ⟨30 * 10 ^ 9, true⟩, 0, 0⟩, 6 * 10 ^ 9, ?_⟩
  · decide +kernel
  · decide +kernel

/-! ### The transactions of the server -/

section Server

open Deadbolt.Execution

/-- The state shows the lease of the attempt and the deadline that bounds its renewals. -/
structure LeaseState.Shows (s : LeaseState) (r : Run) (row : StepID × Step × Attempt) : Prop where
  lease : s.lease = (row.2.1.leaseOf? row.2.2.id).map fun l => 1000 * l.expiresAt
  deadline : s.deadline = row.2.2.deadlineAt.map fun d => 1000 * boundBy d r.deadlineAt

theorem mul_boundBy_min (t d : Int) (limit : Option Int) :
    1000 * boundBy (min t d) limit = min (1000 * t) (1000 * boundBy d limit : Int) := by
  cases limit <;> simp only [boundBy, Time] <;> omega

/-- Before the deadlines of the attempt and of the run. -/
theorem lt_boundBy {r : Run} {e d now : Int} (h : ¬ (e ≤ now ∨ d ≤ now ∨ r.overdue now = true)) :
    now < boundBy d r.deadlineAt := by
  unfold Run.overdue at h
  cases hr : r.deadlineAt <;> simp only [hr, boundBy, decide_eq_true_iff, Time] at h ⊢ <;> omega

/-- A heartbeat of this model at the times at which a transaction reads the clock. -/
theorem LeaseState.step_heartbeat {clocks : Clocks} {s : LeaseState} {r : Run}
    {e d now later : Int} (hlease : s.lease = some (1000 * e))
    (hdeadline : s.deadline = some (1000 * boundBy d r.deadlineAt)) (hnow : s.now = 1000 * now)
    (hle : now ≤ later) (hdue : ¬ (e ≤ now ∨ d ≤ now ∨ r.overdue now = true)) :
    (s.step clocks (.heartbeat (1000 * (later - now)).toNat)).lease =
        some (1000 * boundBy (min (later + millis leaseTTLMs) d) r.deadlineAt) ∧
      (s.step clocks (.heartbeat (1000 * (later - now)).toNat)).replies = s.replies ++
        [⟨1000 * boundBy (min (later + millis leaseTTLMs) d) r.deadlineAt, false⟩] := by
  have hafter := lt_boundBy hdue
  have hrenewed : 1000 * boundBy (min (later + millis leaseTTLMs) d) r.deadlineAt =
      min (s.now + ((1000 * (later - now)).toNat : Int) + leaseTTL)
        (1000 * boundBy d r.deadlineAt) := by
    rw [mul_boundBy_min, hnow]
    congr 1
    change (1000 * (later + 1000 * 30000) : Int) = 1000 * now + _ + 30 * 10 ^ 9
    omega
  rw [step, hlease, hdeadline, hrenewed]
  simp only
  rw [if_neg]
  · exact ⟨rfl, rfl⟩
  · simp only [not_or, not_le] at hdue
    omega

variable [Platform]

/-- A renewal of `heartbeatTx` is a heartbeat of this model: it sends the expiry that it writes. -/
theorem heartbeatTx_refines (clocks : Clocks) (c : RunScope) (session : WorkerSession)
    (attempt : AttemptID) (epoch : Int) {row : StepID × Step × Attempt}
    (hrow : c.run.attempt? attempt = some row) (s : LeaseState)
    (hnow : s.now = 1000 * Platform.clock c.sys.ticks) (hshows : s.Shows c.run row) :
    Commits (heartbeatTx session attempt epoch) c fun reply c' =>
      ∀ e, reply = .renewal e → c'.run = c.run.setStep row.1 (row.2.1.renewLease attempt e) ∧
        ∃ pause, (s.step clocks (.heartbeat pause)).lease = some (1000 * e) ∧
          (s.step clocks (.heartbeat pause)).replies = s.replies ++ [⟨1000 * e, false⟩] := by
  obtain ⟨hf, hmem, hid⟩ := Run.attempt?_eq_some hrow
  simp only [heartbeatTx, commits_bind, RunTx.commits_getRun, hrow]
  cases hl : row.2.1.leaseOf? attempt with
  | none => simp
  | some lease =>
    simp only [commits_bind, RunTx.commits_clockTimestamp, commits_ite, commits_pure]
    refine ⟨by simp, fun _ => ?_⟩
    cases hd : row.2.2.deadlineAt with
    | none => simp
    | some deadline =>
      simp only [commits_ite, commits_pure]
      refine ⟨by simp, fun _ => ⟨by simp, fun hdue => ?_⟩⟩
      cases row.2.2.stops.find? fun sc => sc.ackedAt.isNone with
      | some sc => simp
      | none =>
        simp only [commits_bind, RunTx.commits_clockTimestamp, RunTx.commits_updateStep,
          commits_pure, RunScope.run_tick]
        rw [Run.updateStep_of_find hf rfl]
        rintro e he
        obtain rfl := HeartbeatReply.renewal.inj he
        refine ⟨rfl, _, LeaseState.step_heartbeat (e := lease.expiresAt) ?_ ?_ hnow
          (Platform.clock_mono (Nat.le_succ c.sys.ticks)) hdue⟩
        · rw [hshows.lease, hid, hl, Option.map_some]
        · rw [hshows.deadline, hd, Option.map_some]

end Server

end Deadbolt.Agent

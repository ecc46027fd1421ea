import Deadbolt.Base.System

/-!
# Stop acknowledgements of the agent

One attempt in the agent: the goroutine of `executeAssignment` with `ExecuteAttempt`,
`internal/worker/agent.go:362-498` and `process.go:290-440`, beside its heartbeat
loop, `agent.go:612-709`. They share the entry of `runningAttempts` and the pid in
it. A label is one step of one goroutine or of the process; a label that is not enabled changes
nothing, so a list of labels is an interleaving.
-/

namespace Deadbolt.Agent

open Base

/-! ### One attempt -/

inductive Phase where
  /-- Registered; `Start` has not been accepted. -/
  | starting
  /-- The heartbeat loop runs; secrets, bundle and input are checked. -/
  | preparing
  /-- `cmd.Start` has returned; `OnProcessStart` has not been called. -/
  | launched
  /-- The pid is published. -/
  | supervising
  /-- `ExecuteAttempt` has returned, or was never called. -/
  | ended
  /-- The entry is deleted. -/
  | removed
  deriving DecidableEq

inductive Stopping where
  | listening
  | terminating
  | acking (stopped : Bool)
  | returned
  deriving DecidableEq

/-- The state both goroutines and the process share. -/
structure AttemptState where
  phase : Phase
  /-- `active.pid` is set. -/
  published : Bool
  /-- A runner process of the attempt is alive. -/
  alive : Bool
  stopping : Stopping
  /-- A stop acknowledgement with `ProcessStopped=true` has been sent. -/
  confirmed : Bool
  deriving DecidableEq

inductive Label where
  | startAccepted
  | startRefused
  | refuse
  | launch
  | publish
  | writeFailed
  | die
  | finish
  | remove
  | receiveStop
  | leaseLost (gone : Bool)
  | terminated (gone : Bool)
  | sendAck
  deriving DecidableEq

namespace AttemptState

def initial : AttemptState := ⟨.starting, false, false, .listening, false⟩

/-- The entry `att` with `att.pid > 0`. -/
def tracked (x : AttemptState) : Bool := x.phase != .removed && x.published

/-- What the observation of `TerminateProcessGroup` says of the process: a group that was seen
gone is gone. -/
def observe (x : AttemptState) (gone : Bool) : AttemptState :=
  { x with alive := x.alive && !gone }

def step (x : AttemptState) (l : Label) : AttemptState :=
  match l, x.phase with
  | .startAccepted, .starting => { x with phase := .preparing }
  | .startRefused, .starting => { x with phase := .ended }
  -- A missing secret, an expired lease or a bundle that does not verify.
  | .refuse, .preparing => { x with phase := .ended }
  | .launch, .preparing => { x with phase := .launched, alive := true }
  | .publish, .launched => { x with phase := .supervising, published := true }
  -- The process is killed and not waited for, `process.go:359-362`.
  | .writeFailed, .supervising => { x with phase := .ended }
  | .die, _ => { x with alive := false }
  | .finish, .supervising => if x.alive then x else { x with phase := .ended }
  | .remove, .ended => { x with phase := .removed }
  | .receiveStop, .starting => x
  | .receiveStop, _ =>
    if x.stopping = .listening then
      { x with stopping := if x.tracked then .terminating else .acking true }
    else x
  | .leaseLost gone, _ =>
    if x.stopping = .listening then
      { (if x.tracked then x.observe gone else x) with stopping := .returned }
    else x
  | .terminated gone, _ =>
    if x.stopping = .terminating then { x.observe gone with stopping := .acking gone } else x
  | .sendAck, _ =>
    match x.stopping with
    | .acking stopped => { x with stopping := .returned, confirmed := x.confirmed || stopped }
    | _ => x
  | _, _ => x

end AttemptState

def attemptAgent : System AttemptState Label := ⟨AttemptState.step⟩

/-- A stop command is looked at when the pid is published, or when the execution is over and no
process is left. -/
def AttemptState.Settled (x : AttemptState) (l : Label) : Prop :=
  l = .receiveStop → x.tracked = true ∨
    ((x.phase = .ended ∨ x.phase = .removed) ∧ x.alive = false)

instance (x : AttemptState) (l : Label) : Decidable (x.Settled l) :=
  inferInstanceAs (Decidable (_ → _))

/-! ### The invariant -/

/-- The execution is past its launch. -/
def Phase.past : Phase → Bool
  | .starting | .preparing => false
  | _ => true

def AttemptState.Quiet (x : AttemptState) : Prop := x.alive = false ∧ x.phase.past = true

/-- A confirmed stop, or one that is about to be confirmed, leaves no process; a pid is looked
up and published only after the launch. -/
structure AttemptState.Honest (x : AttemptState) : Prop where
  published : x.published = true → x.phase.past = true
  terminating : x.stopping = .terminating → x.phase.past = true
  acking : x.stopping = .acking true → x.Quiet
  confirmed : x.confirmed = true → x.Quiet

namespace AttemptState

theorem honest_initial : initial.Honest := by
  constructor <;> simp [initial]

variable {x : AttemptState}

/-- A step of the execution: it never goes back before the launch, and it starts no process after
it. -/
theorem Honest.advance {y : AttemptState} (h : x.Honest)
    (hpast : x.phase.past = true → y.phase.past = true)
    (hpublished : y.published = true → x.published = true ∨ y.phase.past = true)
    (halive : x.Quiet → y.alive = false) (hstopping : y.stopping = x.stopping)
    (hconfirmed : y.confirmed = x.confirmed) : y.Honest where
  published hy := (hpublished hy).elim (fun hx => hpast (h.published hx)) id
  terminating hy := hpast (h.terminating (hstopping ▸ hy))
  acking hy :=
    have hq := h.acking (hstopping ▸ hy)
    ⟨halive hq, hpast hq.2⟩
  confirmed hy :=
    have hq := h.confirmed (hconfirmed ▸ hy)
    ⟨halive hq, hpast hq.2⟩

theorem Honest.observe (h : x.Honest) (gone : Bool) : (x.observe gone).Honest :=
  h.advance id .inl (fun hq => by simp [AttemptState.observe, hq.1]) rfl rfl

theorem Honest.listen (h : x.Honest) {s : Stopping} (ht : s = .terminating → x.phase.past = true)
    (ha : s = .acking true → x.Quiet) :
    { x with stopping := s }.Honest := ⟨h.published, ht, ha, h.confirmed⟩

theorem Honest.receiveStop (h : x.Honest) (hs : x.Settled .receiveStop) :
    { x with stopping := if x.tracked then .terminating else .acking true }.Honest := by
  have htracked (ht : x.tracked = true) : x.phase.past = true :=
    h.published (by simpa [tracked] using (Bool.and_eq_true_iff.mp ht).2)
  refine h.listen (fun hst => ?_) (fun hst => ?_)
  · split at hst
    · next ht => exact htracked ht
    · cases hst
  · split at hst
    · cases hst
    · next ht =>
      obtain ⟨hover, halive⟩ := (hs rfl).resolve_left ht
      exact ⟨halive, by rcases hover with he | he <;> rw [he] <;> rfl⟩

theorem Honest.terminated (h : x.Honest) (hx : x.stopping = .terminating) (gone : Bool) :
    { x.observe gone with stopping := .acking gone }.Honest := by
  refine (h.observe gone).listen nofun fun hg => ?_
  obtain rfl : gone = true := Stopping.acking.inj hg
  exact ⟨by simp [AttemptState.observe], h.terminating hx⟩

theorem Honest.sendAck (h : x.Honest) {stopped : Bool} (hx : x.stopping = .acking stopped) :
    { x with stopping := .returned, confirmed := x.confirmed || stopped }.Honest := by
  refine ⟨h.published, nofun, nofun, fun hc => ?_⟩
  rcases (Bool.or_eq_true _ _).mp hc with hc | rfl
  · exact h.confirmed hc
  · exact h.acking hx

theorem Honest.step (h : x.Honest) {l : Label} (hs : x.Settled l) : (x.step l).Honest := by
  have hmove {phase : Phase} (hp : phase.past = true) : { x with phase := phase }.Honest :=
    h.advance (fun _ => hp) .inl (fun hq => hq.1) rfl rfl
  unfold AttemptState.step
  split
  · next hph => exact h.advance (by simp [hph, Phase.past]) .inl (fun hq => hq.1) rfl rfl
  · exact hmove rfl
  · exact hmove rfl
  · next hph =>
    -- Nothing is confirmed before the launch.
    exact h.advance (by simp [hph, Phase.past]) .inl (by simp [Quiet, hph, Phase.past]) rfl rfl
  · exact h.advance (fun _ => rfl) (fun _ => .inr rfl) (fun hq => hq.1) rfl rfl
  · exact hmove rfl
  · exact h.advance id .inl (fun _ => rfl) rfl rfl
  · split
    · exact h
    · exact hmove rfl
  · exact hmove rfl
  · exact h
  · split
    · exact h.receiveStop hs
    · exact h
  · split
    · split
      · exact (h.observe _).listen nofun nofun
      · exact h.listen nofun nofun
    · exact h
  · split
    · next hx => exact h.terminated hx _
    · exact h
  · split
    · next hx => exact h.sendAck hx
    · exact h
  · exact h

end AttemptState

/-- In every interleaving in which each stop command finds the pid published, or the execution
over without a process, a confirmed stop means that no runner process is alive, then and
afterwards. -/
theorem confirmed_not_alive {ls : List Label}
    (hs : attemptAgent.Along AttemptState.Settled .initial ls)
    (hc : (attemptAgent.exec .initial ls).confirmed = true) :
    (attemptAgent.exec .initial ls).alive = false := by
  have h : (attemptAgent.exec .initial ls).Honest :=
    attemptAgent.invariant (I := AttemptState.Honest) (fun x l hx hl => hx.step hl)
      AttemptState.honest_initial hs
  exact (h.confirmed hc).1

/-- A stop of a running attempt. -/
theorem confirmed_not_alive_running :
    (attemptAgent.exec .initial [.startAccepted, .launch, .publish, .receiveStop, .terminated true,
      .sendAck, .finish]).alive = false :=
  confirmed_not_alive ⟨by decide, by decide, by decide, by decide, by decide, by decide, by decide,
    trivial⟩ rfl

/-- A stop that arrives while the bundle is still checked is confirmed, and the runner is launched
afterwards. -/
theorem confirmed_then_launched :
    (attemptAgent.exec .initial [.startAccepted, .receiveStop, .sendAck]).confirmed = true ∧
      (attemptAgent.exec .initial [.startAccepted, .receiveStop, .sendAck, .launch]).alive = true :=
  ⟨rfl, rfl⟩

end Deadbolt.Agent

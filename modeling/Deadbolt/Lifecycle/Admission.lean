import Deadbolt.Lifecycle.Steps
import Deadbolt.Lifecycle.Terminal

/-!
# Claims admit on a snapshot

The first transaction of `Claim` selects steps of runs that may be worked on; the second one
creates the attempts. In between, the second transaction tests the worker, the pause flag and the
state of the step again, and nothing else: an attempt may be created in a run that has become
overdue, or whose other branch is held with an open case by then.
-/

namespace Deadbolt.Execution

open Base Contracts

/-! ### Paused statuses carry the flag -/

/-- A run is pausing or paused only on request. -/
def Run.Flagged (r : Run) : Prop :=
  r.status = .pausing ∨ r.status = .paused → r.pauseRequested = true

namespace Run

variable {r : Run}

theorem flagged_of_status (hp : r.status ≠ .pausing) (hd : r.status ≠ .paused) : r.Flagged :=
  fun h => h.elim (absurd · hp) (absurd · hd)

theorem Flagged.setStatusIf (h : r.Flagged) (p : Bool) {status : RunStatus} (reason : Option String)
    (hp : status ≠ .pausing) (hd : status ≠ .paused) : (r.setStatusIf p status reason).Flagged := by
  unfold Run.setStatusIf
  split
  · exact flagged_of_status hp hd
  · exact h

theorem reopened_ne (r : Run) : r.reopened ≠ .pausing ∧ r.reopened ≠ .paused := by
  unfold reopened
  split <;> exact ⟨nofun, nofun⟩

theorem resumeTarget_ne (r : Run) : r.resumeTarget.1 ≠ .pausing ∧ r.resumeTarget.1 ≠ .paused := by
  unfold resumeTarget
  repeat' split
  all_goals exact ⟨nofun, nofun⟩

end Run

variable {r : Run} {k : StepID}

theorem StatusMove.flagged {u : StatusMove} (hu : u.Admissible r) (h : r.Flagged) :
    (u.apply r).Flagged := by
  cases u with
  | retryWait =>
    simp only [apply, Run.recomputeForRetry]
    split
    · exact h.setStatusIf _ _ (by decide) (by decide)
    · exact h.setStatusIf _ _ (by decide) (by decide)
  | delayWait =>
    simp only [apply, Run.recomputeForDelay]
    split
    · exact h.setStatusIf _ _ (by split <;> decide) (by split <;> decide)
    · exact h.setStatusIf _ _ (by decide) (by decide)
  | control =>
    simp only [apply, Run.recomputeAfterControl]
    repeat' split
    all_goals first | exact h | exact Run.flagged_of_status (by simp) (by simp)
  | hold => exact h.setStatusIf _ _ (by decide) (by decide)
  | quota =>
    exact Run.flagged_of_status (by simp [StatusMove.apply, Run.parkForQuota])
      (by simp [StatusMove.apply, Run.parkForQuota])
  | handoff => exact h.setStatusIf _ _ (by decide) (by decide)
  | leaveQuota => exact h.setStatusIf _ _ (by decide) (by decide)
  | started => exact h.setStatusIf _ _ (by decide) (by decide)
  | leaveRetry => exact h.setStatusIf _ _ r.reopened_ne.1 r.reopened_ne.2
  | leaveHandoff => exact h.setStatusIf _ _ r.reopened_ne.1 r.reopened_ne.2
  | leaveReconciliation retry =>
    simp only [apply, Run.leaveReconciliation]
    split
    · exact Run.flagged_of_status (by simp) (by simp)
    · exact Run.flagged_of_status r.reopened_ne.1 r.reopened_ne.2
  | holdDrained =>
    exact Run.flagged_of_status (by simp [StatusMove.apply]) (by simp [StatusMove.apply])
  | pause => exact fun _ => rfl
  | pauseDrained => exact fun _ => h (.inl hu.1)
  | resume => exact Run.flagged_of_status r.resumeTarget_ne.1 r.resumeTarget_ne.2
  | clearPause =>
    refine Run.flagged_of_status (fun hs => ?_) fun hs => ?_
    · have hu : r.status.terminal = true := hu
      rw [show r.status = .pausing from hs] at hu
      cases hu
    · have hu : r.status.terminal = true := hu
      rw [show r.status = .paused from hs] at hu
      cases hu

theorem RunStatus.ne_paused_of_closing {s : RunStatus} (h : s.closing = true) :
    s ≠ .pausing ∧ s ≠ .paused := by
  cases s <;> first | (cases h; done) | exact ⟨nofun, nofun⟩

theorem Run.Moves.flagged {r' : Run} {tr vs : List Visit} (hm : r.Moves tr vs r') (h : r.Flagged) :
    r'.Flagged := by
  cases hm with
  | @step id s s' k u _ _ hu =>
    cases u with
    | none => exact h
    | some u => exact StatusMove.flagged (r := r.setStep id s') (hu u rfl) h
  | status u _ hu => exact StatusMove.flagged hu h
  | close hc he =>
    have hne := RunStatus.ne_paused_of_closing hc.closing
    rw [← he.status] at hne
    exact flagged_of_status hne.1 hne.2
  | closeSilent => exact flagged_of_status nofun nofun
  | requestCancel => exact flagged_of_status nofun nofun
  | _ => exact h

theorem View.Change.flagged {a b : View} (hc : a.Change b) (h : a.run.Flagged) : b.run.Flagged := by
  obtain ⟨r', tr'⟩ := b
  rcases hc with (⟨vs, hm, -⟩ | ⟨vs, hm, -⟩) | ⟨vs, hm, -⟩
  · exact hm.flagged h
  · simp only at hm ⊢
    cases hm with
    | step => exact h
  · simp only at hm ⊢
    cases hm with
    | status => exact Run.flagged_of_status nofun nofun
    | step => exact h
    | event => exact h

theorem Run.Created.flagged (h : r.Created) : r.Flagged := by
  obtain ⟨req, d, id, now, steps, wf, rfl, -⟩ := h
  exact flagged_of_status nofun nofun

/-! ### What a claim tests -/

/-- The run and the step as the claim that created an attempt found them. -/
structure Visit.Admits (v : Visit) (id : RunID) (k : StepID) (s : Step) (a : Attempt) (now : Time) :
    Prop where
  kind : v.kind = .claimAttempt k now
  run : v.run.id = id
  step : v.run.steps.find? k = some s
  ready : s.state = .ready
  number : a.number = s.nextAttemptNumber
  epoch : a.epoch = s.currentEpoch + 1
  deadline : a.claimStartDeadlineAt = some (now + millis claimStartBudgetMs)
  unpaused : v.run.pauseRequested = false
  unended : v.run.status.closing = false
  flagged : v.run.Flagged

theorem Visit.Admits.congr {v : Visit} {id : RunID} {s : Step} {a a' : Attempt} {now : Time}
    (h : v.Admits id k s a now) (hc : a'.claim = a.claim) : v.Admits id k s a' now where
  kind := h.kind
  run := h.run
  step := h.step
  ready := h.ready
  number := (congrArg (fun x => x.2.1) hc).trans h.number
  epoch := (congrArg (fun x => x.2.2.2.1) hc).trans h.epoch
  deadline := (congrArg (fun x => x.2.2.2.2.1) hc).trans h.deadline
  unpaused := h.unpaused
  unended := h.unended
  flagged := h.flagged

/-- On the way from one state of a run to another, every new attempt was admitted by a claim. -/
theorem View.Operates.admits {a b : View} (h : a.Operates b) (ha : a.run.Sound)
    (hflag : a.run.Flagged) {s' : Step} (hs' : b.run.steps.find? k = some s') {x : Attempt}
    (hx : x ∈ s'.attempts) :
    (∃ s, a.run.steps.find? k = some s ∧ x.id ∈ s.attemptIDs) ∨
      ∃ v ∈ b.trace, ∃ s now, v.Admits a.run.id k s x now := by
  have hpath : b.run.Flagged ∧ ∀ k s', b.run.steps.find? k = some s' → ∀ x ∈ s'.attempts,
      (∃ s, a.run.steps.find? k = some s ∧ x.id ∈ s.attemptIDs) ∨
        ∃ v ∈ b.trace, ∃ s now, v.Admits a.run.id k s x now := by
    clear hs' hx
    induction h with
    | refl => exact ⟨hflag, fun k s hs x hx => .inl ⟨s, hs, List.mem_map_of_mem hx⟩⟩
    | @tail b c h hc ih =>
      obtain ⟨hflag, ih⟩ := ih
      refine ⟨hc.flagged hflag, fun k s' hs' x hx => ?_⟩
      have hsound := View.Operates.sound h ha
      obtain ⟨s, hs, ht⟩ := hc.transits hsound hs'
      obtain ⟨vs, hvs⟩ := hc.trace
      -- An attempt that was there before the change was admitted then.
      have hold (x0 : Attempt) (hx0 : x0 ∈ s.attempts) (hclaim : x.claim = x0.claim) :
          (∃ s, a.run.steps.find? k = some s ∧ x.id ∈ s.attemptIDs) ∨
            ∃ v ∈ c.trace, ∃ s now, v.Admits a.run.id k s x now := by
        have hid : x.id = x0.id := congrArg Prod.fst hclaim
        rcases ih k s hs x0 hx0 with ⟨t, ht, hmem⟩ | ⟨v, hv, t, now, hadmits⟩
        · exact .inl ⟨t, ht, hid ▸ hmem⟩
        · exact .inr ⟨v, by rw [hvs]; exact List.mem_append_left _ hv, t, now, hadmits.congr hclaim⟩
      rcases ht.frames (hsound.steps.find hs) with ⟨y, l, now, hclaimed, rfl⟩ | hf
      · rcases List.mem_append.mp hx with hx | hx
        · exact hold x hx rfl
        · obtain rfl : x = y := List.mem_singleton.mp hx
          have hpinned : b.run.id = a.run.id := congrArg Prod.fst (View.Operates.pinned h)
          exact .inr ⟨_, hclaimed.visited, s, now, rfl, hpinned, hs, hclaimed.ready,
            hclaimed.rows.number, hclaimed.rows.epoch, hclaimed.rows.claimStartDeadlineAt,
            hclaimed.unpaused, hclaimed.unended, hflag⟩
      · obtain ⟨x0, hx0, hages⟩ := hf.aged hx
        exact hold x0 hx0 hages.1
  exact hpath.2 k s' hs' x hx

/-! ### Every claim -/

/-- What the snapshot transaction asks of the run, the step and the worker. -/
def Db.Admitted (db : Db) (session : WorkerSession) (r : Run) (s : Step) (now : Time) : Prop :=
  (r.status = .queued ∨ r.status = .running ∨
    r.status = .waiting ∧ r.reasonCode = some "QUOTA_WAIT") ∧
  r.pauseRequested = false ∧ r.overdue now = false ∧ r.hasOpenCase = false ∧
  s.state = .ready ∧ (s.eligibleAt.any fun t => decide (t ≤ now)) = true ∧
  (∃ worker, db.fleet.workers.find? session.workerID = some worker ∧ worker.status = .active) ∧
  ∃ row, db.fleet.sessions.find? session.sessionID = some row ∧
    r.deployment.bundleDigest ∈ row.bundles

/-- The part of it that the second transaction leaves to the snapshot. -/
def Db.StillAdmitted (db : Db) (session : WorkerSession) (r : Run) (s : Step) (now : Time) : Prop :=
  (r.status = .waiting → r.reasonCode = some "QUOTA_WAIT") ∧
  r.overdue now = false ∧ r.hasOpenCase = false ∧
  (s.eligibleAt.any fun t => decide (t ≤ now)) = true ∧
  ∃ row, db.fleet.sessions.find? session.sessionID = some row ∧
    r.deployment.bundleDigest ∈ row.bundles

theorem Visit.Admits.admitted_iff {v : Visit} {id : RunID} {s : Step} {a : Attempt} {now : Time}
    (h : v.Admits id k s a now) {db : Db} {session : WorkerSession}
    (hworker : ∃ worker, db.fleet.workers.find? session.workerID = some worker ∧
      worker.status = .active) :
    db.Admitted session v.run s now ↔ db.StillAdmitted session v.run s now := by
  constructor
  · rintro ⟨hstatus, -, hdue, hcase, -, heligible, -, hrow⟩
    refine ⟨fun hw => ?_, hdue, hcase, heligible, hrow⟩
    rcases hstatus with hs | hs | ⟨-, hs⟩
    · rw [hw] at hs
      cases hs
    · rw [hw] at hs
      cases hs
    · exact hs
  · rintro ⟨hwait, hdue, hcase, heligible, hrow⟩
    refine ⟨?_, h.unpaused, hdue, hcase, h.ready, heligible, hworker, hrow⟩
    have hopen := h.unended
    have hflag := h.flagged
    rw [Run.Flagged, h.unpaused] at hflag
    cases hs : v.run.status with
    | queued => exact .inl rfl
    | running => exact .inr (.inl rfl)
    | waiting => exact .inr (.inr ⟨rfl, hwait hs⟩)
    | pausing => cases hflag (.inl hs)
    | paused => cases hflag (.inr hs)
    | cancelling => rw [hs] at hopen; cases hopen
    | succeeded => rw [hs] at hopen; cases hopen
    | failed => rw [hs] at hopen; cases hopen
    | cancelled => rw [hs] at hopen; cases hopen

section

variable [Platform]

theorem claimCommitTx_active (session : WorkerSession) (slots : Nat) (pending : List PendingClaim)
    (locked : List RunID) (ready : List String) (db : Db) :
    Tx.Commits (claimCommitTx session slots pending locked ready) db fun _ db' =>
      db'.runs = db.runs ∨ ∃ worker, db.fleet.workers.find? session.workerID = some worker ∧
        worker.status = .active := by
  simp only [claimCommitTx, Tx.commits_bind, Tx.commits_read, id]
  split
  · next worker row hworker _ =>
    simp only [Tx.commits_bind, Tx.commits_require, commits_dbClock, Tx.commits_ite, Tx.commits_pure]
    intro _ _ _ _
    refine ⟨fun hactive => ?_, fun _ => .inl trivial⟩
    exact fun _ _ _ => .inr ⟨worker, hworker, hactive⟩
  · simp

theorem World.commitClaim_active (w : World) (index : Nat) (verified : List Bool)
    (locked : List RunID) (ready : List String) :
    (w.commitClaim index verified locked ready).db.runs = w.db.runs ∨
      ∃ claim, w.claims[index]? = some claim ∧ ∃ worker,
        w.db.fleet.workers.find? claim.session.workerID = some worker ∧
          worker.status = .active := by
  unfold commitClaim
  split
  · exact .inl rfl
  · next claim hclaim =>
    simp only [attempt, transact]
    split
    · next a db' he =>
      exact (claimCommitTx_active _ _ _ _ _ _ a db' he).imp_right fun h => ⟨claim, hclaim, h⟩
    · exact .inl rfl

end

/-- Two tasks that only an operator may repeat: the second worker has its snapshot when the first
task ends with an unknown effect. -/
def Sample.heldBetweenSnapshotAndCommit : List Action :=
  [.createRun request, .claimSnapshot session 1 [], .claimCommit 0 [true] [] [],
   .start session 3 1, .claimSnapshot otherSession 1 [],
   .complete session (completion 3 .failed none) .unavailable]

end Deadbolt.Execution

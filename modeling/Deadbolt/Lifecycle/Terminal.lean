import Deadbolt.Execution.Sample
import Deadbolt.Lifecycle.Recovery

/-!
# Ended runs

Every write of a run status tests that the run is open, or its caller has done so, but for two:
`failRunForStepTx` and the artifact failure of a claim fail the run as they find it. The sweep of
expired approvals calls the first one on a run that has ended.
-/

namespace Deadbolt.Execution

open Base Contracts

/-- What the caller of a run is told of its end. -/
def Run.verdict (r : Run) : RunStatus × Option String × Option Json :=
  (r.status, r.reasonCode, r.output)

/-- A write that fails a run finds it unended. -/
def Visit.failsOpenRun (v : Visit) : Bool :=
  match v.kind with
  | .failRun _ | .artifactFailure _ => !v.run.status.terminal
  | _ => true

/-! ### Status writes -/

theorem RunStatus.schedulable_eq_false {s : RunStatus} (h : s.closing = true) :
    s.schedulable = false := by
  cases s <;> first | rfl | cases h

theorem RunStatus.active_eq_false {s : RunStatus} (h : s.schedulable = false) : s.active = false := by
  cases s <;> first | rfl | cases h

variable {r : Run} {vs : List Visit} {a b : View}

/-- The status writes that only an open, unpaused run notices. -/
theorem StatusMove.apply_of_not_schedulable {u : StatusMove} (h : r.status.schedulable = false)
    (hu : u ∈ [.retryWait, .delayWait, .hold, .handoff, .started, .leaveRetry, .leaveHandoff]) :
    u.apply r = r := by
  have ha := RunStatus.active_eq_false h
  have hq : (r.status == .queued) = false := by
    cases hs : r.status <;> first | rfl | (rw [hs] at h; cases h)
  have hw : (r.status == .waiting) = false := by
    cases hs : r.status <;> first | rfl | (rw [hs] at h; cases h)
  simp only [List.mem_cons, List.not_mem_nil, or_false] at hu
  rcases hu with rfl | rfl | rfl | rfl | rfl | rfl | rfl
  · simp [apply, Run.recomputeForRetry, Run.setStatusIf, h, ha]
  · simp [apply, Run.recomputeForDelay, Run.setStatusIf, h, ha]
  · simp [apply, Run.parkForReconciliation, Run.setStatusIf, h]
  · simp [apply, Run.parkForHandoff, Run.setStatusIf, ha]
  · simp [apply, Run.markStarted, Run.setStatusIf, hq]
  · simp [apply, Run.leaveRetry, Run.setStatusIf, hw]
  · simp [apply, Run.leaveHandoff, Run.setStatusIf, hw]

/-- A status write leaves a closing run as it is, but for the pause flag. -/
theorem StatusMove.verdict_apply {u : StatusMove} (hu : u.Admissible r)
    (hc : r.status.closing = true) : (u.apply r).verdict = r.verdict := by
  have hns := RunStatus.schedulable_eq_false hc
  cases u with
  | control => simp only [apply, Run.recomputeAfterControl, hc, if_true]
  | quota =>
    have := hu.1
    rw [RunStatus.active_eq_false hns] at this
    cases this
  | leaveQuota => exact absurd hc (by rw [hu]; decide)
  | leaveReconciliation => rw [hu.1] at hns; cases hns
  | holdDrained => rw [hu.1] at hns; cases hns
  | pause => exact absurd hc (by rw [hu]; decide)
  | pauseDrained => rw [hu.1] at hc; cases hc
  | resume => exact absurd hc (by rw [hu]; decide)
  | clearPause => rfl
  | retryWait => rw [apply_of_not_schedulable hns (by simp)]
  | delayWait => rw [apply_of_not_schedulable hns (by simp)]
  | hold => rw [apply_of_not_schedulable hns (by simp)]
  | handoff => rw [apply_of_not_schedulable hns (by simp)]
  | started => rw [apply_of_not_schedulable hns (by simp)]
  | leaveRetry => rw [apply_of_not_schedulable hns (by simp)]
  | leaveHandoff => rw [apply_of_not_schedulable hns (by simp)]

/-! ### Ends -/

theorem Run.Closes.terminal {r1 : Run} {t : EventType} (hc : r.Closes vs t r1) :
    r1.status.terminal = true := by
  cases hc <;> rfl

/-- A run that has ended ends again only as the visit shows. -/
theorem Run.Closes.of_terminal {r1 : Run} {t : EventType} (hc : r.Closes vs t r1)
    (ht : r.status.terminal = true) :
    r1.status = .failed ∧ ∃ v ∈ vs, v.run.id = r.id ∧ v.failsOpenRun = false := by
  have hclosing := RunStatus.closing_of_terminal ht
  cases hc with
  | @fail id r0 r1 vs reason actor now closedAt hf hl =>
    have hst : r1.status = r.status := by
      rw [hl.status]
      cases hf <;> rfl
    refine ⟨rfl, _, List.mem_append_right vs (List.mem_singleton.mpr rfl), hf.id_logs hl, ?_⟩
    simp [Visit.failsOpenRun, hst, ht]
  | artifactFailure =>
    exact ⟨rfl, _, List.mem_singleton.mpr rfl, rfl, by simp [Visit.failsOpenRun, ht]⟩
  | failWithoutSteps _ hopen => rw [hclosing] at hopen; cases hopen
  | settleFailed _ hopen => rw [ht] at hopen; cases hopen
  | settleSucceeded _ hopen => rw [ht] at hopen; cases hopen
  | cancel _ _ _ _ hopen => rw [hclosing] at hopen; cases hopen
  | settleCancelled _ hs => rw [hs] at ht; cases ht
  | deadlineLost _ _ _ hopen => rw [hclosing] at hopen; cases hopen
  | deadlineHandoff _ _ hopen => rw [hclosing] at hopen; cases hopen
  | handoffExhausted _ hopen => rw [hclosing] at hopen; cases hopen
  | historyLimit hopen => rw [ht] at hopen; cases hopen

/-- A move leaves the verdict of an ended run, or fails the run once more. -/
theorem Run.Moves.verdict {r' : Run} {tr : List Visit} (hm : r.Moves tr vs r')
    (ht : r.status.terminal = true) :
    r'.verdict = r.verdict ∨ r'.status = .failed ∧ ∃ v ∈ vs, v.run.id = r.id ∧ v.failsOpenRun = false := by
  have hclosing := RunStatus.closing_of_terminal ht
  cases hm with
  | @step id s s' k u _ _ hu =>
    cases u with
    | none => exact .inl rfl
    | some u => exact .inl (StatusMove.verdict_apply (r := r.setStep id s') (hu u rfl) hclosing)
  | status u _ hu => exact .inl (StatusMove.verdict_apply hu hclosing)
  | close hc he =>
    obtain ⟨hfailed, hv⟩ := hc.of_terminal ht
    exact .inr ⟨he.status.trans hfailed, hv⟩
  | closeSilent hopen => rw [ht] at hopen; cases hopen
  | requestCancel _ _ _ _ hopen => rw [hclosing] at hopen; cases hopen
  | _ => exact .inl rfl

theorem View.Change.verdict (hc : a.Change b) (htr : b.trace = a.trace ++ vs)
    (ht : a.run.status.terminal = true) :
    b.run.verdict = a.run.verdict ∨
      b.run.status = .failed ∧ ∃ v ∈ vs, v.run.id = a.run.id ∧ v.failsOpenRun = false := by
  obtain ⟨r', tr'⟩ := b
  simp only at htr ⊢
  rcases hc with (⟨ws, hm, hws⟩ | ⟨ws, hm, hws⟩) | ⟨ws, hm, hws⟩
  · obtain rfl : ws = vs := List.append_cancel_left (hws.symm.trans htr)
    exact hm.verdict ht
  · simp only at hm
    cases hm with
    | step => exact .inl rfl
  · simp only at hm
    cases hm with
    | status hopen => rw [ht] at hopen; cases hopen
    | step => exact .inl rfl
    | event => exact .inl rfl

/-- A failed run stays failed, whatever fails it again. -/
theorem View.Operates.failed (h : a.Operates b) (ha : a.run.status = .failed) :
    b.run.status = .failed := by
  induction h with
  | refl => exact ha
  | tail _ hc ih =>
    obtain ⟨vs, hvs⟩ := hc.trace
    rcases hc.verdict hvs (by rw [ih]; rfl) with hv | ⟨hf, -⟩
    · exact (congrArg Prod.fst hv).trans ih
    · exact hf

theorem View.Operates.verdict (h : a.Operates b) (ha : a.run.Sound) (htr : b.trace = a.trace ++ vs)
    (hP : ∀ v ∈ vs, v.run.id = a.run.id → v.failsOpenRun = true)
    (ht : a.run.status.terminal = true) : b.run.verdict = a.run.verdict := by
  refine (h.invariant_of_visits (J := fun v => v.run.id = a.run.id ∧
    v.run.verdict = a.run.verdict) (P := fun v => v.run.id = a.run.id → v.failsOpenRun = true)
    ?_ ha htr hP ⟨rfl, rfl⟩).2
  rintro c d ws - ⟨hid, hv⟩ hws hP hc
  have hterm : c.run.status.terminal = true := by
    rw [show c.run.status = a.run.status from congrArg Prod.fst hv]
    exact ht
  refine ⟨(congrArg Prod.fst hc.pinned).trans hid, ?_⟩
  rcases hc.verdict hws hterm with h' | ⟨-, v, hmem, hrun, hopen⟩
  · exact h'.trans hv
  · rw [hP v hmem (hrun.trans hid)] at hopen
    cases hopen

/-! ### Every run -/

/-- Once a run has ended, its status, reason and output stay, in every run of the installation in
which no further failure is written to the ended run. -/
theorem ended_run_unchanged [Platform] (fleet : Fleet) (os ps : List Operation) (id : RunID)
    (r : Run) (hr : (installation.exec (World.initial fleet) os).db.runs.find? id = some r)
    (ht : r.status.terminal = true)
    (hP : ∀ v ∈ (installation.exec (World.initial fleet) (os ++ ps)).db.sys.trace.drop
        (installation.exec (World.initial fleet) os).db.sys.trace.length,
      v.run.id = id → v.failsOpenRun = true) :
    ∃ r', (installation.exec (World.initial fleet) (os ++ ps)).db.runs.find? id = some r' ∧
      r'.status = r.status ∧ r'.reasonCode = r.reasonCode ∧ r'.output = r.output := by
  obtain ⟨hsound, hid⟩ := installation_sound hr
  obtain ⟨r', hr', hop⟩ := installation_append ps hr
  obtain ⟨vs, hvs⟩ := hop.trace
  simp only at hvs
  rw [hvs, List.drop_left] at hP
  have hv := hop.verdict hsound hvs (by rw [hid]; exact hP) ht
  exact ⟨r', hr', congrArg Prod.fst hv, congrArg (fun x => x.2.1) hv, congrArg (fun x => x.2.2) hv⟩

def Sample.besideApproval : Fleet :=
  fleet [taskManifest "a" "safe" none] [workflow "w" [taskNode "a" [], approvalNode "b" []]]

def Sample.failedBesideApproval : List Action :=
  [.createRun request, .reconcileReadyWork [], .claimSnapshot session 2 [],
   .claimCommit 0 [true] [] [], .start session 4 1,
   .complete session (completion 4 .failed (some
     { code := "BROKEN", message := "", details := none, retryable := false
       effectStatus := "NOT_APPLIED", retryAfter := "" })) .unavailable]

theorem ended_run_unchanged_failed :
    ∃ r r', ((@installation Sample.platform).exec (World.initial Sample.besideApproval)
        (Sample.failedBesideApproval.map .engine)).db.runs.find? 0 = some r ∧
      r.status.terminal = true ∧
      ((@installation Sample.platform).exec (World.initial Sample.besideApproval)
        (Sample.failedBesideApproval.map .engine ++ [.engine .sweepExpiredApprovals])
          ).db.runs.find? 0 = some r' ∧
      r'.status = r.status ∧ r'.reasonCode = r.reasonCode ∧ r'.output = r.output := by
  obtain ⟨r, hr, ht⟩ := (Option.any_eq_true (fun r : Run => r.status.terminal)
    (((@installation Sample.platform).exec (World.initial Sample.besideApproval)
      (Sample.failedBesideApproval.map .engine)).db.runs.find? 0)).mp (by decide +kernel)
  have hvisits : ∀ v ∈ ((@installation Sample.platform).exec (World.initial Sample.besideApproval)
      (Sample.failedBesideApproval.map .engine ++ [.engine .sweepExpiredApprovals])
        ).db.sys.trace.drop ((@installation Sample.platform).exec
          (World.initial Sample.besideApproval)
            (Sample.failedBesideApproval.map .engine)).db.sys.trace.length,
      v.failsOpenRun = true := List.all_eq_true.mp (by decide +kernel)
  obtain ⟨r', hr', h⟩ := @ended_run_unchanged Sample.platform Sample.besideApproval
    (Sample.failedBesideApproval.map .engine) [.engine .sweepExpiredApprovals] 0 r hr ht
    fun v hv _ => hvisits v hv
  exact ⟨r, r', hr, ht, hr', h⟩

/-- The approval that stays `PENDING` expires, and the sweep fails the run a second time. -/
theorem failed_run_fails_again :
    ((Sample.run Sample.besideApproval Sample.failedBesideApproval).db.runs.find? 0).any (fun r =>
      r.status == .failed && r.reasonCode == some "BROKEN") = true ∧
    ((Sample.run Sample.besideApproval (Sample.failedBesideApproval ++
      [.elapse 2000000, .sweepExpiredApprovals])).db.runs.find? 0).any (fun r =>
      r.status == .failed && r.reasonCode == some "APPROVAL_EXPIRED") = true := by
  decide +kernel

end Deadbolt.Execution

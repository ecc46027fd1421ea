import Deadbolt.Lifecycle.Terminal
import Deadbolt.Lifecycle.Waits

/-!
# What an ended run leaves behind

A cancelled run closes everything. `failRunForStepTx` forgets the approvals, the deadline of a lost
attempt forgets them and the live siblings, and the failures of a claim, of a handoff and of a full
history cancel the idle steps and nothing else.
-/

namespace Deadbolt.Execution

open Base Contracts

namespace Step

/-- A timer, an approval or a case of the step is pending. -/
def pends (s : Step) : Bool :=
  !s.pendings.isEmpty || s.hasPendingApproval || !s.openCases.isEmpty

/-- The step is over and nothing of it is left. -/
structure Settled (s : Step) : Prop where
  terminal : s.state.terminal = true
  idle : s.hasLive = false
  free : s.Free

end Step

/-- A write that ends the run finds nothing that it would leave behind, approvals and delays are
opened for `BLOCKED` steps, a hold of a claim finds its step `READY`, and no disaster recovery holds
the run. -/
def Visit.endsClean (v : Visit) : Bool :=
  match v.kind with
  | .failRun _ => !v.run.anyStep Step.hasPendingApproval
  | .artifactFailure _ | .handoffExhausted _ | .historyLimit =>
    !v.run.anyStep fun s => s.pends || s.state == .running
  | .deadlineLost id _ =>
    v.run.steps.rows.all fun e => !e.2.hasPendingApproval && (e.1 == id || !e.2.hasLive)
  | .deadlineHandoff _ => !v.run.anyStep fun s => s.hasPendingApproval || s.hasLive
  | .openApproval id | .scheduleDelay id =>
    (v.run.steps.find? id).any fun s => s.state == .blocked
  | _ => v.holdsReady

theorem Visit.holdsReady_of_endsClean {v : Visit} (h : v.endsClean = true) :
    v.holdsReady = true := by
  unfold endsClean at h
  split at h <;> simp_all [holdsReady]

namespace Step

section

variable {r r' : Run} {tr : List Visit} {id : StepID} {s s' : Step}

theorem pends_eq_false : s.pends = false ↔ s.Free := by
  simp [pends, Free, and_assoc]

theorem Settled.not_owns (h : s.Settled) {a : AttemptID} (ho : s.Owns a) : False := by
  have hl := ho.hasLive
  rw [h.idle] at hl
  cases hl

theorem Settled.state_ne (h : s.Settled) {t : StepState} (hs : s.state = t)
    (ht : t.terminal = false) : False := by
  have hterm := h.terminal
  rw [hs, ht] at hterm
  cases hterm

/-! ### Settling writes -/

theorem pendings_cancelTimers (s : Step) : s.cancelTimers.pendings = [] := by
  simp only [pendings, cancelTimers, List.filter_eq_nil_iff, List.mem_map]
  rintro _ ⟨t, -, rfl⟩
  split
  · simp
  · next h => simpa using h

theorem openCases_closeOpenCases (s : Step) (actor : Option ActorID) (resolution : CaseResolution)
    (now : Time) : (s.closeOpenCases actor resolution now).openCases = [] := by
  simp only [openCases, closeOpenCases, List.filter_eq_nil_iff, List.mem_map]
  rintro _ ⟨c, -, rfl⟩
  split
  · simp [Case.resolve]
  · next h => simpa using h

theorem hasPendingApproval_cancelApproval (s : Step) :
    s.cancelApproval.hasPendingApproval = false := by
  cases ha : s.approval with
  | none => simp [hasPendingApproval, cancelApproval, updatePendingApproval, ha]
  | some a =>
    by_cases hp : a.status = .pending <;>
      simp [hasPendingApproval, cancelApproval, updatePendingApproval, ha, hp]

theorem settled_failFast (h : s.Sound) (ha : s.hasPendingApproval = false) (failing : Bool)
    (reason : String) (actor : Option ActorID) (now closedAt : Time) :
    (s.failFast failing reason actor now closedAt).Settled := by
  have hidle := (revokeSiblings_idle h now).1
  cases failing with
  | true =>
    exact ⟨rfl, hidle, pendings_cancelTimers _, ha, openCases_closeOpenCases
      ((s.revokeSiblings now).failWith reason) actor .fail closedAt⟩
  | false =>
    have hcases := openCases_closeOpenCases (s.revokeSiblings now) actor .fail closedAt
    have hterm := terminal_cancelOpenWith
      ((s.revokeSiblings now).closeOpenCases actor .fail closedAt) none
    unfold Step.failFast
    simp only [Bool.false_eq_true, if_false]
    unfold cancelOpenWith at hterm ⊢
    split
    · next ht => exact ⟨ht, hidle, pendings_cancelTimers _, ha, hcases⟩
    · exact ⟨rfl, hidle, pendings_cancelTimers _, ha, hcases⟩

theorem settled_cancelAll (h : s.Sound) (actor : Option ActorID) (now graceUntil closedAt : Time) :
    (s.cancelAll actor now graceUntil closedAt).Settled := by
  have hidle := (revokeCancelled_idle h now graceUntil).1
  unfold Step.cancelAll
  unfold cancelOpenWith
  split
  · next ht =>
    exact ⟨ht, hidle, pendings_cancelTimers _, hasPendingApproval_cancelApproval _,
      openCases_closeOpenCases ..⟩
  · exact ⟨rfl, hidle, pendings_cancelTimers _, hasPendingApproval_cancelApproval _,
      openCases_closeOpenCases ..⟩

theorem settled_failOverdue (ha : s.hasPendingApproval = false) (hidle : s.hasLive = false)
    (closedAt : Time) : (s.failOverdue closedAt).Settled := by
  unfold Step.failOverdue
  unfold cancelOpen
  split
  · next ht => exact ⟨ht, hidle, pendings_cancelTimers _, ha, openCases_closeOpenCases ..⟩
  · exact ⟨rfl, hidle, pendings_cancelTimers _, ha, openCases_closeOpenCases ..⟩

theorem settled_cancelIdle (h : s.Free) (hidle : s.hasLive = false) (hs : s.state ≠ .running) :
    s.cancelIdle.Settled := by
  unfold cancelIdle
  split
  · next ht =>
    rw [Bool.or_eq_true, beq_iff_eq] at ht
    exact ⟨ht.resolve_right hs, hidle, h⟩
  · exact ⟨rfl, hidle, h⟩

/-! ### A settled step stays settled -/

theorem Moves.settled {k : Option VisitKind} {u : Option StatusMove} (hm : Moves r id s k u s')
    (hf : r.steps.find? id = some s) (h : s.Settled)
    (hP : ∀ x ∈ k, Visit.endsClean ⟨x, r⟩ = true) : s'.state.terminal = true ∧ s'.Free := by
  have hblocked (hc : (r.steps.find? id).any (fun s => s.state == .blocked) = true) : False := by
    rw [hf, Option.any_some, beq_iff_eq] at hc
    exact h.state_ne hc rfl
  cases hm with
  | mint now windowMs =>
    obtain ⟨v, hv⟩ := mintWindow_eq s (now + millis windowMs)
    rw [hv]
    exact ⟨h.terminal, h.free⟩
  | derive x windowMs =>
    obtain ⟨v, hv⟩ := mintWindow_eq s (x.createdAt + durationMs windowMs)
    rw [hv]
    exact ⟨h.terminal, h.free⟩
  | skip _ hs => exact (h.state_ne hs rfl).elim
  | succeedControl _ hs => exact (h.state_ne hs rfl).elim
  | ready _ hs => exact (h.state_ne hs rfl).elim
  | requestApproval _ _ _ _ hs => exact (h.state_ne hs rfl).elim
  | lateApproval => exact (hblocked (hP _ rfl)).elim
  | parkDelay _ _ _ _ hs => exact (h.state_ne hs rfl).elim
  | lateDelay => exact (hblocked (hP _ rfl)).elim
  | fireRetry _ _ _ hw => exact (h.state_ne (waitsFor_eq_true.mp hw).1 rfl).elim
  | fireDelay _ _ _ hw => exact (h.state_ne (waitsFor_eq_true.mp hw).1 rfl).elim
  | grant _ _ _ _ _ hs => exact (h.state_ne hs rfl).elim
  | start => exact ⟨h.terminal, h.free⟩
  | renew => exact ⟨h.terminal, h.free⟩
  | acknowledge => exact ⟨h.terminal, h.free⟩
  | park _ _ howns => exact (h.not_owns howns).elim
  | fence _ _ _ _ howns =>
    obtain ⟨x, hx, hid, hl, -⟩ := howns
    exact (h.not_owns ⟨x, hx, hid, hl⟩).elim
  | claimHold =>
    have hready := hP _ rfl
    simp only [Visit.endsClean, Visit.holdsReady, hf, Option.any_some, beq_iff_eq] at hready
    exact (h.state_ne hready rfl).elim
  | approve _ _ _ _ _ _ hs => exact (h.state_ne hs rfl).elim
  | readyHandoff _ _ hw => exact (h.state_ne (waitsFor_eq_true.mp hw).1 rfl).elim

theorem Unsettles.not_settled {k : VisitKind} (hm : Unsettles r id s k s') (h : s.Settled) :
    False := by
  cases hm with
  | finish a howns => exact h.not_owns howns
  | confirm _ _ _ _ hc => exact hc.openCases_ne h.free.2.2
  | retry _ _ _ _ _ hw => exact h.state_ne (waitsFor_eq_true.mp hw).1 rfl

end

end Step

/-! ### Ends of a run -/

/-- Open runs wait for what is pending, and the others are settled. -/
structure Run.Tidy (r : Run) : Prop where
  engaged : r.Engaged
  waits : r.Waits
  settled : r.status.closing = true → ∀ k s, r.steps.find? k = some s → s.Settled

namespace Run

variable {r r1 : Run} {k : StepID} {s s' : Step}

theorem Tidy.idle (h : r.Tidy) (hf : r.steps.find? k = some s) (hs : s.state ≠ .running) :
    s.hasLive = false := by
  cases hc : r.status.closing with
  | true => exact (h.settled hc k s hf).idle
  | false => exact (h.engaged k s hf).idle hs (h.waits hc k s hf).unclosed

theorem Tidy.settled_of_allTerminal (h : r.Tidy) (hall : r.AllTerminal)
    (hf : r.steps.find? k = some s) : s.Settled := by
  have hterm : s.state.terminal = true := EachStep.find hall hf
  have hne {t : StepState} (ht : t.terminal = false) : s.state ≠ t := by
    rintro rfl
    cases ht.symm.trans hterm
  cases hc : r.status.closing with
  | true => exact h.settled hc k s hf
  | false => exact ⟨hterm, h.idle hf (hne rfl), (h.waits hc k s hf).free (hne rfl)⟩

/-- The steps that the cancellation of the idle steps settles. -/
theorem Tidy.clear (h : r.Tidy) (hv : r.anyStep (fun s => s.pends || s.state == .running) = false)
    (hf : r.steps.find? k = some s) : s.Free ∧ s.hasLive = false ∧ s.state ≠ .running := by
  have hs := (anyStep_eq_false r _).mp hv k s hf
  rw [Bool.or_eq_false_iff, Step.pends_eq_false, beq_eq_false_iff_ne] at hs
  exact ⟨hs.1, h.idle hf hs.2, hs.2⟩

/-- A write that cancels the idle steps, and may fail some of them first. -/
theorem Tidy.settled_cancelIdle (h : r.Tidy)
    (hv : r.anyStep (fun s => s.pends || s.state == .running) = false) {f : StepID → Step → Step}
    (hf : ∀ k s, f k s = s ∨ ∃ reason, f k s = s.failWith reason)
    (hk : (r.steps.mapRows fun k s => (f k s).cancelIdle).find? k = some s') : s'.Settled := by
  rw [Table.find?_mapRows] at hk
  obtain ⟨s0, hfind, rfl⟩ := Option.map_eq_some_iff.mp hk
  obtain ⟨hfree, hidle, hne⟩ := h.clear hv hfind
  rcases hf k s0 with hs | ⟨reason, hs⟩
  · rw [hs]
    exact Step.settled_cancelIdle hfree hidle hne
  · rw [hs]
    exact Step.settled_cancelIdle (s := s0.failWith reason) hfree hidle nofun

theorem Closes.settled {vs : List Visit} {t : EventType} (hc : r.Closes vs t r1) (hs : r.Sound)
    (h : r.Tidy) (hP : ∀ v ∈ vs, v.run.id = r.id → v.endsClean = true)
    (hk : r1.steps.find? k = some s') : s'.Settled := by
  cases hc with
  | @fail id r0 r2 ws reason actor now closedAt hf hl =>
    have hv := hP ⟨.failRun id, r2⟩ (by simp) (hf.id_logs hl)
    simp only [Visit.endsClean, Bool.not_eq_true', anyStep_eq_false] at hv
    rw [failFast, steps_setStatus, steps_mapSteps, Table.find?_mapRows] at hk
    obtain ⟨s0, hfind, rfl⟩ := Option.map_eq_some_iff.mp hk
    exact Step.settled_failFast ((hs.failsFrom hf).steps.find (hl.steps ▸ hfind))
      (hv k s0 hfind) ..
  | failWithoutSteps closedAt _ hall =>
    rw [steps_setStatus, steps_mapSteps, Table.find?_mapRows] at hk
    obtain ⟨s0, hfind, rfl⟩ := Option.map_eq_some_iff.mp hk
    have hs0 := h.settled_of_allTerminal hall hfind
    exact ⟨hs0.terminal, hs0.idle, s0.pendings_cancelTimers, hs0.free.2.1,
      Step.openCases_closeOpenCases ..⟩
  | settleFailed _ _ hall => exact h.settled_of_allTerminal hall hk
  | settleSucceeded _ _ hall => exact h.settled_of_allTerminal hall hk
  | cancel actor now graceUntil closedAt =>
    simp only [steps_setStatus, steps_mapSteps, Table.find?_mapRows] at hk
    obtain ⟨s0, hfind, rfl⟩ := Option.map_eq_some_iff.mp hk
    exact Step.settled_cancelAll (hs.steps.find hfind) ..
  | settleCancelled _ hst => exact h.settled (by rw [hst]; rfl) k s' hk
  | @artifactFailure id s hf hst =>
    have hv := hP _ (List.mem_singleton_self _) rfl
    simp only [Visit.endsClean, Bool.not_eq_true'] at hv
    refine h.settled_cancelIdle hv (f := fun k s => if k = id ∧ s.state = .ready then
      s.failWith "ARTIFACT_UNAVAILABLE" else s) (fun k s => ?_) hk
    by_cases hready : k = id ∧ s.state = .ready
    · exact .inr ⟨_, if_pos hready⟩
    · exact .inl (if_neg hready)
  | @deadlineLost id s s1 a closedAt hf hopen howns hc hst =>
    have hv := hP _ (List.mem_singleton_self _) rfl
    simp only [Visit.endsClean, List.all_eq_true, Bool.and_eq_true, Bool.not_eq_true',
      Bool.or_eq_true, beq_iff_eq] at hv
    rw [steps_setStatus, steps_mapSteps, Table.find?_mapRows, find?_setStep] at hk
    split at hk
    · next he =>
      subst he
      rw [hf] at hk
      obtain rfl : s1.failOverdue closedAt = s' := Option.some.inj hk
      refine Step.settled_failOverdue ?_ (hc.idle (hs.steps.find hf) howns).1 closedAt
      obtain ⟨_, _, _, _, _, _, rfl⟩ := hc.eq
      exact (hv _ ((Table.find?_eq_some_iff ..).mp hf)).1
    · next he =>
      obtain ⟨s0, hfind, rfl⟩ := Option.map_eq_some_iff.mp hk
      obtain ⟨ha, hl⟩ := hv _ ((Table.find?_eq_some_iff ..).mp hfind)
      exact Step.settled_failOverdue ha (hl.resolve_left he) closedAt
  | deadlineHandoff id closedAt =>
    have hv := hP _ (List.mem_singleton_self _) rfl
    simp only [Visit.endsClean, Bool.not_eq_true', anyStep_eq_false, Bool.or_eq_false_iff] at hv
    rw [steps_setStatus, steps_mapSteps, Table.find?_mapRows] at hk
    obtain ⟨s0, hfind, rfl⟩ := Option.map_eq_some_iff.mp hk
    exact Step.settled_failOverdue (hv k s0 hfind).1 (hv k s0 hfind).2 closedAt
  | @handoffExhausted id s hf _ hw =>
    have hv := hP _ (List.mem_singleton_self _) rfl
    simp only [Visit.endsClean, Bool.not_eq_true'] at hv
    refine h.settled_cancelIdle hv (f := fun k s => if k = id then
      s.failWith "MAX_ATTEMPTS_EXCEEDED" else s) (fun k s => ?_) hk
    by_cases hid : k = id
    · exact .inr ⟨_, if_pos hid⟩
    · exact .inl (if_neg hid)
  | historyLimit =>
    have hv := hP _ (List.mem_singleton_self _) rfl
    simp only [Visit.endsClean, Bool.not_eq_true'] at hv
    exact h.settled_cancelIdle hv (f := fun _ s => s) (fun _ _ => .inl rfl) hk

/-- The steps of a closing run after a move. -/
theorem Moves.settled {r' : Run} {tr vs : List Visit} (hm : r.Moves tr vs r') (hs : r.Sound)
    (h : r.Tidy) (hP : ∀ v ∈ tr ++ vs, v.run.id = r.id → v.endsClean = true)
    (hclosing : r'.status.closing = true) (hk : r'.steps.find? k = some s') : s'.Settled := by
  cases hm with
  | idle => exact h.settled hclosing k s' hk
  | event => exact h.settled hclosing k s' hk
  | checked => exact h.settled hclosing k s' hk
  | @step id s s1 visit u hf hm hu =>
    have hwas : r.status.closing = true := by
      cases u with
      | none => exact hclosing
      | some u => exact (StatusMove.closing_apply (hu u rfl)).symm.trans hclosing
    rw [StatusMove.steps_follow, find?_setStep] at hk
    split at hk
    · next he =>
      subst he
      rw [hf] at hk
      obtain rfl : s1 = s' := Option.some.inj hk
      have hset := h.settled hwas _ s hf
      have hvisit : ∀ x ∈ visit, (⟨x, r⟩ : Visit) ∈ tr ++ visit.toList.map fun x => ⟨x, r⟩ := by
        intro x hx
        rw [Option.mem_def.mp hx]
        simp
      obtain ⟨hterm, hfree⟩ := hm.settled hf hset fun x hx => hP _ (hvisit x hx) rfl
      refine ⟨hterm, ?_, hfree⟩
      rcases hm.frames hvisit (hs.steps.find hf) with ⟨a, l, now, hc, -⟩ | hframes
      · exact (hset.state_ne hc.ready rfl).elim
      · exact hframes.hasLive_eq_false hset.idle
    · exact h.settled hwas k s' hk
  | status u _ hu =>
    rw [u.steps_apply] at hk
    exact h.settled ((StatusMove.closing_apply hu).symm.trans hclosing) k s' hk
  | close hc he =>
    exact hc.settled hs h (fun v hv => hP v (List.mem_append_right _ hv)) (he.steps ▸ hk)
  | closeSilent =>
    have hv := hP _ (List.mem_append_right _ (List.mem_singleton_self _)) rfl
    simp only [Visit.endsClean, Bool.not_eq_true'] at hv
    exact h.settled_cancelIdle hv (f := fun _ s => s) (fun _ _ => .inl rfl) hk
  | requestCancel actor now graceUntil closedAt =>
    simp only [steps_setStatus, steps_mapSteps, Table.find?_mapRows] at hk
    obtain ⟨s0, hfind, rfl⟩ := Option.map_eq_some_iff.mp hk
    exact Step.settled_cancelAll (hs.steps.find hfind) ..

theorem Created.tidy (h : r.Created) : r.Tidy := by
  refine ⟨h.engaged, h.waits, fun hc => ?_⟩
  obtain ⟨req, d, runID, now, steps, wf, rfl, -⟩ := h
  cases hc

end Run

/-! ### Every run -/

theorem View.Change.tidy {a b : View} (hc : a.Change b) (hs : a.run.Sound) (h : a.run.Tidy)
    (hP : ∀ v ∈ b.trace, v.run.id = a.run.id → v.endsClean = true) : b.run.Tidy := by
  have hP' : ∀ v ∈ b.trace, v.run.id = a.run.id → v.holdsReady = true :=
    fun v hv hid => Visit.holdsReady_of_endsClean (hP v hv hid)
  refine ⟨hc.engaged hs h.engaged hP', hc.waits hs h.engaged h.waits hP', fun hclosing k s' hk => ?_⟩
  obtain ⟨r', tr'⟩ := b
  rcases hc with (⟨vs, hm, htr⟩ | ⟨vs, hm, htr⟩) | ⟨vs, hm, htr⟩
  · exact hm.settled hs h (by rw [← htr]; exact hP) hclosing hk
  · simp only at hm hk hclosing
    cases hm with
    | @step id s s1 visit hf hm =>
      exact (hm.not_settled (h.settled hclosing id s hf)).elim
  · simp only at hm htr hk hclosing hP
    cases hm with
    | status => cases hP ⟨.disasterHold, a.run⟩ (by simp [htr]) rfl
    | step => cases hP ⟨.disasterHold, a.run⟩ (by simp [htr]) rfl
    | event => exact h.settled hclosing k s' hk

/-- A run that has ended has no live attempt, no lease, no step that is not terminal, and no pending
timer, case or approval, in every run of the installation in which every write that ends the run
finds nothing that it would leave behind. -/
theorem ended_run_settled [Platform] (fleet : Fleet) (os : List Operation) (id : RunID) (r : Run)
    (hr : (installation.exec (World.initial fleet) os).db.runs.find? id = some r)
    (hP : ∀ v ∈ (installation.exec (World.initial fleet) os).db.sys.trace,
      v.run.id = id → v.endsClean = true)
    (ht : r.status.terminal = true) (k : StepID) (s : Step) (hs : r.steps.find? k = some s) :
    (∀ a ∈ s.attempts, a.status ≠ .claimed ∧ a.status ≠ .running) ∧ s.lease = none ∧
      s.state.terminal = true ∧ (∀ t ∈ s.timers, t.state ≠ .pending) ∧
      (∀ c ∈ s.cases, c.status ≠ .open) ∧ ∀ a, s.approval = some a → a.status ≠ .pending := by
  obtain ⟨hsound, -, h⟩ := installation_run_invariant (fun _ h => h.tidy)
    (fun a b hs h hP hc => hc.tidy hs h hP) hP hr
  obtain ⟨hterm, hidle, htimers, happroval, hcases⟩ :=
    h.settled (RunStatus.closing_of_terminal ht) k s hs
  refine ⟨fun a ha => ?_, ?_, hterm, fun t ht hp => ?_, fun c hc ho => ?_, fun a ha hp => ?_⟩
  · have hl := Step.hasLive_eq_false.mp hidle a ha
    constructor <;> intro hst <;> rw [hst] at hl <;> cases hl
  · by_contra hl
    obtain ⟨l, hl⟩ := Option.ne_none_iff_exists'.mp hl
    have hlive := ((hsound.steps.find hs).leased l hl).hasLive
    rw [hidle] at hlive
    cases hlive
  · exact List.filter_eq_nil_iff.mp htimers t ht (by simp [hp])
  · exact List.filter_eq_nil_iff.mp hcases c hc (by simp [ho])
  · simp [Step.hasPendingApproval, ha, hp] at happroval

theorem ended_run_settled_succeeded :
    ∃ r s, ((@installation Sample.platform).exec (World.initial (Sample.single "safe" none))
        (Sample.succeededOnce.map .engine)).db.runs.find? 0 = some r ∧
      r.status.terminal = true ∧ r.steps.find? 1 = some s ∧ s.attempts ≠ [] ∧
      ∀ a ∈ s.attempts, a.status ≠ .claimed ∧ a.status ≠ .running := by
  obtain ⟨r, hr, h⟩ := (Option.any_eq_true (fun r : Run => r.status.terminal &&
    (r.steps.find? 1).any fun s => !s.attempts.isEmpty) (((@installation Sample.platform).exec
      (World.initial (Sample.single "safe" none)) (Sample.succeededOnce.map .engine)
        ).db.runs.find? 0)).mp (by decide +kernel)
  rw [Bool.and_eq_true] at h
  obtain ⟨s, hs, hne⟩ := (Option.any_eq_true ..).mp h.2
  have hvisits : ∀ v ∈ ((@installation Sample.platform).exec
      (World.initial (Sample.single "safe" none)) (Sample.succeededOnce.map .engine)
        ).db.sys.trace, v.endsClean = true := List.all_eq_true.mp (by decide +kernel)
  have hsettled := @ended_run_settled Sample.platform (Sample.single "safe" none)
    (Sample.succeededOnce.map .engine) 0 r hr (fun v hv _ => hvisits v hv) h.1 1 s hs
  exact ⟨r, s, hr, h.1, hs, by simpa using hne, hsettled.1⟩

/-- The approval beside the task that failed the run stays `PENDING`. -/
theorem failed_run_leaves_approval :
    ((Sample.run Sample.besideApproval Sample.failedBesideApproval).db.runs.find? 0).any (fun r =>
      r.status == .failed && r.anyStep Step.hasPendingApproval) = true := by
  decide +kernel

end Deadbolt.Execution

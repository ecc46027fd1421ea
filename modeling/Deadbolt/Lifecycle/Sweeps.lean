import Deadbolt.Lifecycle.Worker

/-!
# Sweeps as moves

Lost attempts, recovery handoffs, due timers, overdue runs, ready-work repair, the quota and
the event budget are paths of the automaton. The lease sweep selects its handoffs before it
handles the lost attempts, so what happens to one step must leave the selected others alone
(`Run.Focused`).
-/

namespace Deadbolt.Execution

open Base Contracts Tx RunTx

theorem RunStatus.closing_of_sweepSkips {s : RunStatus} (h : s.sweepSkips = false) :
    s.closing = false := by
  cases s <;> first | rfl | cases h

variable [Platform]

/-! ### Lost attempts -/

theorem failOverdueTx_spec (c : RunScope) :
    Commits failOverdueTx c fun _ c' => ∃ closedAt r',
      ((c.run.mapSteps fun _ s => s.failOverdue closedAt).setStatus .failed
        (some "RUN_DEADLINE_EXCEEDED")).Logs r' ∧ c'.view = ⟨r', c.sys.trace⟩ := by
  simp only [failOverdueTx, commits_bind, commits_mapSteps, commits_modifyRun]
  refine (closeOpenCasesTx_spec none _ .fail _).mono ?_
  rintro _ c1 ⟨closedAt, r', hlogs, hview⟩
  refine ⟨closedAt, r', ?_, hview⟩
  simpa [Run.mapSteps_setStatus, Step.failOverdue] using hlogs

variable {s : Step} {c : RunScope} {id : StepID} {a : Attempt}

theorem loseOverdueAttempt_leads (hf : c.run.steps.find? id = some s)
    (hopen : c.run.status.closing = false) (howns : s.Owns a.id) (hs : s.state.terminal = false) :
    Commits (loseOverdueAttempt id a) c fun _ c' =>
      c.view.Leads c'.view ∧ Run.Focused id c.run c'.run := by
  simp only [loseOverdueAttempt, loseAttempt, appendTaskLost, appendSweepFailed, commits_bind,
    commits_note, commits_clockTimestamp, commits_updateStep, commits_pure,
    RunScope.run_tick, RunScope.run_visit]
  rw [Run.updateStep_of_find hf rfl]
  refine (failOverdueTx_spec _).mono ?_
  rintro _ c1 ⟨closedAt, r1, hlogs, hview⟩
  have hrun : c1.run = r1 := congrArg View.run hview
  have htr : c1.sys.trace = c.sys.trace ++ [⟨.deadlineLost id a.id, c.run⟩] :=
    congrArg View.trace hview
  simp only [commits_appendRunEvent, RunScope.run_withRun, hrun]
  intro hslot hslot'
  have hends := (hlogs.tail .taskLost _ rfl (by simp) hslot).ends hslot'
  refine ⟨?_, .inl ?_⟩
  · have hm := fun x => View.Leads.single (v := c.view) (.close (.deadlineLost a.id closedAt hf hopen howns
      (.lose rfl (.inl rfl) hs) hs) (hends x))
    simp only [RunScope.trace_view, RunScope.run_view, ← htr] at hm
    exact hm _
  · exact (hends []).status ▸ rfl

omit [Platform] in
/-- A loss is judged by the effect it records, or the attempt had not started. -/
theorem Step.says_lose (h : s.Sound) (ha : a ∈ s.attempts) (status : AttemptStatus) (error : Json)
    (now : Time) {effect : String} (heffect : a.startedAt = none ∨ isUnknownEffect effect = true) :
    (s.lose a.id status error now).Says a.id status effect := by
  intro y hy hid hamb
  obtain ⟨x, hx, rfl⟩ := List.mem_map.mp hy
  have hxid : x.id = a.id := by split at hid <;> exact hid
  obtain rfl : x = a := h.eq_of_id hx ha hxid
  rcases heffect with hn | heffect
  · have hstarted : x.startedAt.isSome = true := by
      simp only [Attempt.ambiguous, Bool.and_eq_true] at hamb
      split at hamb <;> exact hamb.1
    simp [hn] at hstarted
  · exact .inl heffect

/-- The steps of a lost attempt that does not end the run on its own. -/
private theorem loseThenRetry (hv : c.run.Sound) (hf : c.run.steps.find? id = some s)
    (ha : a ∈ s.attempts) (hlive : a.status.live = true) (hs : s.state.terminal = false)
    (status : AttemptStatus) (hlost : status = .lost ∨ status = .timedOut) (failed : FailedAttempt)
    (heffect : a.startedAt = none ∨ isUnknownEffect failed.effectStatus = true)
    (code message effect : String) (retryable : Bool) (x : Payload) (node : String)
    (deadline : Option Time) :
    Commits (do
      note (.closeAttempt id status failed.effectStatus)
      loseAttempt id a.id status code message retryable effect
      appendRunEvent .taskLost x
      retryOrFailTx id node failed (c.run.retryPolicy s) deadline) c fun _ c' =>
        c.view.Leads c'.view ∧ Run.Focused id c.run c'.run := by
  simp only [loseAttempt, commits_bind, commits_note, commits_clockTimestamp,
    commits_updateStep, commits_pure, commits_appendRunEvent, RunScope.run_tick,
    RunScope.run_visit, RunScope.run_withRun]
  rw [Run.updateStep_of_find hf rfl]
  intro hslot
  have hdead : status.live = false := by rcases hlost with rfl | rfl <;> rfl
  have hc : s.Closes (c.run.retryPolicy s) a.id status (s.lose a.id status
      (.obj [("code", .str code), ("message", .str message), ("retryable", .bool retryable),
        ("effectStatus", .str effect)])
      (Platform.clock (c.visit (.closeAttempt id status failed.effectStatus)).sys.ticks)) :=
    .lose hdead hlost hs
  refine retryOrFailTx_leads (v := c.view) _ hf ⟨a, ha, rfl, hlive⟩ rfl hc
    (by rcases hlost with rfl | rfl <;> simp)
    (Step.says_lose (hv.steps.find hf) ha _ _ _ heffect) ?_
    (by exact .tail .refl .taskLost x rfl (by simp) hslot) (by rfl) node deadline
  intro hsucc
  have : s.state = .succeeded := hsucc
  rw [this] at hs
  cases hs

theorem loseUnstarted_leads (hv : c.run.Sound) (hf : c.run.steps.find? id = some s)
    (ha : a ∈ s.attempts) (hlive : a.status.live = true) (hstarted : a.startedAt = none)
    (hs : s.state.terminal = false) (node : String) (deadline : Option Time) :
    Commits (loseUnstarted id node a (c.run.retryPolicy s) deadline) c fun _ c' =>
      c.view.Leads c'.view ∧ Run.Focused id c.run c'.run :=
  loseThenRetry hv hf ha hlive hs .lost (.inl rfl)
    { id := a.id, number := a.number, errorCode := "START_DEADLINE_EXCEEDED", retryable := true
      effectStatus := "NOT_APPLIED", retryAfter := "" } (.inl hstarted) _ _ _ _ _ node deadline

omit [Platform] in
theorem isUnknownEffect_unknown : isUnknownEffect "UNKNOWN" = true := by decide

theorem loseStarted_leads (hv : c.run.Sound) (hf : c.run.steps.find? id = some s)
    (ha : a ∈ s.attempts) (hlive : a.status.live = true) (hs : s.state.terminal = false)
    (node : String) (deadline : Option Time) (now : Time) :
    Commits (loseStarted id node a (c.run.retryPolicy s) deadline now) c fun _ c' =>
      c.view.Leads c'.view ∧ Run.Focused id c.run c'.run :=
  loseThenRetry hv hf ha hlive hs _ (by split <;> simp)
    { id := a.id, number := a.number, retryable := true, effectStatus := "UNKNOWN", retryAfter := ""
      errorCode :=
        if a.deadlineAt.any fun t => decide (t ≤ now) then "ATTEMPT_TIMED_OUT" else "LEASE_EXPIRED" }
    (.inr isUnknownEffect_unknown) _ _ _ _ _ node deadline

theorem loseAttemptTx_leads (hv : c.run.Sound) (id : StepID) (attempt : AttemptID) (now : Time) :
    Commits (loseAttemptTx id attempt now) c fun _ c' =>
      c.view.Leads c'.view ∧ (c'.run = c.run ∨
        (∃ s, c.run.steps.find? id = some s ∧ s.hasLive = true) ∧
          c.run.status.sweepSkips = false ∧ Run.Focused id c.run c'.run) := by
  simp only [loseAttemptTx, commits_bind, commits_getRun]
  have hsame : c.view.Leads c.view ∧ (c.run = c.run ∨
      (∃ s, c.run.steps.find? id = some s ∧ s.hasLive = true) ∧
        c.run.status.sweepSkips = false ∧ Run.Focused id c.run c.run) :=
    ⟨View.Leads.refl _, .inl rfl⟩
  cases hf : c.run.steps.find? id with
  | none => simpa [hf] using hsame
  | some s =>
    simp only
    cases ha : s.attempts.find? fun a => a.id == attempt with
    | none => simpa [hf] using hsame
    | some a =>
      simp only [commits_ite, commits_pure, commits_bind]
      refine ⟨fun _ => by simpa [hf] using hsame, fun hskip => ?_⟩
      simp only [Bool.or_eq_true, Bool.not_eq_true', not_or, Bool.not_eq_true, Bool.not_eq_false]
        at hskip
      obtain ⟨⟨hskips, hs⟩, hlive⟩ := hskip
      have hmem := List.mem_of_find?_eq_some ha
      have howns : s.Owns a.id := ⟨a, hmem, rfl, hlive⟩
      have hdone {c' : RunScope} (h : c.view.Leads c'.view ∧ Run.Focused id c.run c'.run) :
          c.view.Leads c'.view ∧ (c'.run = c.run ∨
            (∃ s', some s = some s' ∧ s'.hasLive = true) ∧
              c.run.status.sweepSkips = false ∧ Run.Focused id c.run c'.run) :=
        ⟨h.1, .inr ⟨⟨s, rfl, howns.hasLive⟩, hskips, h.2⟩⟩
      exact ⟨fun _ => (loseOverdueAttempt_leads hf (RunStatus.closing_of_sweepSkips hskips) howns
        hs).mono fun _ _ h => hdone h, fun _ => ⟨fun hst => (loseUnstarted_leads hv hf hmem hlive
          (hst.elim ((hv.steps.find hf).unstarted a hmem) fun h => h) hs _ _).mono fun _ _ h => hdone h,
            fun _ => (loseStarted_leads hv hf hmem hlive hs _ _ _).mono fun _ _ h => hdone h⟩⟩

/-! ### Recovery handoffs -/

theorem readyHandoff_leads (hf : c.run.steps.find? id = some s)
    (hopen : c.run.status.closing = false) (hw : s.waitsFor "RECOVERY_HANDOFF" = true)
    (hbudget : s.nextAttemptNumber ≤ (c.run.retryPolicy s).maxAttempts) (node : String) :
    Commits (readyHandoff id node) c fun _ c' =>
      c.view.Leads c'.view ∧ Run.Focused id c.run c'.run := by
  simp only [readyHandoff, commits_bind, commits_clockTimestamp, commits_updateStep,
    commits_modifyRun, commits_appendRunEvent, RunScope.run_tick, RunScope.run_withRun]
  rw [Run.updateStep_of_find hf hw]
  intro hslot
  refine ⟨(View.Leads.step (v := c.view) hf (.readyHandoff _ hopen hw hbudget) ?_).trans
    (View.Leads.event .stepReady _ rfl (by simp) hslot),
    .setStep (StatusMove.leaveHandoff.steps_apply _)⟩
  rintro _ ⟨⟩
  trivial

omit [Platform] in
theorem exhaustHandoff_leads (hf : c.run.steps.find? id = some s)
    (hopen : c.run.status.closing = false) (hw : s.waitsFor "RECOVERY_HANDOFF" = true) :
    Commits (exhaustHandoff id) c fun _ c' =>
      c.view.Leads c'.view ∧ Run.Focused id c.run c'.run := by
  simp only [exhaustHandoff, appendSweepFailed, commits_bind, commits_note,
    commits_updateStep, commits_modifyRun, commits_mapSteps,
    commits_appendRunEvent]
  have he : ((c.run.updateStep id (fun _ => true) fun s =>
      s.failWith "MAX_ATTEMPTS_EXCEEDED").setStatus .failed (some "MAX_ATTEMPTS_EXCEEDED")).mapSteps
        (fun _ s => s.cancelIdle) =
      (c.run.mapSteps fun k s =>
        (if k = id then s.failWith "MAX_ATTEMPTS_EXCEEDED" else s).cancelIdle).setStatus .failed
          (some "MAX_ATTEMPTS_EXCEEDED") := by
    simp [Run.updateStep, Run.mapSteps_setStatus]
  simp only [RunScope.run_withRun, RunScope.run_visit, he]
  intro hslot
  exact ⟨View.Leads.single (v := c.view) (.close (.handoffExhausted hf hopen hw)
    (Run.Logs.refl.ends hslot _)),
    .inl rfl⟩

/-- One candidate of the handoff query, which either waits for its handoff or belongs to a run
that the sweep skips. -/
theorem handoffTx_leads (h : c.run.status.sweepSkips = true ∨
      ∃ s, c.run.steps.find? id = some s ∧ s.waitsFor "RECOVERY_HANDOFF" = true) (now : Time) :
    Commits (handoffTx id now) c fun _ c' =>
      c.view.Leads c'.view ∧ (c'.run = c.run ∨
        c.run.status.sweepSkips = false ∧ Run.Focused id c.run c'.run) := by
  simp only [handoffTx, commits_bind, commits_getRun, commits_ite, commits_pure,
    commits_getStep]
  refine ⟨fun _ => ⟨View.Leads.refl _, .inl trivial⟩, fun hskips s hf => ?_⟩
  have hskips' : c.run.status.sweepSkips = false := by simpa using hskips
  have hopen := RunStatus.closing_of_sweepSkips hskips'
  obtain ⟨s', hs', hw⟩ := h.resolve_left hskips
  obtain rfl := Option.mem_unique hf hs'
  refine ⟨fun _ => ?_, fun _ => ⟨fun hb => (readyHandoff_leads hf hopen hw hb _).mono fun _ _ h =>
    ⟨h.1, .inr ⟨hskips', h.2⟩⟩, fun _ => (exhaustHandoff_leads hf hopen hw).mono fun _ _ h =>
      ⟨h.1, .inr ⟨hskips', h.2⟩⟩⟩⟩
  simp only [commits_note, appendSweepFailed]
  refine (failOverdueTx_spec _).mono ?_
  rintro _ c1 ⟨closedAt, r1, hlogs, hview⟩
  have hrun : c1.run = r1 := congrArg View.run hview
  have htr : c1.sys.trace = c.sys.trace ++ [⟨.deadlineHandoff id, c.run⟩] :=
    congrArg View.trace hview
  simp only [commits_appendRunEvent, hrun]
  intro hslot
  have hends := fun x => hlogs.ends hslot x
  refine ⟨?_, .inr ⟨hskips', .inl ((hends []).status ▸ rfl)⟩⟩
  have hm := fun x => View.Leads.single (v := c.view)
    (.close (.deadlineHandoff id closedAt hopen) (hends x))
  simp only [RunScope.trace_view, RunScope.run_view, ← htr] at hm
  exact hm _

/-! ### Timers -/

omit [Platform] in
theorem RunStatus.schedulable_of_canFireRetry {s : RunStatus} {reason : String}
    (h : canFireRetry s reason = true) : s.schedulable = true := by
  cases s <;> first | rfl | cases h

omit [Platform] in
theorem RunStatus.schedulable_of_delayStatusFires {s : RunStatus} {reason : String}
    (h : Run.delayStatusFires s reason = true) : s.schedulable = true := by
  cases s <;> first | rfl | cases h

theorem fireRetryTimerTx_leads (c : RunScope) (id : StepID) (timer : TimerID) (now : Time) :
    Commits (fireRetryTimerTx id timer now) c fun _ c' => c.view.Leads c'.view := by
  simp only [fireRetryTimerTx, commits_bind, commits_getRun]
  cases hf : c.run.steps.find? id with
  | none => simpa using View.Leads.refl _
  | some s =>
    simp only
    cases ht : s.timers.find? fun t => t.id == timer with
    | none => simpa using View.Leads.refl _
    | some t =>
      simp only [commits_ite, commits_bind, commits_clockTimestamp,
        commits_updateStep, commits_modifyRun, commits_appendRunEvent, commits_pure,
        RunScope.run_tick, RunScope.run_withRun]
      refine ⟨fun hfires hslot => ?_, fun _ => View.Leads.refl _⟩
      simp only [Run.retryFires, Bool.and_eq_true, beq_iff_eq] at hfires
      obtain ⟨⟨⟨⟨⟨hk, hp⟩, -⟩, hw⟩, hcan⟩, -⟩ := hfires
      obtain rfl : t.id = timer := by simpa using List.find?_some ht
      rw [Run.updateStep_of_find hf hw] at hslot ⊢
      refine (View.Leads.step (v := c.view) hf (.fireRetry t _
        (RunStatus.schedulable_of_canFireRetry hcan) hw (List.mem_of_find?_eq_some ht) ⟨hk, hp⟩) ?_).trans
          (View.Leads.event .stepReady _ rfl (by simp) hslot)
      rintro _ ⟨⟩
      trivial

theorem fireDelayTimerTx_leads (hv : c.run.Sound) (id : StepID) (timer : TimerID) (now : Time) :
    Commits (fireDelayTimerTx id timer now) c fun _ c' => c.view.Leads c'.view := by
  simp only [fireDelayTimerTx, commits_bind, commits_getRun]
  cases hf : c.run.steps.find? id with
  | none => simpa using View.Leads.refl _
  | some s =>
    simp only
    cases ht : s.timers.find? fun t => t.id == timer with
    | none => simpa using View.Leads.refl _
    | some t =>
      simp only [commits_ite, commits_bind, commits_clockTimestamp,
        commits_updateStep, commits_appendRunEvent, commits_pure,
        RunScope.run_tick, RunScope.run_withRun]
      refine ⟨fun hfires hslot => ?_, fun _ => View.Leads.refl _⟩
      simp only [Run.delayFires, Bool.and_eq_true, beq_iff_eq] at hfires
      obtain ⟨⟨⟨⟨hk, hp⟩, hw⟩, hcan⟩, -⟩ := hfires
      obtain rfl : t.id = timer := by simpa using List.find?_some ht
      rw [Run.updateStep_of_find hf hw] at hslot ⊢
      have hl := (View.Leads.step (v := c.view) hf (.fireDelay t (Platform.clock c.sys.ticks)
        (RunStatus.schedulable_of_delayStatusFires hcan) hw (List.mem_of_find?_eq_some ht) ⟨hk, hp⟩)
          (by simp)).trans (View.Leads.silent (.event .stepSucceeded
            [("stepId", idJson id), ("reason", .str "DELAY_DUE"), ("dueAt", timeJson t.dueAt)] rfl hslot
              fun _ => ⟨id, rfl, .inl ⟨_, Run.find?_setStep_self _ hf, rfl⟩⟩))
      refine Commits.mono (advanceAfterStepSuccessTx_leads (by exact hl.sound hv) _) ?_
      rintro _ c1 ⟨hl1, -⟩
      simp only [commits_note, commits_modifyRun]
      exact (hl.trans hl1).trans (View.Leads.single (v := c1.view) (.status .delayWait rfl trivial))

/-! ### Overdue runs, repair, the quota and the event budget -/

theorem failOverdueRunTx_leads (c : RunScope) :
    Commits failOverdueRunTx c fun _ c' => c.view.Leads c'.view := by
  simp only [failOverdueRunTx, commits_bind, commits_getRun, commits_ite,
    commits_pure]
  exact ⟨fun _ => View.Leads.refl _, fun h => settleExpiredRunForControlTx_leads (by simpa using h)⟩

theorem reconcileReadyRunTx_leads (hv : c.run.Sound) :
    Commits reconcileReadyRunTx c fun _ c' => c.view.Leads c'.view := by
  simp only [reconcileReadyRunTx, commits_bind, commits_getRun]
  cases hwf : c.run.workflow? with
  | none => simpa using View.Leads.refl _
  | some wf =>
    simp only [commits_bind]
    refine (evaluateBlockedDAGTx_follows (d := c.run.dag wf "RECONCILIATION") hv hwf _).mono ?_
    intro res c1 h
    simp only [commits_ite, commits_bind, commits_clockTimestamp,
      commits_modifyRun]
    refine ⟨fun _ => h.leads.trans (View.Leads.silent (v := c1.view) (.checked _)), fun _ => ?_⟩
    refine (settleRunTerminalTx_leads fun hall => h.mirrors.allTerminal (h.leads.sound hv).shaped
      (h.leads.workflow?.trans hwf) hall).mono ?_
    rintro _ c2 ⟨hl, -⟩
    exact (h.leads.trans hl).trans (View.Leads.silent (v := c2.view) (.checked _))

theorem evaluateInitialDAG_leads (hv : c.run.Sound) {wf : WorkflowManifest}
    (hwf : c.run.workflow? = some wf) :
    Commits (evaluateInitialDAG wf) c fun _ c' => c.view.Leads c'.view := by
  simp only [evaluateInitialDAG, commits_bind, commits_getRun]
  refine (evaluateBlockedDAGTx_follows (d := c.run.dag wf "") hv hwf _).mono ?_
  intro res c1 h
  simp only [commits_ite, commits_bind, commits_pure]
  refine ⟨fun _ => h.leads, fun _ => ?_⟩
  refine (settleRunTerminalTx_leads fun hall => h.mirrors.allTerminal (h.leads.sound hv).shaped
    (h.leads.workflow?.trans hwf) hall).mono fun _ _ hl => h.leads.trans hl.1

omit [Platform] in
theorem parkOnQuota_leads (c : RunScope) (now : Time) :
    Commits (parkOnQuota now) c fun _ c' => c.view.Leads c'.view := by
  simp only [parkOnQuota, commits_bind, commits_getRun, commits_ite, commits_note,
    commits_modifyRun, commits_pure]
  refine ⟨fun h => ?_, fun _ => View.Leads.refl _⟩
  simp only [Bool.and_eq_true] at h
  exact View.Leads.single (v := c.view) (.status .quota rfl ⟨h.1, now, h.2⟩)

omit [Platform] in
theorem terminalizeHistoryLimitExceeded_leads (c : RunScope) :
    Commits terminalizeHistoryLimitExceeded c fun _ c' => c.view.Leads c'.view := by
  simp only [terminalizeHistoryLimitExceeded, commits_bind, commits_getRun, commits_ite,
    commits_pure, commits_note, commits_mapSteps, commits_appendRunEventIfRoom,
    commits_modifyRun]
  refine ⟨fun _ => View.Leads.refl _, fun hterm => ⟨fun hslot => ?_, fun hslot => ?_⟩⟩
  · exact View.Leads.single (v := c.view) (.close (.historyLimit (by simpa using hterm))
      (Run.Logs.refl.ends (by exact hslot) [("reason", .str "HISTORY_LIMIT_EXCEEDED")]))
  · exact View.Leads.single (v := c.view) (.closeSilent (by simpa using hterm) hslot)

end Deadbolt.Execution

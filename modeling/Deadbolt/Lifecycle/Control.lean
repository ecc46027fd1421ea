import Deadbolt.Lifecycle.Footprint
import Deadbolt.Lifecycle.Graph

/-!
# Controls as moves

The transactions of approvals, cancellation, pause, resume and reconciliation are paths of the
automaton from every sound run. A resolved case and a completed step unsettle the run, and
their transactions settle it again before they commit.
-/

namespace Deadbolt.Execution

open Base Contracts Tx RunTx

/-! ### Committed transactions -/

/-- A run that waits for reconciliation has an open case. -/
def Run.Held (r : Run) : Prop :=
  r.status = .waiting → reasonText r.reasonCode = "RECONCILIATION" → r.hasOpenCase = true

namespace View

/-- A step is completed, and the rest of its transaction is to come. -/
def Finishes (a b : View) : Prop :=
  ∃ id s s1 effect, ∃ x : AttemptID, a.run.steps.find? id = some s ∧ s.Owns x ∧
    s.Closes (a.run.retryPolicy s) x .succeeded s1 ∧ s1.state = .succeeded ∧
    b = ⟨a.run.setStep id s1, a.trace ++ [⟨.closeAttempt id .succeeded effect, a.run⟩]⟩

/-- A path, possibly after a completed step. -/
def Completes (a b : View) : Prop :=
  a.Leads b ∨ ∃ m, a.Finishes m ∧ View.Leads m b ∧ b.run.Finished

/-- A transaction on a run, from its start to its commit. -/
inductive Transacts (a b : View) : Prop
  | completed (h : a.Completes b)
  | resolved (h : a.Reaches b) (hh : b.run.Held) (hf : b.run.Finished)

variable {a b : View}

theorem Leads.transacts (h : a.Leads b) : a.Transacts b := .completed (.inl h)

theorem Finishes.reaches (h : a.Finishes b) : a.Reaches b := by
  obtain ⟨id, s, s1, effect, x, hf, howns, hc, hs, rfl⟩ := h
  exact Reaches.unsettle hf (.finish x howns hc hs)

theorem Transacts.reaches (h : a.Transacts b) : a.Reaches b := by
  rcases h with (h | ⟨m, hm, h, -⟩) | h
  · exact h.reaches
  · exact hm.reaches.trans h.reaches
  · exact h

end View

variable {r r' : Run} {id : StepID} {s : Step} {c : RunScope} {policy : RetryPolicy}

theorem Run.Finished.congr (h : r.Finished) (hs : r'.steps = r.steps)
    (hc : r.status.closing = true → r'.status.closing = true) : r'.Finished := by
  unfold Run.Finished Run.AllTerminal Run.EachStep Run.hasOpenCase Run.anyStep at h ⊢
  rw [hs]
  exact fun hall => (h hall).imp hc fun h => h

variable [Platform]

/-! ### Approvals -/

/-- What an accepted or rejected decision does to the step and the history. -/
theorem commitDecisionTx_leads (hv : c.run.Sound) (hf : c.run.steps.find? id = some s)
    (hopen : c.run.status.closing = false) (hs : s.state = .waiting)
    (hp : s.hasPendingApproval = true) (node : String) (approvalID : ApprovalID)
    (req : DecideApprovalRequest) (now : Time) :
    Commits (commitDecisionTx id node approvalID req now) c fun _ c' =>
      c.view.Leads c'.view := by
  have hstatus : req.decision.status ≠ .pending := by cases req.decision <;> simp [Decision.status]
  -- The events and the advancement, from any path that justifies the success event.
  have hrest (c1 : RunScope) (hl : c.view.Leads c1.view) (x y : Payload)
      (hx : ∀ r, r.steps = c1.run.steps → Justified r c1.sys.trace y) :
      Commits (do
        appendRunEvent .approvalDecided x
        appendRunEvent .stepSucceeded y
        advanceAfterStepSuccessTx (decisionOutput req now)
        note .control
        modifyRun Run.recomputeAfterControl) c1 fun _ c' => c.view.Leads c'.view := by
    simp only [commits_bind, commits_appendRunEvent]
    intro hslot hslot'
    have hl2 := (hl.trans (View.Leads.event .approvalDecided x rfl (by simp) hslot)).trans
      (View.Leads.silent (.event .stepSucceeded y rfl hslot' fun _ => hx _ rfl))
    refine Commits.mono (advanceAfterStepSuccessTx_leads (hl2.sound hv) _) ?_
    rintro _ c2 ⟨hl3, -⟩
    simp only [commits_note, commits_modifyRun]
    have hl4 := hl2.trans hl3
    refine hl4.trans (View.Leads.single (v := c2.view) (.status .control rfl ?_))
    refine (hv.shaped.anyKind (hl4.sound hv).shaped hl4.workflow? (· == .approval)).trans ?_
    refine (Run.anyStep_eq_true _ _).mpr ⟨id, s, hf, ?_⟩
    have hasked : s.approval.isSome = true := by
      cases ha : s.approval <;> simp_all [Step.hasPendingApproval]
    simpa using (hv.steps.find hf).asked hasked
  simp only [commitDecisionTx, validateApprovalOutputTx, commits_bind, commits_updateStep,
    commits_getRun, commits_ite, commits_pure, commits_note,
    RunScope.run_withRun]
  rw [Run.updateStep_of_find hf rfl]
  have hf1 (s' : Step) : (c.run.setStep id s').steps.find? id = some s' :=
    Run.find?_setStep_self s' hf
  refine ⟨fun _ => ?_, fun _ => ?_⟩
  · rw [Run.updateStep_of_find (hf1 _) (by simp [Step.decideApproval, Step.updatePendingApproval, hs]),
      Run.setStep_setStep]
    have hl := View.Leads.step (v := c.view) hf
      (.approve req.decision.status req.comment req.actorID now (decisionOutput req now) hopen hs hp
        hstatus) (by simp)
    have := hrest (c.withRun _) hl
    simp only [commits_bind, commits_note] at this
    refine this _ _ fun r hr => ⟨id, rfl, .inl ⟨_, hr ▸ hf1 _, rfl⟩⟩
  · refine (failRunForStepTx_spec id _ none _).mono ?_
    rintro _ c1 ⟨t, closedAt, r', hends, hview⟩
    have hrun : c1.run = r' := congrArg View.run hview
    have hl : c.view.Leads c1.view := by
      rw [hview]
      have hm : c.run.Moves c.sys.trace _ r' := .close (.fail [⟨.approvalOutputRejected id,
        c.run.setStep id (s.decideApproval req.decision.status req.comment req.actorID now)⟩] _ none t
        closedAt (.rejected hf hopen hs hp req.decision.status req.comment req.actorID now hstatus)
        .refl) hends
      simpa using View.Leads.single (v := c.view) hm
    have hmiss : c1.run.updateStep id (fun s => s.state == .waiting)
        (fun s => s.succeed (decisionOutput req now)) = c1.run := by
      obtain ⟨s', hs', hstate⟩ := Run.find?_failFast (hf1 _) _ none t closedAt
      rw [hrun, Run.updateStep_of_not (hends.steps ▸ hs') (by simp [hstate])]
    rw [hmiss]
    have := hrest c1 hl
    simp only [commits_bind, commits_note] at this
    have htr : c1.sys.trace = _ := congrArg View.trace hview
    refine this _ _ fun r hr => ⟨id, rfl, .inr (.inl ⟨⟨.approvalOutputRejected id, c.run.setStep id
      (s.decideApproval req.decision.status req.comment req.actorID now)⟩, ?_, rfl⟩)⟩
    simp [htr]

theorem decideApprovalTx_leads (hv : c.run.Sound) (id : StepID) (approvalID : ApprovalID)
    (req : DecideApprovalRequest) :
    Commits (decideApprovalTx id approvalID req) c fun _ c' => c.view.Leads c'.view := by
  simp only [decideApprovalTx, commits_bind, commits_getRun, commits_require,
    commits_getStep]
  intro hterm hcan s hf
  have hopen : c.run.status.closing = false := by
    cases h : c.run.status <;> simp_all [RunStatus.closing, RunStatus.terminal]
  cases ha : s.approval with
  | none => simp
  | some a =>
    simp only [commits_bind]
    have hexp : Commits (approvalExpiredNowTx a.expiresAt) c fun _ c' => c'.view = c.view := by
      unfold approvalExpiredNowTx
      cases a.expiresAt <;> simp
    refine hexp.mono ?_
    intro expired c1 hview
    have hrun : c1.run = c.run := congrArg View.run hview
    simp only [commits_require, commits_ite, commits_bind, commits_clockTimestamp,
      commits_fail]
    rintro -
    refine ⟨fun hpend _ hw => ?_, fun _ => ⟨fun _ => trivial, fun _ _ => ?_⟩⟩
    · have hp : s.hasPendingApproval = true := by simp [Step.hasPendingApproval, ha, hpend]
      rw [← hview]
      exact commitDecisionTx_leads (c := c1.tick) (by simpa [hrun] using hv) (by simpa [hrun] using hf)
        (by simpa [hrun] using hopen) hw hp _ _ _ _
    · rw [hview]
      exact View.Leads.refl _

theorem expireApprovalTx_leads (c : RunScope) (id : StepID) (node : String)
    (approvalID : ApprovalID) :
    Commits (expireApprovalTx id node approvalID) c fun _ c' => c.view.Leads c'.view := by
  simp only [expireApprovalTx, commits_bind, commits_getStep]
  intro s hf
  simp only [commits_ite, commits_bind, commits_updateStep,
    commits_appendRunEvent, commits_pure, RunScope.run_withRun]
  refine ⟨fun hp hslot => ?_, fun _ => View.Leads.refl _⟩
  rw [Run.updateStep_of_find hf rfl] at hslot ⊢
  refine (failRunForStepTx_spec id _ none _).mono ?_
  rintro _ c1 ⟨t, closedAt, r', hends, hview⟩
  rw [hview]
  have hm : c.run.Moves c.sys.trace _ r' := .close (.fail [] _ none t closedAt
    (.expired hf hp) (.tail .refl _ _ rfl (by simp) hslot)) hends
  simpa using View.Leads.single (v := c.view) hm

/-! ### Cancellation -/

/-- A first cancellation ends a run without live attempts and closes the others. -/
theorem commitCancelTx_leads (hopen : c.run.status.closing = false) (actor : Option ActorID) :
    Commits (commitCancelTx actor) c fun _ c' => c.view.Leads c'.view := by
  simp only [commitCancelTx, commits_bind, commits_getRun, commits_clockTimestamp,
    commits_mapSteps, RunScope.run_withRun, Run.mapSteps_mapSteps]
  refine (closeOpenCasesTx_spec actor _ .cancel _).mono ?_
  rintro _ c1 ⟨closedAt, r1, hlogs, hview⟩
  have hrun : c1.run = r1 := congrArg View.run hview
  have htr : c1.sys.trace = c.sys.trace := congrArg View.trace hview
  rw [RunScope.run_withRun, Run.mapSteps_mapSteps] at hlogs
  simp only [commits_ite, commits_bind, commits_modifyRun, commits_appendRunEvent, hrun,
    RunScope.run_withRun]
  refine ⟨fun _ hslot => ?_, fun _ hslot => ?_⟩
  · have hl := hlogs.map (f := fun r => { r.setStatus .cancelled (some "CANCEL_REQUESTED") with
      revision := r.revision + 1
      terminationConfirmed := some true }) (fun _ _ _ => rfl) fun _ _ => rfl
    have hm (x : Payload) := View.Leads.silent (v := c.view)
      (.close (.cancel actor _ _ closedAt hopen) (hl.ends hslot x))
    simp only [RunScope.trace_view, ← htr] at hm
    exact hm _
  · have hl := hlogs.map (f := fun r => { r.setStatus .cancelling (some "CANCEL_REQUESTED") with
      revision := r.revision + 1 }) (fun _ _ _ => rfl) fun _ _ => rfl
    have hm := View.Leads.silent (v := c.view) (.requestCancel actor (Platform.clock c.tick.sys.ticks)
      (Platform.clock c.sys.ticks + millis cancelGraceMs) closedAt hopen)
    rw [RunScope.trace_view, ← htr] at hm
    exact (hm.trans (View.Leads.logs hl)).trans (View.Leads.event .runCancelling _ rfl (by simp) hslot)

omit [Platform] in
theorem RunStatus.closing_eq_false {s : RunStatus} (ht : s.terminal = false)
    (hc : s ≠ .cancelling) : s.closing = false := by
  cases s <;> simp_all [closing, terminal]

theorem cancelRunTx_leads (c : RunScope) (revision : Int) (actor : Option ActorID) :
    Commits (cancelRunTx revision actor) c fun _ c' => c.view.Leads c'.view := by
  simp only [cancelRunTx, commits_bind, commits_getRun, commits_require, commits_ite,
    commits_pure]
  intro hterm _
  exact ⟨fun _ => View.Leads.refl _, fun hc =>
    commitCancelTx_leads (RunStatus.closing_eq_false hterm hc) actor⟩

theorem settleCancellingRunTx_leads (c : RunScope) :
    Commits settleCancellingRunTx c fun _ c' => c.view.Leads c'.view := by
  simp only [settleCancellingRunTx, commits_bind, commits_getRun, commits_ite,
    commits_clockTimestamp, commits_pure, commits_modifyRun, commits_appendRunEvent]
  refine ⟨fun hc => ⟨fun _ => View.Leads.refl _, fun _ hslot => ?_⟩, fun _ => View.Leads.refl _⟩
  exact View.Leads.silent (v := c.view) (.close (.settleCancelled _ hc)
    (Run.Logs.refl.ends hslot _))

/-! ### Pause and resume -/

theorem runDeadlineExceededTx_view (c : RunScope) (deadline : Option Time) :
    Commits (runDeadlineExceededTx deadline) c fun _ c' => c'.view = c.view := by
  unfold runDeadlineExceededTx
  cases deadline <;> simp

omit [Platform] in
theorem commitPauseTx_leads (hopen : c.run.status.closing = false) :
    Commits commitPauseTx c fun _ c' => c.view.Leads c'.view := by
  simp only [commitPauseTx, commits_bind, commits_note, commits_getRun,
    commits_modifyRun, commits_ite, commits_appendRunEvent]
  have hl := View.Leads.single (v := c.view) (.status .pause rfl hopen)
  exact ⟨fun _ hslot => hl.trans (View.Leads.event _ _ rfl (by simp) hslot),
    fun _ hslot => hl.trans (View.Leads.event _ _ rfl (by simp) hslot)⟩

theorem pauseRunTx_leads (c : RunScope) (revision : Int) :
    Commits (pauseRunTx revision) c fun _ c' => c.view.Leads c'.view := by
  simp only [pauseRunTx, commits_bind, commits_getRun, commits_require]
  intro hterm hc _
  refine (runDeadlineExceededTx_view c _).mono ?_
  intro expired c1 hview
  have hrun : c1.run = c.run := congrArg View.run hview
  simp only [commits_ite, commits_pure]
  rw [← hview]
  refine fun _ => ⟨fun _ => View.Leads.refl _, fun _ => commitPauseTx_leads ?_⟩
  rw [hrun]
  exact RunStatus.closing_eq_false hterm hc

omit [Platform] in
theorem commitResumeTx_leads (hopen : c.run.status.closing = false) :
    Commits commitResumeTx c fun _ c' => c.view.Leads c'.view := by
  simp only [commitResumeTx, commits_bind, commits_note, commits_getRun,
    commits_modifyRun, commits_appendRunEvent]
  intro hslot
  exact (View.Leads.single (v := c.view) (.status .resume rfl hopen)).trans
    (View.Leads.event _ _ rfl (by simp) hslot)

omit [Platform] in
/-- A node state read from the rows is the state of the step. -/
theorem Run.allTerminal_of_stateOfNode (hr : r.Shaped) {wf : WorkflowManifest}
    (hwf : r.workflow? = some wf)
    (hall : ∀ n ∈ wf.nodes, ∃ x, r.stateOfNode? n.id = some x ∧ x.terminal = true) :
    r.AllTerminal := by
  rw [Run.AllTerminal, Run.eachStep_iff]
  intro id s hs
  obtain ⟨n, hn, hid⟩ := hr.node hwf hs
  obtain ⟨x, hx, hterm⟩ := hall n hn
  obtain ⟨e, he, rfl⟩ := Option.map_eq_some_iff.mp hx
  have hmem := (r.steps.find?_eq_some_iff e.1 e.2).mpr (List.mem_of_find?_eq_some he)
  have hnode : e.2.nodeID = n.id := by simpa using List.find?_some he
  obtain ⟨-, rfl⟩ := hr.unique hs hmem (by rw [hnode, hid])
  exact hterm

theorem resumeRunTx_leads (hv : c.run.Sound) (revision : Int) :
    Commits (resumeRunTx revision) c fun _ c' => c.view.Leads c'.view := by
  simp only [resumeRunTx, commits_bind, commits_getRun, commits_require]
  intro hterm hc _
  refine (runDeadlineExceededTx_view c _).mono ?_
  intro expired c1 hview _ _
  have hrun : c1.run = c.run := congrArg View.run hview
  have hopen : c1.run.status.closing = false := by
    rw [hrun]
    exact RunStatus.closing_eq_false hterm hc
  rw [← hview]
  cases hwf : c.run.workflow? with
  | none => exact commitResumeTx_leads hopen
  | some wf =>
    simp only [commits_bind]
    refine (settleRunTerminalTx_leads fun hall => ?_).mono ?_
    · rw [hrun]
      exact Run.allTerminal_of_stateOfNode hv.shaped hwf hall
    · rintro settled c2 ⟨hl, -, hsame, hended⟩
      simp only [commits_ite, commits_modifyRun]
      refine ⟨fun hs => hl.trans (View.Leads.status .clearPause (hended (.inl hs)) rfl rfl),
        fun hs => ?_⟩
      have hrun2 : c2.run = c1.run := hsame (by simpa using hs)
      exact (commitResumeTx_leads (hrun2 ▸ hopen)).mono fun _ _ hl2 => hl.trans hl2

theorem settleOverdueRunForControl_leads (c : RunScope) :
    Commits settleOverdueRunForControl c fun _ c' => c.view.Leads c'.view := by
  simp only [settleOverdueRunForControl, commits_bind, commits_getRun, commits_ite,
    commits_pure]
  refine ⟨fun _ => View.Leads.refl _, fun hopen => ?_⟩
  refine (runDeadlineExceededTx_view c _).mono ?_
  intro expired c1 hview
  have hrun : c1.run = c.run := congrArg View.run hview
  rw [← hview]
  refine ⟨fun _ => settleExpiredRunForControlTx_leads ?_, fun _ => View.Leads.refl _⟩
  simpa [hrun] using hopen

omit [Platform] in
theorem settlePauseAfterCompletionTx_leads (c : RunScope) :
    Commits settlePauseAfterCompletionTx c fun _ c' =>
      c.view.Leads c'.view ∧ c'.run.steps = c.run.steps := by
  simp only [settlePauseAfterCompletionTx, commits_bind, commits_getRun, commits_ite,
    commits_pure, commits_modifyRun, commits_appendRunEvent]
  refine ⟨fun _ => ⟨View.Leads.refl _, trivial⟩, fun hp => ⟨fun _ => ⟨View.Leads.refl _, trivial⟩,
    fun hl hslot => ⟨?_, rfl⟩⟩⟩
  exact (View.Leads.status (v := c.view) .pauseDrained
    ⟨not_not.mp (not_or.mp hp).2, by simpa using hl⟩ rfl rfl).trans
      (View.Leads.event _ _ rfl (by simp) hslot)

omit [Platform] in
theorem settlePauseIgnoringError_leads (c : RunScope) :
    Commits settlePauseIgnoringError c fun _ c' => c.view.Leads c'.view := by
  simp only [settlePauseIgnoringError, commits_bind, commits_getRun, commits_ite,
    commits_pure, commits_modifyRun, commits_appendRunEventIfRoom]
  refine ⟨fun _ => View.Leads.refl _, fun hp => ⟨fun _ => View.Leads.refl _, fun hl => ?_⟩⟩
  have hpaused := View.Leads.status (v := c.view) .pauseDrained
    ⟨not_not.mp (not_or.mp hp).2, by simpa using hl⟩ rfl rfl
  exact ⟨fun hslot => hpaused.trans (View.Leads.event _ _ rfl (by simp) hslot), fun _ => hpaused⟩

/-! ### Reconciliation -/

def ResolveAction.resolution : ResolveAction → CaseResolution
  | confirmSucceeded => .succeed
  | confirmNotExecutedRetry => .retry
  | failRun => .fail

/-- The open case of the step is resolved in the second run. -/
def Run.Resolves (id : StepID) (case : CaseID) (resolution : CaseResolution) (actor : ActorID)
    (r r' : Run) : Prop :=
  ∀ s (i : Nat) (x : Case), r.steps.find? id = some s → s.cases[i]? = some x → x.id = case →
    x.status = .open → ∃ s' x', r'.steps.find? id = some s' ∧ s'.cases[i]? = some x' ∧
      x'.id = case ∧ x'.status = .resolved ∧ x'.resolution = some resolution ∧
        x'.actorID = some actor

omit [Platform] in
theorem Run.Resolves.trans {case : CaseID} {resolution : CaseResolution} {actor : ActorID}
    {r1 : Run} (h : Run.Resolves id case resolution actor r r1) (hf : r1.Files r') :
    Run.Resolves id case resolution actor r r' := by
  intro s i x hs hx hid ho
  obtain ⟨s1, x1, hs1, hx1, hid1, hst, hres, hactor⟩ := h s i x hs hx hid ho
  obtain ⟨s', hs', hc⟩ := hf id s1 hs1
  obtain ⟨x', hx', hl⟩ := hc i x1 hx1
  obtain ⟨hst', hres', hactor', -⟩ := by simpa [Case.verdict] using hl.2 hst
  exact ⟨s', x', hs', hx', hl.1.trans hid1, hst'.trans hst, hres'.trans hres, hactor'.trans hactor⟩

omit [Platform] in
/-- A case of a step whose cases are as they were is resolved. -/
theorem Run.resolves_of_cases {case : CaseID} {resolution : CaseResolution} {actor : ActorID}
    {s1 : Step} {now : Time} (hf : r.steps.find? id = some s) (hc : s1.cases = s.cases)
    (hf' : r'.steps.find? id = some (s1.resolveCase case resolution actor now)) :
    Run.Resolves id case resolution actor r r' := by
  intro t i x ht hx hid ho
  obtain rfl := Option.mem_unique hf ht
  refine ⟨_, x.resolve resolution (some actor) now, hf', ?_, hid, rfl, rfl, rfl⟩
  simp [Step.resolveCase, hc, hx, hid, ho]

omit [Platform] in
theorem Step.Minted.arms {s' : Step} (h : s.Minted policy s') {kind : TimerKind}
    {timer : Option Timer} (ha : s.Arms kind timer) : s'.Arms kind timer := by
  obtain ⟨_, rfl⟩ := h.eq
  exact ha

omit [Platform] in
theorem Step.Minted.waitsFor {s' : Step} (h : s.Minted policy s') (reason : String) :
    s'.waitsFor reason = s.waitsFor reason := by
  obtain ⟨_, rfl⟩ := h.eq
  rfl

theorem markCaseResolvedTx_spec (hf : c.run.steps.find? id = some s) (case : CaseID)
    (resolution : CaseResolution) (actor : ActorID) :
    Commits (markCaseResolvedTx id case resolution actor) c fun _ c' => s.Holds case ∧
      ∃ now, c'.view = ⟨c.run.setStep id (s.resolveCase case resolution actor now), c.sys.trace⟩ := by
  simp only [markCaseResolvedTx, commits_bind, commits_clockTimestamp,
    commits_getStep, commits_require, commits_updateStep, commits_pure]
  intro s' hs' hany
  obtain rfl := Option.mem_unique hf hs'
  rw [RunScope.run_tick, Run.updateStep_of_find hf rfl]
  obtain ⟨x, hx, hopen⟩ := List.any_eq_true.mp hany
  exact ⟨⟨x, hx, by simpa using hopen⟩, _, rfl⟩

/-- A confirmed success: the event follows whether or not the step was held. -/
theorem resolveCaseSucceedTx_reaches (hf : c.run.steps.find? id = some s) (node : String)
    (case : CaseID) (result : Json) (actor : ActorID) :
    Commits (resolveCaseSucceedTx id node case result actor) c fun _ c' =>
      c.view.Reaches c'.view ∧ Run.Resolves id case .succeed actor c.run c'.run ∧
        (s.waitsFor "RECONCILIATION" = true → ∃ s', c'.run.steps.find? id = some s' ∧
          s'.state = .succeeded ∧ s'.output = some result) := by
  simp only [resolveCaseSucceedTx, commits_bind, commits_getRun, commits_require,
    commits_note, commits_updateStep, RunScope.run_visit]
  intro _ _
  have hupd : c.run.updateStep id (Step.waitsFor "RECONCILIATION") (fun s =>
      { s.succeed result with completionSource := some .reconciliation }) =
      c.run.setStep id (if s.waitsFor "RECONCILIATION" then
        { s.succeed result with completionSource := some .reconciliation } else s) := by
    by_cases hw : s.waitsFor "RECONCILIATION" = true
    · rw [Run.updateStep_of_find hf hw, if_pos hw]
    · rw [Run.updateStep_of_not hf (Bool.not_eq_true _ ▸ hw), if_neg hw, Run.setStep_self hf]
  rw [hupd]
  refine (markCaseResolvedTx_spec (Run.find?_setStep_self _ hf) case .succeed actor).mono ?_
  rintro _ c1 ⟨hholds, now, hview⟩
  rw [RunScope.run_withRun, Run.setStep_setStep] at hview
  have hrun : c1.run = _ := congrArg View.run hview
  have htr : c1.sys.trace = c.sys.trace ++ [⟨.confirmSucceeded id, c.run⟩] :=
    congrArg View.trace hview
  have hcase : s.Holds case := by
    split at hholds <;> exact hholds
  have hl : c.view.Reaches c1.view := by
    rw [hview]
    exact View.Reaches.unsettle (v := c.view) hf (.confirm case actor now result hcase)
  have hf1 : c1.run.steps.find? id = some ((if s.waitsFor "RECONCILIATION" then
      { s.succeed result with completionSource := some .reconciliation } else s).resolveCase case
        .succeed actor now) := by
    rw [hrun]
    exact Run.find?_setStep_self _ hf
  simp only [commits_appendRunEvent]
  intro hslot
  refine ⟨hl.trans (View.Leads.silent (.event _ _ rfl hslot fun _ => ⟨id, rfl, ?_⟩)).reaches,
    Run.resolves_of_cases hf (by split <;> rfl) hf1, fun hw => ⟨_, hf1, ?_⟩⟩
  swap
  · rw [if_pos hw]
    exact ⟨rfl, rfl⟩
  by_cases hw : s.waitsFor "RECONCILIATION" = true
  · refine .inl ⟨_, hf1, ?_⟩
    rw [if_pos hw]
    rfl
  · refine .inr (.inr ⟨⟨.confirmSucceeded id, c.run⟩, by simp [htr], rfl, fun s' hs' => ?_⟩)
    obtain rfl := Option.mem_unique hf hs'
    exact Bool.not_eq_true _ ▸ hw

omit [Platform] in
theorem resolveRetryAdmission_spec (hf : c.run.steps.find? id = some s) (policy : RetryPolicy)
    (now : Time) :
    Commits (resolveRetryAdmission id policy s now) c fun _ c' => c.Mints policy id s c' := by
  simp only [resolveRetryAdmission, commits_ite, commits_bind, commits_pure]
  refine ⟨fun hmode => (retryDeadline_spec hf hmode _).mono fun valid c' h => ?_,
    fun _ => .same hf rfl⟩
  cases valid with
  | none => simp
  | some validUntil => simpa using fun _ => h

theorem resolveCaseRetryTx_reaches (hf : c.run.steps.find? id = some s) (node : String)
    (case : CaseID) (hpolicy : policy = c.run.retryPolicy s) (actor : ActorID) (now : Time) :
    Commits (resolveCaseRetryTx id node case policy actor now) c fun _ c' =>
      c.view.Reaches c'.view ∧ Run.Resolves id case .retry actor c.run c'.run ∧
        c'.run.anyStep (Step.hasPending .retryBackoff) = true ∧ c'.run.Finished := by
  simp only [resolveCaseRetryTx, commits_bind, commits_getRun, commits_getRunID,
    commits_getStep, commits_require]
  intro s' hs' hw hbudget
  obtain rfl := Option.mem_unique hf hs'
  subst hpolicy
  refine (resolveRetryAdmission_spec hf _ now).mono ?_
  rintro _ c1 ⟨s1, hs1, hview1⟩
  have hrun1 : c1.run = c.run.setStep id s1 := congrArg View.run hview1
  have hf1 : c1.run.steps.find? id = some s1 := by
    rw [hrun1]
    exact Run.find?_setStep_self s1 hf
  simp only [commits_sampleJitter]
  generalize now + durationMs _ = dueAt
  intro _
  refine (newTimer_spec s .retryBackoff _ _ _ _ _).mono ?_
  rintro timer c2 ⟨harms, hview2⟩
  have hrun2 : c2.run = c1.run := congrArg View.run hview2
  have hview2 : c2.view = c1.view := hview2
  have hw1 : s1.waitsFor "RECONCILIATION" = true := by
    rw [hs1.waitsFor]
    exact hw
  simp only [commits_note, commits_updateStep, RunScope.run_visit, hrun2]
  rw [Run.updateStep_of_find hf1 hw1]
  refine (markCaseResolvedTx_spec (Run.find?_setStep_self _ hf1) case .retry actor).mono ?_
  rintro _ c3 ⟨hholds, t, hview3⟩
  rw [RunScope.run_withRun, Run.setStep_setStep] at hview3
  have hrun3 : c3.run = c1.run.setStep id
      ((s1.parkRetry timer dueAt).resolveCase case .retry actor t) := congrArg View.run hview3
  have hl : c.view.Reaches c3.view := by
    have hv : c2.view = ⟨c.run.setStep id s1, c.sys.trace⟩ := hview2.trans hview1
    refine (Step.Minted.leads (v := c.view) hs1 hf).reaches.trans ?_
    rw [RunScope.run_view, RunScope.trace_view, ← hv, hview3, ← hrun2]
    have hbudget1 : hasRetryBudget s1.nextAttemptNumber (c2.run.retryPolicy s1).maxAttempts =
        true := by
      rw [hrun2, hrun1]
      obtain ⟨_, rfl⟩ := hs1.eq
      exact hbudget
    exact View.Reaches.unsettle (v := c2.view) (by rw [RunScope.run_view, hrun2]; exact hf1)
      (.retry case actor t timer dueAt hw1 hholds (hs1.arms harms) hbudget1)
  simp only [commits_appendRunEvent]
  intro hslot hslot'
  have hf3 := Run.find?_setStep_self ((s1.parkRetry timer dueAt).resolveCase case .retry actor t) hf1
  rw [← hrun3] at hf3
  refine ⟨hl.trans (View.Leads.logs (v := c3.view) (.tail (.tail .refl _ _ rfl (by simp) hslot) _ _ rfl
    (by simp) hslot')).reaches, ?_, ?_, fun hall => ?_⟩
  · obtain ⟨_, rfl⟩ := hs1.eq
    exact Run.resolves_of_cases hf (by exact rfl) hf3
  · exact (Run.anyStep_eq_true _ _).mpr ⟨id, _, hf3, (hs1.arms harms).pending⟩
  · exact absurd (Run.EachStep.find hall hf3)
      (by simp [Step.parkRetry, Step.resolveCase, StepState.terminal])

theorem resolveCaseFailTx_leads (hf : c.run.steps.find? id = some s) (case : CaseID)
    (reason : String) (actor : ActorID) :
    Commits (resolveCaseFailTx id case reason actor) c fun _ c' =>
      c.view.Leads c'.view ∧ Run.Resolves id case .fail actor c.run c'.run ∧
        c'.run.status = .failed := by
  simp only [resolveCaseFailTx, commits_bind]
  refine (markCaseResolvedTx_spec hf case .fail actor).mono ?_
  rintro _ c1 ⟨hholds, now, hview1⟩
  have hrun1 : c1.run = _ := congrArg View.run hview1
  have htr1 : c1.sys.trace = c.sys.trace := congrArg View.trace hview1
  have hmark : Run.Resolves id case .fail actor c.run c1.run :=
    Run.resolves_of_cases hf rfl (by rw [hrun1]; exact Run.find?_setStep_self _ hf)
  have hkeep : Keeps RunScope.Files (closeOpenCasesTx (some actor) "RECONCILIATION_FAILED" .fail) :=
    by simp
  refine ((closeOpenCasesTx_spec (some actor) _ .fail c1).and (hkeep c1)).mono ?_
  rintro _ c2 ⟨⟨closedAt, r2, hlogs, hview2⟩, hfiles2⟩
  have hrun2 : c2.run = r2 := congrArg View.run hview2
  have htr2 : c2.sys.trace = c.sys.trace := (congrArg View.trace hview2).trans htr1
  have hkeep : Keeps RunScope.Files (failRunForStepTx id "RECONCILIATION_FAILED" (some actor)) :=
    by simp
  refine ((failRunForStepTx_spec id _ (some actor) c2).and (hkeep c2)).mono ?_
  rintro _ c3 ⟨⟨t, closedAt', r', hends, hview3⟩, hfiles3⟩
  rw [hrun2] at hends hview3
  rw [hrun1] at hlogs
  have hl : c.view.Leads c3.view := by
    rw [hview3, htr2]
    exact View.Leads.single (v := c.view)
      (.close (.fail [] _ (some actor) t closedAt' (.resolved hf case hholds actor now closedAt) hlogs)
        hends)
  have hrun3 : c3.run = r' := congrArg View.run hview3
  simp only [commits_appendRunEvent]
  intro hslot
  refine ⟨hl.trans (View.Leads.event _ _ rfl (by simp) hslot), ?_, ?_⟩
  · exact ((hmark.trans hfiles2).trans hfiles3).trans (.of_steps rfl)
  · rw [RunScope.run_withRun, Run.status_pushEvent, hrun3, hends.status]
    rfl

omit [Platform] in
theorem releaseHoldTx_leads (hcase : c.run.hasOpenCase = false) (action : ResolveAction)
    (hp : action = .confirmNotExecutedRetry →
      c.run.anyStep (Step.hasPending .retryBackoff) = true) :
    Commits (releaseHoldTx action) c fun _ c' =>
      c.view.Leads c'.view ∧ c'.run.Held ∧ c'.run.steps = c.run.steps := by
  simp only [releaseHoldTx, commits_bind, commits_getRun, commits_ite,
    commits_modifyRun, commits_appendRunEvent, commits_pure]
  refine ⟨fun hw hslot => ⟨?_, ?_, (StatusMove.leaveReconciliation _).steps_apply _⟩,
    fun hw => ⟨View.Leads.refl _, fun hs hr => absurd ⟨hs, hr⟩ hw, trivial⟩⟩
  · exact (View.Leads.status (v := c.view) (.leaveReconciliation _)
      ⟨hw.1, hw.2, hcase, fun h => hp (by simpa using h)⟩ rfl rfl).trans
        (View.Leads.event _ _ rfl (by simp) hslot)
  · intro hs hr
    cases action <;> simp_all [Run.leaveReconciliation, reasonText]

/-- What the three actions on a case leave behind. -/
structure ResolveAction.Leaves (action : ResolveAction) (id : StepID) (case : CaseID)
    (result : Json) (actor : ActorID) (s : Step) (r r' : Run) : Prop where
  case : Run.Resolves id case action.resolution actor r r'
  succeeded : action = .confirmSucceeded → s.waitsFor "RECONCILIATION" = true →
    ∃ s', r'.steps.find? id = some s' ∧ s'.state = .succeeded ∧ s'.output = some result
  pending : action = .confirmNotExecutedRetry →
    r'.anyStep (Step.hasPending .retryBackoff) = true
  failed : action = .failRun → r'.status = .failed
  finished : action ≠ .confirmSucceeded → r'.Finished

theorem resolveCaseTx_reaches (hf : c.run.steps.find? id = some s) (node : String) (case : CaseID)
    (hpolicy : policy = c.run.retryPolicy s) (req : ResolveReconciliationRequest) (now : Time) :
    Commits (resolveCaseTx id node case policy req now) c fun _ c' => c.view.Reaches c'.view ∧
      req.action.Leaves id case (req.result.getD .null) req.actorID s c.run c'.run := by
  unfold resolveCaseTx
  cases req.action with
  | confirmSucceeded =>
    refine (resolveCaseSucceedTx_reaches hf node case _ req.actorID).mono ?_
    rintro _ c' ⟨h, hcase, hs⟩
    exact ⟨h, hcase, fun _ => hs, (by simp), (by simp), (by simp)⟩
  | confirmNotExecutedRetry =>
    refine (resolveCaseRetryTx_reaches hf node case hpolicy req.actorID now).mono ?_
    rintro _ c' ⟨h, hcase, hp, hfin⟩
    exact ⟨h, hcase, (by simp), fun _ => hp, (by simp), fun _ => hfin⟩
  | failRun =>
    refine (resolveCaseFailTx_leads hf case req.reason req.actorID).mono ?_
    rintro _ c' ⟨h, hcase, hst⟩
    exact ⟨h.reaches, hcase, (by simp), (by simp), fun _ => hst, fun _ _ => .inl (by rw [hst]; rfl)⟩

/-- After the last case the run is released. -/
theorem afterLastCaseTx_leads (hv : c.run.Sound) (req : ResolveReconciliationRequest)
    (hp : req.action = .confirmNotExecutedRetry →
      c.run.anyStep (Step.hasPending .retryBackoff) = true)
    (hfin : req.action ≠ .confirmSucceeded → c.run.Finished) :
    Commits (afterLastCaseTx req) c fun _ c' =>
      c.view.Leads c'.view ∧ c'.run.Held ∧ c'.run.Finished ∧ c.run.Spares c'.run := by
  simp only [afterLastCaseTx, commits_bind, commits_getRun, commits_ite, commits_pure]
  refine ⟨fun hcase => ⟨View.Leads.refl _, fun _ _ => hcase, fun _ => .inr hcase, .of_steps rfl⟩,
    fun hcase => ⟨fun hact => ?_, fun hact => ?_⟩⟩
  · have hnone : Keeps RunScope.OpensNoCase (advanceAfterStepSuccessTx (req.result.getD .null)) :=
      by simp
    refine ((advanceAfterStepSuccessTx_leads hv _).and (hnone c)).mono ?_
    rintro _ c1 ⟨⟨hl, hfin1, hspares⟩, hcase1⟩
    have hcase1 : c1.run.hasOpenCase = false := by
      by_contra ho
      exact hcase (hcase1 (by simpa using ho))
    refine (releaseHoldTx_leads hcase1 _ ?_).mono fun _ _ h =>
      ⟨hl.trans h.1, h.2.1, hfin1.congr h.2.2 h.1.closing, hspares.trans (.of_steps h.2.2)⟩
    rw [hact]
    simp
  · exact (releaseHoldTx_leads (by simpa using hcase) _ hp).mono fun _ _ h =>
      ⟨h.1, h.2.1, (hfin hact).congr h.2.2 h.1.closing, .of_steps h.2.2⟩

theorem resolveReconciliationCaseTx_transacts (hv : c.run.Sound) (id : StepID) (case : CaseID)
    (req : ResolveReconciliationRequest) :
    Commits (resolveReconciliationCaseTx id case req) c fun _ c' =>
      c.view.Transacts c'.view := by
  simp only [resolveReconciliationCaseTx, commits_bind, commits_getRun,
    commits_getStep]
  intro s hf
  cases s.cases.find? fun x => x.id == case with
  | none => simp
  | some x =>
    simp only [commits_bind, commits_require, commits_clockTimestamp]
    intro _ _ _ _ _
    refine (resolveCaseTx_reaches (c := c.tick) hf s.nodeID case (by exact rfl) req _).mono ?_
    rintro _ c1 ⟨hl, h⟩
    exact (afterLastCaseTx_leads (hl.sound hv) req h.pending h.finished).mono
      fun _ _ h => .resolved (hl.trans h.1.reaches) h.2.1 h.2.2.1

omit [Platform] in
theorem settleHoldAfterCompletionTx_leads (c : RunScope) :
    Commits settleHoldAfterCompletionTx c fun _ c' =>
      c.view.Leads c'.view ∧ c'.run.steps = c.run.steps := by
  simp only [settleHoldAfterCompletionTx, commits_bind, commits_getRun, commits_ite,
    commits_pure, commits_modifyRun, commits_appendRunEvent]
  refine ⟨fun _ => ⟨View.Leads.refl _, trivial⟩, fun hs => ⟨fun _ => ⟨View.Leads.refl _, trivial⟩,
    fun _ => ⟨fun _ => ⟨View.Leads.refl _, trivial⟩, fun hcase hslot => ⟨?_, rfl⟩⟩⟩⟩
  have hu : StatusMove.holdDrained.Admissible c.run := by
    simp only [Bool.or_eq_true, Bool.not_eq_true', not_or, Bool.not_eq_false, Bool.not_eq_true]
      at hs hcase
    exact ⟨hs, hcase.1, hcase.2⟩
  exact (View.Leads.status (v := c.view) .holdDrained hu rfl rfl).trans
    (View.Leads.event _ _ rfl (by simp) hslot)

end Deadbolt.Execution

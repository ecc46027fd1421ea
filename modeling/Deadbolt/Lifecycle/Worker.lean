import Deadbolt.Lifecycle.Control

/-!
# Worker transactions as moves

Claims, starts, heartbeats, completions, acknowledgements and fencing are paths of the
automaton from every sound run. A claim is a path for a candidate that is a task of the run,
which is what the snapshot transaction selects.
-/

namespace Deadbolt.Execution

open Base Contracts Artifacts Tx RunTx

/-! ### Attempts of a run -/

theorem Run.attempt?_eq_some {r : Run} {id : AttemptID} {row : StepID × Step × Attempt}
    (h : r.attempt? id = some row) :
    r.steps.find? row.1 = some row.2.1 ∧ row.2.2 ∈ row.2.1.attempts ∧ row.2.2.id = id := by
  obtain ⟨e, he, hrow⟩ := List.exists_of_findSome?_eq_some h
  obtain ⟨a, ha, rfl⟩ := Option.map_eq_some_iff.mp hrow
  exact ⟨(r.steps.find?_eq_some_iff e.1 e.2).mpr he, List.mem_of_find?_eq_some ha,
    by simpa using List.find?_some ha⟩

variable [Platform]

/-! ### Claim -/

omit [Platform] in
theorem failForArtifacts_leads (c : RunScope) (id : StepID) (node : String) (refs : List String) :
    Commits (failForArtifacts id node refs) c fun _ c' => c.view.Leads c'.view := by
  simp only [failForArtifacts, commits_bind, commits_getStep]
  intro s hf
  simp only [commits_ite, commits_bind, commits_note, commits_updateStep,
    commits_modifyRun, commits_mapSteps, commits_appendRunEvent, commits_pure]
  refine ⟨fun hs hslot => ?_, fun _ => View.Leads.refl _⟩
  refine View.Leads.single (v := c.view) (.close (.artifactFailure hf hs) ?_)
  have he : ((c.run.updateStep id (fun s => s.state == .ready) fun s =>
      s.failWith "ARTIFACT_UNAVAILABLE").setStatus .failed (some "ARTIFACT_UNAVAILABLE")).mapSteps
        (fun _ s => s.cancelIdle) =
      (c.run.mapSteps fun k s =>
        (if k = id ∧ s.state = .ready then s.failWith "ARTIFACT_UNAVAILABLE" else s).cancelIdle
          ).setStatus .failed (some "ARTIFACT_UNAVAILABLE") := by
    simp [Run.updateStep, Run.mapSteps_setStatus]
  simp only [RunScope.run_withRun, RunScope.run_visit, he] at hslot ⊢
  exact Run.Logs.refl.ends hslot _

/-- What a claim knows of its candidate before it writes: the timeout of the task, and the
deadline of a task with a declared window. -/
def RunScope.Admits (c : RunScope) (id : StepID) (timeoutMs : Int) : Prop :=
  ∀ s, c.run.steps.find? id = some s →
    timeoutMs = assignmentTimeoutMs c.run.deployment.manifest c.run.workflowName s.nodeID ∧
      ((c.run.retryPolicy s).window?.isSome = true → s.idempotencyValidUntil.isSome = true)

variable {c : RunScope} {id : StepID} {s : Step} {a : Attempt}

theorem grantAttempt_leads (hv : c.run.Sound) (session : WorkerSession) {timeoutMs : Int}
    (ha : c.Admits id timeoutMs) :
    Commits (grantAttempt session id timeoutMs) c fun _ c' => c.view.Leads c'.view := by
  simp only [grantAttempt, commits_bind, commits_getRun, commits_ite, commits_pure,
    commits_getStep, commits_note, commits_require, commits_newID,
    commits_clockTimestamp, commits_updateStep, commits_appendRunEvent,
    commits_modifyRun]
  refine ⟨fun _ => View.Leads.refl _, fun hpause s hf => ⟨fun hs _ hl hfresh hslot => ?_,
    fun _ => View.Leads.refl _⟩⟩
  simp only [RunScope.run_withRun, RunScope.run_tick, RunScope.run_draw, RunScope.run_visit] at hslot ⊢
  rw [Run.updateStep_of_find hf (by simp [hs])] at hslot ⊢
  have hopen : c.run.status.closing = false := by
    cases hc : c.run.status.closing with
    | false => rfl
    | true => exact absurd hs ((hv.quiet hc).find hf).1
  obtain ⟨htimeout, hwindow⟩ := ha s hf
  refine (View.Leads.visited (v := c.view) hf (.grant _ _ _ hopen (by simpa using hpause) hs
    (by simpa using hl) ⟨rfl, by simpa using hfresh, rfl, rfl, rfl, rfl, rfl, htimeout, rfl, rfl, rfl⟩
    hwindow) ?_).trans (View.Leads.event_apply .leaveQuota _ rfl (by simp) hslot _)
  rintro _ ⟨⟩
  exact hopen

/-- A held candidate, whatever its state has become since the snapshot. -/
theorem holdCandidate_leads {pc : PendingClaim} (hf : c.run.steps.find? pc.stepID = some s)
    (hk : s.kind = .task) (session : WorkerSession) (timeoutMs : Int) (reason : String)
    (extra : Payload) :
    Commits (holdCandidate pc session timeoutMs reason extra) c fun _ c' =>
      c.view.Leads c'.view := by
  simp only [holdCandidate, commits_bind, commits_note]
  refine (routeStepToReconciliationTx_spec (c := c.visit _) hf _ _ _ _).mono ?_
  rintro _ c' ⟨case, x, hcase, hslot, hview⟩
  rw [hview]
  refine (View.Leads.visited (v := c.view) hf (.claimHold case hcase hk) ?_).trans
    (View.Leads.event .stepWaiting x rfl (by simp) hslot)
  rintro _ ⟨⟩
  trivial

theorem claimAdmitted_leads (hv : c.run.Sound) (session : WorkerSession) (pc : PendingClaim)
    (timeoutMs : Int) (ha : c.Admits pc.stepID timeoutMs) (ready : List String) :
    Commits (claimAdmitted session pc ready timeoutMs) c fun _ c' => c.view.Leads c'.view := by
  simp only [claimAdmitted, commits_bind, commits_getRun]
  cases assignmentInput c.run pc.nodeID with
  | error err => simp
  | ok input =>
    simp only [commits_ite, commits_pure]
    exact ⟨fun _ => View.Leads.refl _, fun _ => ⟨fun _ => grantAttempt_leads hv _ ha, fun _ =>
      ⟨fun _ => failForArtifacts_leads _ _ _ _, fun _ => grantAttempt_leads hv _ ha⟩⟩⟩

theorem claimCandidateTx_leads (hv : c.run.Sound) (session : WorkerSession) (now : Time)
    (ready : List String) {pc : PendingClaim} (hf : c.run.steps.find? pc.stepID = some s)
    (hk : s.kind = .task) (hn : s.nodeID = pc.nodeID) :
    Commits (claimCandidateTx session now ready pc) c fun _ c' => c.view.Leads c'.view := by
  simp only [claimCandidateTx, commits_ite, commits_pure, commits_bind,
    commits_getRun]
  refine ⟨fun _ => View.Leads.refl _, fun _ => ?_⟩
  refine (claimIdempotencyAdmissionTx_spec hf (by rw [Run.retryPolicy, hn])).mono ?_
  rintro admission c1 ⟨hl, v, hf1, hvalid⟩
  have hpinned := hl.reaches.pinned
  simp only [Run.pinned, Prod.mk.injEq, RunScope.run_view] at hpinned
  have hhold (timeoutMs : Int) (reason : String) (extra : Payload) :=
    (holdCandidate_leads hf1 hk session timeoutMs reason extra).mono fun _ _ hl' => hl.trans hl'
  have hclaim (hadmitted : admission.2 = "") :=
    (claimAdmitted_leads (hl.sound hv) session pc
      (assignmentTimeoutMs c.run.deployment.manifest c.run.workflowName pc.nodeID)
      (fun s' hs' => by
        obtain rfl := Option.mem_unique hf1 hs'
        rw [Run.retryPolicy, hpinned.2.2.1, hpinned.2.2.2.1, hn]
        exact ⟨rfl, fun hw => hvalid hadmitted hw⟩) ready).mono
      fun _ _ hl' => hl.trans hl'
  refine ⟨fun _ => hhold _ _ _, fun hadmitted => ?_⟩
  rw [not_not] at hadmitted
  cases admission.1 with
  | none => exact hclaim hadmitted
  | some validUntil =>
    simp only [commits_ite]
    exact ⟨fun _ => hhold _ _ _, fun _ => hclaim hadmitted⟩

/-! ### Start and heartbeat -/

theorem startTx_leads (c : RunScope) (session : WorkerSession) (attempt : AttemptID)
    (epoch : Int) :
    Commits (startTx session attempt epoch) c fun _ c' => c.view.Leads c'.view := by
  simp only [startTx, commits_bind, commits_getRun]
  cases ha : c.run.attempt? attempt with
  | none => simp
  | some row =>
    obtain ⟨hf, hmem, hid⟩ := Run.attempt?_eq_some ha
    simp only
    cases hl : row.2.1.leaseOf? attempt with
    | none => simp
    | some lease =>
      simp only [commits_bind, commits_clockTimestamp, commits_require, commits_ite]
      rintro -
      refine ⟨fun _ => ?_, fun _ hclaimed _ => ?_⟩
      · cases row.2.2.deadlineAt with
        | none => simp
        | some deadline => simpa using fun _ => View.Leads.refl c.view
      · simp only [commits_updateStep, commits_modifyRun, commits_appendRunEvent,
          commits_pure, RunScope.run_withRun, RunScope.run_tick]
        rw [Run.updateStep_of_find hf rfl]
        intro hslot
        refine (View.Leads.step (v := c.view) hf (.start attempt _ _ ⟨_, hmem, hid, hclaimed⟩
          (by simp [hl])) ?_).trans (View.Leads.event .taskStarted _ rfl (by simp) hslot)
        rintro _ ⟨⟩
        trivial

theorem heartbeatTx_leads (c : RunScope) (session : WorkerSession) (attempt : AttemptID)
    (epoch : Int) :
    Commits (heartbeatTx session attempt epoch) c fun _ c' => c.view.Leads c'.view := by
  simp only [heartbeatTx, commits_bind, commits_getRun]
  cases ha : c.run.attempt? attempt with
  | none => simpa using View.Leads.refl c.view
  | some row =>
    obtain ⟨hf, -, -⟩ := Run.attempt?_eq_some ha
    simp only
    cases row.2.1.leaseOf? attempt with
    | none => simpa using View.Leads.refl c.view
    | some lease =>
      simp only [commits_bind, commits_clockTimestamp, commits_ite, commits_pure]
      refine ⟨fun _ => View.Leads.refl c.view, fun _ => ?_⟩
      cases row.2.2.deadlineAt with
      | none => simpa using View.Leads.refl c.view
      | some deadline =>
        simp only [commits_ite, commits_pure]
        refine ⟨fun _ => View.Leads.refl c.view, fun _ => ⟨fun _ => View.Leads.refl c.view, fun _ => ?_⟩⟩
        cases row.2.2.stops.find? fun sc => sc.ackedAt.isNone with
        | some sc => simpa using View.Leads.refl c.view
        | none =>
          simp only [commits_bind, commits_clockTimestamp, commits_updateStep,
            commits_pure, RunScope.run_tick]
          rw [Run.updateStep_of_find hf rfl]
          exact View.Leads.step (v := c.view) hf (.renew attempt _) (by simp)

/-! ### Complete -/

omit [Platform] in
/-- The committed error of a failed completion says what the retry policy is told. -/
theorem leavesEffectUnknown_completion (res : CompletionResult) (id : AttemptID) (number : Int) :
    leavesEffectUnknown (some ((res.error.map TaskError.json).getD .null)) =
      isUnknownEffect (res.failedAttempt id number).effectStatus := by
  cases h : res.error with
  | none => simp [CompletionResult.failedAttempt, h, leavesEffectUnknown]; rfl
  | some e =>
    obtain ⟨code, message, details, retryable, effectStatus, retryAfter⟩ := e
    by_cases he : effectStatus = "" <;> cases details <;>
      by_cases hr : retryAfter = "" <;>
        simp [CompletionResult.failedAttempt, h, leavesEffectUnknown, TaskError.json, he, hr,
          List.lookup] <;> rfl

omit [Platform] in
/-- A failed or timed out completion is judged by the effect it commits. -/
theorem Step.says_complete (s : Step) (a : AttemptID) (res : CompletionResult)
    (hout : res.outcome = .failed ∨ res.outcome = .timedOut) (digest : String) (now : Time)
    (state : StepState) (output : Json) (number : Int) :
    (s.complete a res.outcome.attemptStatus digest ((res.error.map TaskError.json).getD .null) now
      state output).Says a res.outcome.attemptStatus (res.failedAttempt a number).effectStatus := by
  intro y hy hid hamb
  rcases hout with hout | hout
  · obtain ⟨x, -, rfl⟩ := List.mem_map.mp hy
    have hx : x.id = a := by
      split at hid <;> exact hid
    simp only [hx, true_and, if_true, Attempt.ambiguous, hout, Outcome.attemptStatus,
      Bool.and_eq_true] at hamb
    rw [leavesEffectUnknown_completion res a number] at hamb
    exact .inl hamb.2
  · exact .inr (by rw [hout]; rfl)

/-- What follows a committed outcome, from the run in which the attempt is still open. -/
theorem afterOutcomeTx_completes {v : View} (hv : v.run.Sound) {digest : String} {now : Time}
    {output : Json} {res : CompletionResult} (hf : v.run.steps.find? id = some s)
    (howns : s.Owns a.id)
    (hlogs : (v.run.setStep id (s.complete a.id res.outcome.attemptStatus digest
      ((res.error.map TaskError.json).getD .null) now res.outcome.stepState output)).Logs c.run)
    (htr : c.sys.trace = v.trace ++ [⟨.closeAttempt id res.outcome.attemptStatus
      (res.failedAttempt a.id a.number).effectStatus, v.run⟩]) :
    Commits (afterOutcomeTx id s.nodeID a res) c fun _ c' => v.Completes c'.view := by
  simp only [afterOutcomeTx, commits_bind, commits_getRun]
  have hpolicy : c.run.deployment.manifest.taskRetryPolicy c.run.workflowName s.nodeID =
      v.run.retryPolicy s := by
    obtain ⟨_, _, _, he⟩ := hlogs.eq
    rw [he]
    rfl
  have hretry (hout : res.outcome = .failed ∨ res.outcome = .timedOut) (deadline : Option Time) :=
    (retryOrFailTx_leads (c := c) (res.failedAttempt a.id a.number) hf howns hpolicy
      (.complete
        (by rcases hout with h | h <;> simp [h, Outcome.attemptStatus, AttemptStatus.live])
        (by rcases hout with h | h <;> simp [h, Outcome.stepState]))
      (by rcases hout with h | h <;> simp [h, Outcome.attemptStatus])
      (s.says_complete a.id res hout _ _ _ _ _)
      (by rcases hout with h | h <;> simp [h, Step.complete, Outcome.stepState]) hlogs htr s.nodeID
      deadline).mono fun _ _ h => (Or.inl h.1 : v.Completes _)
  cases hout : res.outcome with
  | succeeded =>
    simp only
    rw [hout] at hlogs htr
    have hm : v.Finishes ⟨v.run.setStep id (s.complete a.id .succeeded digest
        ((res.error.map TaskError.json).getD .null) now .succeeded output), v.trace ++
          [⟨.closeAttempt id .succeeded (res.failedAttempt a.id a.number).effectStatus, v.run⟩]⟩ :=
      ⟨id, s, _, _, a.id, hf, howns, .complete rfl (.inl rfl), rfl, rfl⟩
    have hview : c.view = ⟨c.run, v.trace ++
        [⟨.closeAttempt id .succeeded (res.failedAttempt a.id a.number).effectStatus, v.run⟩]⟩ := by
      rw [RunScope.view, htr]
      rfl
    have hl := View.Leads.logs (v := ⟨_, v.trace ++
      [⟨.closeAttempt id .succeeded (res.failedAttempt a.id a.number).effectStatus, v.run⟩]⟩) hlogs
    rw [← hview] at hl
    exact (advanceAfterStepSuccessTx_leads (hl.sound (hm.reaches.sound hv)) _).mono
      fun _ _ h => .inr ⟨_, hm, hl.trans h.1, h.2.1⟩
  | cancelled =>
    simp only
    rw [hout] at hlogs htr
    refine (failRunForStepTx_spec id _ none c).mono ?_
    rintro _ c' ⟨t, closedAt, r', hends, hview'⟩
    rw [hview', htr, List.append_assoc]
    exact .inl (View.Leads.single (.close (.fail _ _ none t closedAt (.closed hf a.id howns
      (.complete rfl (.inr (.inr rfl))) (by simp [Step.complete])) hlogs) hends))
  | failed => exact hretry (.inl hout) _
  | timedOut => exact hretry (.inr hout) _

omit [Platform] in
theorem View.Completes.trans_leads {a b d : View} (h : a.Completes b) (hl : b.Leads d)
    (hs : d.run.steps = b.run.steps) : a.Completes d := by
  rcases h with h | ⟨m, hm, h, hf⟩
  · exact .inl (h.trans hl)
  · exact .inr ⟨m, hm, h.trans hl, hf.congr hs hl.closing⟩

theorem commitCompletionTx_transacts (hv : c.run.Sound) {req : CompleteRequest}
    (hf : c.run.steps.find? id = some s) (howns : s.Owns a.id) (hid : a.id = req.attemptID)
    (res : CompletionResult) :
    Commits (commitCompletionTx id s.nodeID a req res) c fun _ c' =>
      c.view.Transacts c'.view := by
  simp only [commitCompletionTx, commits_bind, commits_note, commits_clockTimestamp,
    commits_updateStep, commits_appendRunEvent, RunScope.run_withRun, RunScope.run_tick,
    RunScope.run_visit]
  rw [Run.updateStep_of_find hf rfl, ← hid]
  intro hslot
  refine Commits.mono (afterOutcomeTx_completes (v := c.view) hv hf howns
    (by exact .tail .refl .taskCompleted _ rfl (by simp) hslot) (by rfl)) ?_
  intro _ c1 hl1
  refine (settleHoldAfterCompletionTx_leads c1).mono ?_
  rintro _ c2 ⟨hl2, hs2⟩
  refine (settlePauseAfterCompletionTx_leads c2).mono ?_
  rintro _ c3 ⟨hl3, hs3⟩
  exact .completed (hl1.trans_leads (hl2.trans hl3) (hs3.trans hs2))

theorem completeTx_transacts (hv : c.run.Sound) (session : WorkerSession) (req : CompleteRequest)
    (lookup : ArtifactLookup) :
    Commits (completeTx session req lookup) c fun _ c' => c.view.Transacts c'.view := by
  simp only [completeTx, commits_bind, commits_getRun]
  cases ha : c.run.attempt? req.attemptID with
  | none => simp
  | some row =>
    obtain ⟨hf, hmem, hid⟩ := Run.attempt?_eq_some ha
    simp only [commits_bind, commits_require, commits_ite, commits_fail]
    rintro -
    refine ⟨fun _ => ⟨fun _ _ => (View.Leads.refl _).transacts, fun _ => trivial⟩, fun hlive => ?_⟩
    split
    · simp only [commits_bind, commits_require, commits_clockTimestamp]
      intro _ _
      cases completionResult req lookup _ with
      | error err => simp
      | ok res =>
        refine commitCompletionTx_transacts (c := c.tick) hv hf ⟨_, hmem, rfl, ?_⟩ hid res
        simpa [terminalAttempt] using hlive
    · simp

/-! ### Stop acknowledgement and fencing -/

theorem stopAckTx_leads (c : RunScope) (session : WorkerSession) (attempt : AttemptID)
    (epoch : Int) (stopped : Bool) :
    Commits (stopAckTx session attempt epoch stopped) c fun _ c' => c.view.Leads c'.view := by
  simp only [stopAckTx, commits_bind, commits_getRun]
  cases ha : c.run.attempt? attempt with
  | none => simpa using View.Leads.refl c.view
  | some row =>
    obtain ⟨hf, -, -⟩ := Run.attempt?_eq_some ha
    simp only [commits_bind, commits_require, commits_clockTimestamp,
      commits_updateStep, commits_pure, RunScope.run_tick]
    rw [Run.updateStep_of_find hf rfl]
    intro _
    refine (settleCancellingRunTx_leads _).mono fun _ _ hl => ?_
    exact (View.Leads.step (v := c.view) hf (.acknowledge attempt _ stopped) (by simp)).trans hl

theorem fenceAttemptTx_leads (hf : c.run.steps.find? id = some s) (ha : a ∈ s.attempts)
    (hlive : a.status.live = true) (reason : String) :
    Commits (fenceAttemptTx id a.id a.epoch reason) c fun _ c' =>
      c.view.Leads c'.view ∧ ∀ k, k ≠ id → c'.run.steps.find? k = c.run.steps.find? k := by
  simp only [fenceAttemptTx, commits_bind, commits_note, commits_clockTimestamp,
    commits_updateStep, commits_modifyRun, commits_appendRunEvent, RunScope.run_withRun,
    RunScope.run_tick, RunScope.run_visit]
  rw [Run.updateStep_of_find hf rfl]
  intro hslot
  refine ⟨(View.Leads.visited (v := c.view) hf (.fence a.id a.epoch _ _ ⟨a, ha, rfl, hlive, rfl⟩)
    ?_).trans (View.Leads.event .taskLost _ rfl (by simp) hslot), fun k hk => ?_⟩
  · rintro _ ⟨⟩
    trivial
  · rw [Run.steps_pushEvent]
    exact (congrArg (fun t => t.find? k) (StatusMove.handoff.steps_apply _)).trans
      ((Run.find?_setStep ..).trans (if_neg hk))

end Deadbolt.Execution

import Deadbolt.Lifecycle.Creation
import Deadbolt.Lifecycle.Resolution
import Deadbolt.Tenant.Command

/-!
# Decisions on approvals

An approval leaves `PENDING` once: whatever closes it, the row is never written again. A decision is
taken on an open run before the approval expires and settles its step by the output schema, and a
repeated one finds it taken. Two things depend on more than the approval. The schema is looked up in
every workflow of the deployment, so another workflow with a node of the same id has a say; and
`decided_at` is a second reading of the clock, after the one that is compared with `expires_at`.
-/

namespace Deadbolt.Execution

open Base Contracts Tx RunTx Program

/-! ### The schema of a decision -/

variable [Platform]

/-- The nodes of this id in one workflow accept the output. -/
def WorkflowManifest.acceptsDecision (wf : WorkflowManifest) (nodeID : String) (out : Json) : Bool :=
  wf.nodes.all fun n =>
    n.id != nodeID || schemaAccepts (n.approval.bind ApprovalNodeConfig.outputSchema) out

/-- The approval node of the run's own workflow accepts the output. -/
def Run.acceptsDecision (r : Run) (nodeID : String) (out : Json) : Bool :=
  r.workflow?.all fun wf => wf.acceptsDecision nodeID out

/-- No workflow of the deployment refuses an output that the run's own workflow accepts. -/
def Run.Undisputed (r : Run) (nodeID : String) (out : Json) : Prop :=
  r.acceptsDecision nodeID out = true →
    ∀ wf ∈ r.deployment.manifest.workflows, wf.acceptsDecision nodeID out = true

theorem Run.Undisputed.eq {r : Run} {nodeID : String} {out : Json} (h : r.Undisputed nodeID out) :
    r.deployment.manifest.acceptsDecision nodeID out = r.acceptsDecision nodeID out := by
  have hall : r.deployment.manifest.acceptsDecision nodeID out =
      r.deployment.manifest.workflows.all fun wf => wf.acceptsDecision nodeID out := rfl
  rw [hall]
  cases hr : r.acceptsDecision nodeID out with
  | true => exact List.all_eq_true.mpr (h hr)
  | false =>
    obtain ⟨wf, hwf, hno⟩ : ∃ wf, r.workflow? = some wf ∧ wf.acceptsDecision nodeID out = false := by
      unfold Run.acceptsDecision at hr
      cases hwf : r.workflow? with
      | none => simp [hwf] at hr
      | some wf => exact ⟨wf, rfl, by simpa [hwf] using hr⟩
    refine List.all_eq_false.mpr ⟨wf, List.mem_of_find?_eq_some hwf, ?_⟩
    simp [hno]

/-! ### An evaluation with nothing to do -/

/-- Nothing is to be done with the node. -/
def Dag.Waits (d : Dag) (st : DagState) (node : WorkflowNode) : Prop :=
  ∀ ds, st.step? node.id = some ds → ds.state = .blocked → d.decide st node = .wait

theorem evaluateNodes_waits {d : Dag} {st : DagState} {nodes : List WorkflowNode}
    (h : ∀ node ∈ nodes, d.Waits st node) : evaluateNodes d nodes st = pure (st, false) := by
  induction nodes with
  | nil => rfl
  | cons node rest ih =>
    obtain ⟨hwait, hrest⟩ := List.forall_mem_cons.mp h
    have hnode : evaluateNode d st node = pure (st, false) := by
      unfold evaluateNode
      cases hd : st.step? node.id with
      | none => rfl
      | some ds =>
        dsimp only
        split
        · next hb => rw [hwait ds hd hb]; rfl
        · rfl
    rw [evaluateNodes, hnode, pure_bind]
    exact ih hrest

theorem evaluateBlockedDAGTx_waits {d : Dag} {steps : List (String × DagStep)} {outputs : Outputs}
    (h : ∀ node ∈ d.workflow.nodes, d.Waits ⟨steps, outputs, 0, false⟩ node) :
    evaluateBlockedDAGTx d steps outputs = pure (⟨steps, outputs, 0, false⟩, false) := by
  rw [evaluateBlockedDAGTx, evaluatePasses, evaluateNodes_waits h, pure_bind]
  rfl

/-- Without a `BLOCKED` step in memory the evaluation does nothing. -/
theorem evaluateBlockedDAGTx_idle {d : Dag} {steps : List (String × DagStep)} {outputs : Outputs}
    (h : ∀ e ∈ steps, e.2.state ≠ .blocked) :
    evaluateBlockedDAGTx d steps outputs = pure (⟨steps, outputs, 0, false⟩, false) :=
  evaluateBlockedDAGTx_waits fun _ _ _ hs hb => absurd hb (h _ (DagState.mem_of_step? hs))

variable {c : RunScope} {s : Step} {a : Approval} {k : StepID} {approvalID : ApprovalID}

theorem advanceAfterStepSuccessTx_idle (hterm : c.run.status.terminal = true)
    (h : ∀ k s, c.run.steps.find? k = some s → s.state ≠ .blocked) (default : Json) :
    Commits (advanceAfterStepSuccessTx default) c fun _ c' => c'.run = c.run := by
  have hblocked : ∀ e ∈ c.run.dagSteps, e.2.state ≠ .blocked := by
    intro e he
    obtain ⟨x, hx, rfl⟩ := List.mem_map.mp he
    exact h x.1 x.2 ((c.run.steps.find?_eq_some_iff x.1 x.2).mpr hx)
  simp only [advanceAfterStepSuccessTx, commits_bind, commits_getRun]
  cases c.run.workflow? with
  | none => simp
  | some wf =>
    simp only [evaluateBlockedDAGTx_idle hblocked, pure_bind, Bool.false_eq_true, if_false,
      commits_bind, settleRunTerminalTx]
    split <;> simp [hterm]

/-! ### One decision -/

/-- The row that a decision leaves, `internal/execution/approval.go:519-523`. -/
def Approval.decide (a : Approval) (req : DecideApprovalRequest) (now : Time) : Approval :=
  { a with
    status := req.decision.status
    decidedAt := some now
    decisionComment := some req.comment
    actorID := some req.actorID
    revision := a.revision + 1 }

omit [Platform] in
theorem Decision.status_ne_pending (d : Decision) : d.status ≠ .pending := by
  cases d <;> nofun

omit [Platform] in
theorem Step.approval_decideApproval (ha : s.approval = some a) (hp : a.status = .pending)
    (req : DecideApprovalRequest) (now : Time) :
    (s.decideApproval req.decision.status req.comment req.actorID now).approval =
      some (a.decide req now) := by
  simp [Step.decideApproval, Step.updatePendingApproval, ha, hp, Approval.decide]

theorem Step.failFast_not_blocked (s : Step) (failing : Bool) (reason : String)
    (actor : Option ActorID) (now closedAt : Time) :
    (s.failFast failing reason actor now closedAt).state ≠ .blocked := by
  unfold Step.failFast Step.cancelOpenWith
  cases failing with
  | true => simp [Step.failWith, Step.closeOpenCases, Step.cancelTimers]
  | false =>
    simp only [Bool.false_eq_true, if_false]
    split
    · next h =>
      intro hb
      have : s.state = .blocked := hb
      simp only [Step.closeOpenCases, Step.revokeSiblings, this] at h
      cases h
    · simp [Step.cancelTimers]

/-- What a committed decision leaves of its run: the step of the approval ends as the schemas of the
deployment say. -/
structure Run.Decides (r : Run) (k : StepID) (s : Step) (a : Approval)
    (req : DecideApprovalRequest) (now : Time) (r' : Run) (s' : Step) : Prop where
  step : r'.steps.find? k = some s'
  approval : s'.approval = some (a.decide req now)
  accepted : r.deployment.manifest.acceptsDecision s.nodeID (decisionOutput req now) = true →
    s'.state = .succeeded ∧ s'.output = some (decisionOutput req now)
  refused : r.deployment.manifest.acceptsDecision s.nodeID (decisionOutput req now) = false →
    s'.state = .failed ∧ r'.status = .failed ∧ r'.reasonCode = some "SCHEMA_VALIDATION_ERROR"

/-- The end of `commitDecisionTx`: two events, the advancement and the status of the run. -/
def reportDecisionTx (x y : Payload) (out : Json) : RunTx Unit := do
  appendRunEvent .approvalDecided x
  appendRunEvent .stepSucceeded y
  advanceAfterStepSuccessTx out
  note .control
  modifyRun Run.recomputeAfterControl

theorem reportDecisionTx_succeeded {b : Approval} (hv : c.run.Sound)
    (hf : c.run.steps.find? k = some s) (hb : s.approval = some b) (hd : b.status ≠ .pending)
    (hs : s.state = .succeeded) (x y : Payload) (out : Json) :
    Commits (reportDecisionTx x y out) c fun _ c' => ∃ s', c'.run.steps.find? k = some s' ∧
      s'.approval = some b ∧ s'.state = .succeeded ∧ s'.output = s.output := by
  simp only [reportDecisionTx, commits_bind, commits_appendRunEvent]
  intro _ _
  refine Commits.mono (advanceAfterStepSuccessTx_leads ?_ _) ?_
  · exact hv.congr rfl rfl rfl
  rintro _ c2 ⟨hl, -, hspares⟩
  obtain ⟨s', hs', hlasts⟩ := hl.reaches.operates.lasts k s hf
  obtain ⟨s2, hs2, hstate⟩ := hspares k s hf hs
  obtain rfl := Option.mem_unique hs' hs2
  simp only [commits_note, commits_modifyRun]
  refine ⟨s', ?_, hlasts.stands _ hb hd, hstate⟩
  rw [← hs']
  exact congrArg (Table.find? · k) (StatusMove.steps_apply .control _)

/-- A run that has just failed stays as it is, but for the events. -/
theorem reportDecisionTx_failed (hterm : c.run.status = .failed)
    (h : ∀ k s, c.run.steps.find? k = some s → s.state ≠ .blocked) (x y : Payload) (out : Json) :
    Commits (reportDecisionTx x y out) c fun _ c' => c'.run.steps = c.run.steps ∧
      c'.run.status = .failed ∧ c'.run.reasonCode = c.run.reasonCode := by
  simp only [reportDecisionTx, commits_bind, commits_appendRunEvent]
  intro _ _
  refine (advanceAfterStepSuccessTx_idle ?_ ?_ _).mono ?_
  · simp only [RunScope.run_withRun, Run.pushEvent, hterm]
    rfl
  · exact h
  intro _ c2 hrun
  have hsame : c2.run.recomputeAfterControl = c2.run := by
    refine if_pos ?_
    simp only [hrun, RunScope.run_withRun, Run.pushEvent, hterm]
    rfl
  simp only [commits_note, commits_modifyRun, RunScope.run_withRun, RunScope.run_visit]
  rw [hsame, hrun]
  exact ⟨rfl, hterm, rfl⟩

/-- A run that fails for the step of an approval, and the rest of the transaction. -/
theorem failRun_reportDecisionTx (hf : c.run.steps.find? k = some s) (code : String) (x y : Payload)
    (out : Json) :
    Commits (do
      failRunForStepTx k code none
      let _ ← updateStep k (fun s => s.state == .waiting) fun s => s.succeed out
      reportDecisionTx x y out) c fun _ c' => ∃ s', c'.run.steps.find? k = some s' ∧
        s'.approval = s.approval ∧ s'.state = .failed ∧ c'.run.status = .failed ∧
        c'.run.reasonCode = some code := by
  simp only [commits_bind, commits_updateStep]
  refine (failRunForStepTx_spec k code none _).mono ?_
  rintro _ c1 ⟨t, closedAt, r', hends, hview⟩
  have hrun : c1.run = r' := congrArg View.run hview
  have hsteps : c1.run.steps =
      c.run.steps.mapRows fun i x => x.failFast (i == k) code none t closedAt := by
    rw [hrun, hends.steps]
    rfl
  have hfailed : c1.run.steps.find? k = some (s.failFast true code none t closedAt) := by
    rw [hsteps, Table.find?_mapRows, hf]
    simp
  -- The step is `FAILED`, so its success finds no row.
  have hmiss : c1.run.updateStep k (fun s => s.state == .waiting) (fun s => s.succeed out) =
      c1.run := by
    refine Run.updateStep_of_not hfailed ?_ _
    simp [Step.failFast, Step.failWith, Step.closeOpenCases, Step.cancelTimers]
  rw [hmiss]
  refine (reportDecisionTx_failed ?_ (fun i x hx => ?_) _ _ _).mono ?_
  · rw [RunScope.run_withRun, hrun, hends.status]
    rfl
  · rw [RunScope.run_withRun, hsteps, Table.find?_mapRows] at hx
    obtain ⟨z, -, rfl⟩ := Option.map_eq_some_iff.mp hx
    exact z.failFast_not_blocked _ _ _ _ _
  · rintro _ c' ⟨hsame, hstatus, hreason⟩
    rw [RunScope.run_withRun] at hsame hreason
    refine ⟨s.failFast true code none t closedAt, hsame ▸ hfailed, rfl, rfl, hstatus, ?_⟩
    obtain ⟨n, events, outbox, hr'⟩ := hends.eq
    rw [hreason, hrun, hr']
    rfl

/-- A decision on a waiting step settles it by the schemas. -/
theorem commitDecisionTx_decides (hv : c.run.Sound) (hopen : c.run.status.closing = false)
    (hf : c.run.steps.find? k = some s) (ha : s.approval = some a) (hp : a.status = .pending)
    (hs : s.state = .waiting) (approvalID : ApprovalID) (req : DecideApprovalRequest) (now : Time) :
    Commits (commitDecisionTx k s.nodeID approvalID req now) c fun _ c' =>
      ∃ s', c.run.Decides k s a req now c'.run s' := by
  have happroval := Step.approval_decideApproval ha hp req now
  have hpending : s.hasPendingApproval = true := by simp [Step.hasPendingApproval, ha, hp]
  set out := decisionOutput req now with hout
  set s1 := s.decideApproval req.decision.status req.comment req.actorID now with hs1
  have hf1 (s' : Step) : (c.run.setStep k s').steps.find? k = some s' :=
    Run.find?_setStep_self s' hf
  suffices hcommit : ∀ x y, Commits (do
      let _ ← updateStep k (fun _ => true) fun s =>
        s.decideApproval req.decision.status req.comment req.actorID now
      validateApprovalOutputTx k s.nodeID out
      let _ ← updateStep k (fun s => s.state == .waiting) fun s => s.succeed out
      reportDecisionTx x y out) c fun _ c' => ∃ s', c.run.Decides k s a req now c'.run s' from
    hcommit _ _
  intro x y
  simp only [validateApprovalOutputTx, commits_bind, commits_updateStep,
    commits_getRun, commits_ite, commits_pure, commits_note,
    RunScope.run_withRun]
  rw [Run.updateStep_of_find hf rfl, ← hs1]
  have hmanifest : (c.run.setStep k s1).deployment = c.run.deployment := rfl
  rw [hmanifest]
  refine ⟨fun hacc => ?_, fun hacc => ?_⟩
  · have hwaiting : (s1.state == .waiting) = true := by
      simp [hs1, Step.decideApproval, Step.updatePendingApproval, hs]
    rw [Run.updateStep_of_find (hf1 _) hwaiting, Run.setStep_setStep]
    have hl := View.Leads.step (v := c.view) hf (.approve req.decision.status req.comment
      req.actorID now out hopen hs hpending req.decision.status_ne_pending) (by simp)
    have happroval2 : (s1.succeed out).approval = some (a.decide req now) := happroval
    refine (reportDecisionTx_succeeded (hl.sound hv) (hf1 _) happroval2
      req.decision.status_ne_pending rfl x y out).mono ?_
    rintro _ c' ⟨s', hs', hb, hsucc⟩
    exact ⟨s', hs', hb, fun _ => hsucc, fun hno => by rw [hno] at hacc; cases hacc⟩
  · have hfail := failRun_reportDecisionTx
      (c := (c.withRun (c.run.setStep k s1)).visit (.approvalOutputRejected k)) (hf1 s1)
      "SCHEMA_VALIDATION_ERROR" x y out
    simp only [commits_bind, commits_updateStep] at hfail
    refine hfail.mono fun _ _ h => h.mono fun _ c' hc' => ?_
    obtain ⟨s', hs', hb, hrest⟩ := hc'
    exact ⟨s', hs', hb.trans happroval, fun hyes => absurd hyes hacc, fun _ => hrest⟩

/-- What `decideApprovalTx` does: a repeated decision changes nothing, and another one is taken on
an open run before the approval expires, at the second reading of the clock. -/
theorem decideApprovalTx_decides (hv : c.run.Sound) (k : StepID) (approvalID : ApprovalID)
    (req : DecideApprovalRequest) :
    Commits (decideApprovalTx k approvalID req) c fun _ c' => c'.run = c.run ∨
      ∃ s a s' now, c.run.status.closing = false ∧ c.run.steps.find? k = some s ∧
        s.approval = some a ∧ a.status = .pending ∧
        (∀ t, a.expiresAt = some t →
          Platform.clock c.sys.ticks < t ∧ now = Platform.clock (c.sys.ticks + 1)) ∧
        c.run.Decides k s a req now c'.run s' := by
  simp only [decideApprovalTx, commits_bind, commits_getRun, commits_require,
    commits_getStep]
  intro hterm hcan s hf
  have hopen := RunStatus.closing_eq_false hterm hcan
  cases ha : s.approval with
  | none => simp
  | some a =>
    simp only [commits_bind]
    have hexp : Commits (approvalExpiredNowTx a.expiresAt) c fun expired c1 =>
        c1.run = c.run ∧ ∀ t, a.expiresAt = some t → c1.sys.ticks = c.sys.ticks + 1 ∧
          expired = decide (t ≤ Platform.clock c.sys.ticks) := by
      unfold approvalExpiredNowTx
      cases a.expiresAt <;> simp [RunScope.tick]
    refine hexp.mono ?_
    rintro expired c1 ⟨hrun, hread⟩
    simp only [commits_require, commits_ite, commits_bind, commits_clockTimestamp,
      commits_fail]
    intro hlive
    refine ⟨fun hp _ hs => ?_, fun _ => ⟨fun _ => trivial, fun _ _ => .inl hrun⟩⟩
    refine (commitDecisionTx_decides (c := c1.tick) (by simpa [hrun] using hv)
      (by simpa [hrun] using hopen) (by simpa [hrun] using hf) ha hp hs approvalID req _).mono ?_
    rintro _ c' ⟨s', hdec⟩
    refine .inr ⟨s, a, s', Platform.clock c1.sys.ticks, hopen, hf, ha, hp, fun t ht => ?_, ?_⟩
    · obtain ⟨hticks, hnow⟩ := hread t ht
      have hexpired : expired = false := hlive.resolve_right fun h => h hp
      rw [hexpired] at hnow
      exact ⟨by simpa using hnow.symm, by rw [hticks]⟩
    · simpa [hrun] using hdec

/-! ### The request -/

omit [Platform] in
theorem Db.stepOfApproval?_eq_some {db : Db} {id : RunID} {nodeID : String}
    (h : db.stepOfApproval? approvalID = some (id, k, nodeID)) :
    ∃ r s a, db.runs.find? id = some r ∧ r.steps.find? k = some s ∧ s.approval = some a ∧
      a.id = approvalID := by
  obtain ⟨e, he, hs⟩ := List.exists_of_findSome?_eq_some h
  obtain ⟨x, hx, heq⟩ := Option.map_eq_some_iff.mp hs
  simp only [Prod.mk.injEq] at heq
  obtain ⟨rfl, rfl, rfl⟩ := heq
  have hany := List.find?_some hx
  obtain ⟨a, ha, hid⟩ := (Option.any_eq_true _ _).mp hany
  exact ⟨e.2, x.2, a, (db.runs.find?_eq_some_iff _ _).mpr he,
    (e.2.steps.find?_eq_some_iff _ _).mpr (List.mem_of_find?_eq_some hx), ha, by simpa using hid⟩

/-- The clock does not pass the time between the two readings of a decision. -/
def World.SteadyAt (w : World) (t : Time) : Prop :=
  t ≤ Platform.clock w.db.sys.ticks ∨ Platform.clock (w.db.sys.ticks + 1) < t

/-- A decision is taken on a pending approval of an open run, before it expires. -/
structure World.Takes (w : World) (approvalID : ApprovalID) (req : DecideApprovalRequest) (r : Run)
    (k : StepID) (s : Step) (a : Approval) (now : Time) (r' : Run) (s' : Step) : Prop
    extends r.Decides k s a req now r' s' where
  runOpen : r.status.closing = false
  found : r.steps.find? k = some s
  pending : s.approval = some a ∧ a.id = approvalID ∧ a.status = .pending
  inTime : ∀ t, a.expiresAt = some t → w.SteadyAt t → now < t

theorem World.decide_takes {w : World} (hw : w.Sound) {req : DecideApprovalRequest} {id : RunID}
    {r r' : Run} (hr : w.db.runs.find? id = some r)
    (hr' : (w.decide approvalID req).db.runs.find? id = some r') :
    r' = r ∨ ∃ k s a now s', w.Takes approvalID req r k s a now r' s' := by
  have hsame (h : (w.decide approvalID req).db = w.db) : r' = r := by
    rw [h, hr] at hr'
    exact (Option.some.inj hr').symm
  cases hfound : w.db.stepOfApproval? approvalID with
  | none => exact .inl (hsame (by rw [World.decide, hfound]))
  | some x =>
    obtain ⟨id0, k, nodeID⟩ := x
    obtain ⟨r0, s0, a0, hr0, hs0, ha0, hid⟩ := Db.stepOfApproval?_eq_some hfound
    -- The transaction is on the run of the approval.
    have htx : Commits (onRun id0 (decideApprovalTx k approvalID req)) w.db fun _ db' =>
        db'.runs.find? id = some r' →
          r' = r ∨ ∃ k s a now s', w.Takes approvalID req r k s a now r' s' := by
      rw [commits_onRun]
      intro r1 hr1
      obtain rfl := Option.mem_unique hr0 hr1
      refine (decideApprovalTx_decides (c := ⟨id0, r0, w.db.sys⟩) (hw.db id0 r0 hr0) k approvalID
        req).mono ?_
      intro _ c hc hfind
      rw [Db.find?_putScope, hr, Option.map_some] at hfind
      split at hfind
      · next heq =>
        subst heq
        obtain rfl := Option.mem_unique hr hr0
        obtain rfl : c.run = r' := Option.some.inj hfind
        refine hc.imp_right fun hc => ?_
        obtain ⟨s, a, s', now, hopen, hs, ha, hp, hclock, hdec⟩ := hc
        obtain rfl := Option.mem_unique hs0 hs
        obtain rfl := Option.mem_unique ha0 ha
        refine ⟨k, s0, a0, now, s', hdec, hopen, hs, ⟨ha, hid, hp⟩, fun t ht hsteady => ?_⟩
        obtain ⟨hlt, rfl⟩ := hclock t ht
        exact hsteady.resolve_left (not_le.mpr hlt)
      · exact .inl (Option.some.inj hfind).symm
    have hdecide : w.decide approvalID req =
        w.transact (onRun id0 (decideApprovalTx k approvalID req)) fun err =>
          if err = .approvalExpired then
            { w with expiredApprovals := w.expiredApprovals ++ [(id0, k, nodeID, approvalID)] }
          else w := by
      rw [World.decide, hfound]
    rw [hdecide] at hsame hr'
    unfold World.transact at hsame hr'
    split at hr'
    · next db' he => exact htx _ db' he hr'
    · next e he =>
      refine .inl (hsame ?_)
      rw [he]
      dsimp only
      split <;> rfl

/-! ### Commands -/

/-- `decideApprovalTx` with its locks, `approval.go:420-599`: the approval is
resolved to its run before the run is locked. -/
def Statements.decideApproval (approvalID : ApprovalID) (req : DecideApprovalRequest) :
    Program RunID World EngineError Approval := do
  let found ← Program.read fun w : World => w.db.stepOfApproval? approvalID
  match found with
  | none => .fail .approvalNotFound
  | some (id, stepID, _) => do
    let _ ← Program.claim id (fun w : World => (w.db.runs.find? id).isSome) .done
    let w ← Program.read fun w : World => w
    match onRun id (decideApprovalTx stepID approvalID req) w.db with
    | .error e => .fail e
    | .ok (_, db) =>
      match db.runs.find? id with
      | none => .fail .runNotFound
      | some r => do
        Program.modify fun w' : World => { w' with db := { w'.db with
          runs := w'.db.runs.modify id fun _ => r
          sys := w'.db.sys.consume w.db.sys db.sys } }
        match (r.steps.find? stepID).bind Step.approval with
        | none => .fail .approvalNotFound
        | some a => pure a

/-- Without competition a request is the transaction of the engine. -/
theorem run_decideApproval {req : DecideApprovalRequest} {w w' : World}
    (h : (Statements.decideApproval approvalID req).run w = .ok (a, w')) :
    w' = w.decide approvalID req := by
  unfold Statements.decideApproval at h
  rw [bind_eq, run_bind, run_read] at h
  unfold World.decide
  cases hfound : w.db.stepOfApproval? approvalID with
  | none =>
    rw [hfound] at h
    cases h
  | some x =>
    obtain ⟨id, k, nodeID⟩ := x
    have hdb : Commits (onRun id (decideApprovalTx k approvalID req)) w.db fun _ db =>
        ∃ c : RunScope, w.db.sys.Before c.sys ∧ db = w.db.putScope id c := by
      rw [commits_onRun]
      intro r _
      exact (keeps_decideApprovalTx (R := RunScope.Extends) k approvalID req ⟨id, r, w.db.sys⟩).mono
        fun _ c hc => ⟨c, hc, rfl⟩
    simp only [hfound, bind_eq, run_bind, run_claim, run_done,
      run_read] at h
    cases htx : onRun id (decideApprovalTx k approvalID req) w.db with
    | error e =>
      rw [htx] at h
      cases h
    | ok y =>
      obtain ⟨u, db⟩ := y
      obtain ⟨c, hbefore, rfl⟩ := hdb u db htx
      rw [htx] at h
      dsimp only at h
      split at h
      · cases h
      · next r hr =>
        have hrun : c.run = r := by
          rw [Db.find?_putScope] at hr
          obtain ⟨r0, -, hr⟩ := Option.map_eq_some_iff.mp hr
          simpa using hr
        subst hrun
        simp only [run_bind, run_modify] at h
        split at h
        · cases h
        · obtain ⟨-, rfl⟩ := Prod.mk.inj (Except.ok.inj h)
          have hsys : w.db.sys.consume w.db.sys (w.db.putScope id c).sys = c.sys := hbefore.consume
          rw [hsys]
          simp only [World.transact, htx]
          rfl

/-- `DecideApproval` under a command, `approval.go:334-386`. -/
def decideApprovalCommand [Tenant.CreationHash] (c : Tenant.Command) (approvalID : ApprovalID)
    (req : DecideApprovalRequest) : Tenant.CommandRequest RunID World EngineError Approval where
  organizationID := c.organizationID
  command := some c
  operation := ""
  form := .fixed 200
  mutate := Statements.decideApproval approvalID req
  inScope _ hc := by rw [Option.some.inj hc]

/-- A closed approval is never written again. A decision that changes a run is taken on a pending
approval of an open run; it is taken before the approval expires if the clock does not pass that
time meanwhile, and settles the step by the run's own workflow if no other workflow refuses what
that one accepts. A request that repeats a recorded command changes nothing. -/
theorem approvals_decided_once [Tenant.CreationHash] [Tenant.Endpoints Approval] (fleet : Fleet)
    (os : List Operation) :
    let w := installation.exec (World.initial fleet) os
    (∀ ps id r k s a, w.db.runs.find? id = some r → r.steps.find? k = some s →
      s.approval = some a → a.status ≠ .pending →
      ∃ r' s', (installation.exec w ps).db.runs.find? id = some r' ∧
        r'.steps.find? k = some s' ∧ s'.approval = some a) ∧
    (∀ approvalID req id r r', w.db.runs.find? id = some r →
      (installation.exec w [.engine (.decideApproval approvalID req)]).db.runs.find? id = some r' →
      r' = r ∨ ∃ k s a now s', w.Takes approvalID req r k s a now r' s' ∧
        (r.Undisputed s.nodeID (decisionOutput req now) →
          if r.acceptsDecision s.nodeID (decisionOutput req now) then
            s'.state = .succeeded ∧ s'.output = some (decisionOutput req now)
          else s'.state = .failed ∧ r'.status = .failed ∧
            r'.reasonCode = some "SCHEMA_VALIDATION_ERROR")) ∧
    ∀ as a c approvalID req response res,
      let P := Tenant.commandSystem.exec (Pool.idle (Table.empty, w)) as
      (decideApprovalCommand c approvalID req, .ok response) ∈ P.finished →
      response.replayed = false →
      (Tenant.commandSystem.step P a).finished =
        P.finished ++ [(decideApprovalCommand c approvalID req, res)] →
      (Tenant.commandSystem.step P a).committed = P.committed ∧
        res = .ok ⟨true, none, response.outcome⟩ := by
  intro w
  have hw : w.Sound := (installation_operates (World.sound_initial fleet) os).2
  refine ⟨fun ps id r k s a hr hs ha hd => ?_, fun approvalID req id r r' hr hr' => ?_,
    ?_⟩
  · obtain ⟨r', hr', hop⟩ := (installation_operates hw ps).1.kept id r hr
    obtain ⟨s', hs', hlasts⟩ := hop.lasts k s hs
    exact ⟨r', s', hr', hs', hlasts.stands a ha hd⟩
  · rw [exec_engine, World.step] at hr'
    refine (World.decide_takes hw hr hr').imp_right fun htakes => ?_
    obtain ⟨k, s, a, now, s', ht⟩ := htakes
    refine ⟨k, s, a, now, s', ht, fun hund => ?_⟩
    rw [← hund.eq]
    split
    · next hacc => exact ht.accepted hacc
    · next hacc => exact ht.refused (by simpa using hacc)
  · intro as act c approvalID req response res P hmem hrep hfin
    obtain ⟨hsame, hres⟩ := Tenant.command_repeated w as hfin hmem hrep rfl rfl rfl (.inl rfl)
    rw [if_pos ⟨rfl, rfl⟩] at hres
    obtain ⟨code, -, hres⟩ := hres
    exact ⟨hsame, hres⟩

/-- The decision to approve an approval in its first revision, without a comment. -/
def Sample.approve : DecideApprovalRequest := ⟨.approved, 1, "", 7⟩

def Sample.commentedNode (id : String) : WorkflowNode :=
  { approvalNode id [] with
    approval := some ⟨none, some (.obj [("required", .arr [.str "comment"])]), "", 1000⟩ }

/-- Two workflows with an approval of one id; only the second one asks for a comment. -/
def Sample.sharedNodes : Fleet :=
  fleet [] [workflow "w" [approvalNode "b" []], workflow "v" [commentedNode "b"]]

def Sample.requested : List Action := [.createRun request, .reconcileReadyWork []]

omit [Platform] in
/-- An approval without a schema is decided: the run fails, since a node of the same id in another
workflow asks for a comment. And an approval that expires at the reading after the test of its
expiry is decided at that time. -/
theorem decision_refused_elsewhere :
    ((Sample.run Sample.sharedNodes Sample.requested).db.runs.find? 0).any (fun r =>
      @Run.acceptsDecision Sample.platform r "b" (@decisionOutput Sample.platform Sample.approve 6))
        = true ∧
    ((Sample.run Sample.sharedNodes (Sample.requested ++ [.decideApproval 2 Sample.approve])
        ).db.runs.find? 0).any (fun r =>
      r.status == .failed && r.reasonCode == some "SCHEMA_VALIDATION_ERROR") = true ∧
    ((Sample.run (Sample.fleet [] [Sample.workflow "w" [Sample.approvalNode "b" []]])
        (Sample.requested ++ [.elapse 999997, .decideApproval 2 Sample.approve])
        ).db.runs.find? 0).any (fun r => r.anyStep fun s => s.approval.any fun a =>
      a.status == .approved && a.decidedAt == some 1000003 && a.expiresAt == some 1000003)
        = true := by
  decide +kernel

omit [Platform] in
theorem run_decideApproval_approved :
    ∃ a w', (@Statements.decideApproval Sample.platform 2 Sample.approve).run
        (Sample.run Sample.sharedNodes Sample.requested) = .ok (a, w') ∧
      w' = @World.decide Sample.platform (Sample.run Sample.sharedNodes Sample.requested) 2
        Sample.approve := by
  cases h : (@Statements.decideApproval Sample.platform 2 Sample.approve).run
      (Sample.run Sample.sharedNodes Sample.requested) with
  | ok x => exact ⟨x.1, x.2, rfl, @run_decideApproval Sample.platform _ _ _ _ _ h⟩
  | error e =>
    have hok : ((@Statements.decideApproval Sample.platform 2 Sample.approve).run
      (Sample.run Sample.sharedNodes Sample.requested)).toBool = true := by decide +kernel
    rw [h] at hok
    cases hok

end Deadbolt.Execution

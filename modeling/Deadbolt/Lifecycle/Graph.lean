import Deadbolt.Lifecycle.Helpers

/-!
# Graph evaluation as moves

An evaluation decides from the states it remembers, while the rows may already have left
those states: the run can fail in the middle of an evaluation that goes on. `Mirrors` is what
the memory is worth at every point: it is the rows of an open run, and in a closed one a step
remembered as `BLOCKED` is blocked or was closed by the failure, and one remembered as
terminal is terminal.
-/

namespace Deadbolt.Execution

open Base Contracts Tx RunTx

/-- A step that an evaluation may take for `BLOCKED`. -/
def Step.Pending (s : Step) : Prop := s.state = .blocked ∨ s.Closed

variable {s : Step} {id : StepID} {c c' : RunScope} {st : DagState} {v : View} {d : Dag}
  {wf : WorkflowManifest} {state? : String → Option StepState} {outputs : Outputs}
  {input default : Json}

theorem Step.Pending.not_succeeded (h : s.Pending) : s.state ≠ .succeeded := by
  rcases h with h | h | h <;> simp [h]

theorem StepState.terminal_of_passed {s : StepState} (h : s.passed = true) : s.terminal = true := by
  cases s <;> first | rfl | cases h

/-! ### Steps and nodes -/

namespace Run

variable {r r' : Run} {s : Step} {id : StepID}

theorem Shaped.nodup (h : r.Shaped) : (r.steps.rows.map fun e => e.2.nodeID).Nodup := by
  obtain ⟨wf, -, hrows, hnd⟩ := h
  have := congrArg (List.map Prod.fst) hrows
  simp only [List.map_map, Function.comp_def] at this
  rw [this]
  exact hnd

theorem Shaped.unique (h : r.Shaped) {i j : StepID} {t : Step} (hs : r.steps.find? i = some s)
    (ht : r.steps.find? j = some t) (hn : s.nodeID = t.nodeID) : i = j ∧ s = t := by
  have he := List.inj_on_of_nodup_map h.nodup ((r.steps.find?_eq_some_iff i s).mp hs)
    ((r.steps.find?_eq_some_iff j t).mp ht) hn
  exact ⟨congrArg Prod.fst he, congrArg Prod.snd he⟩

theorem Shaped.kind (h : r.Shaped) {wf : WorkflowManifest} (hwf : r.workflow? = some wf)
    {node : WorkflowNode} (hnode : node ∈ wf.nodes) (hs : r.steps.find? id = some s)
    (hn : s.nodeID = node.id) : s.kind = node.type := by
  obtain ⟨wf', hwf', hrows, hnd⟩ := h
  obtain rfl := Option.mem_unique hwf hwf'
  have hm : (s.nodeID, s.kind) ∈ wf.nodes.map fun n => (n.id, n.type) := by
    rw [← hrows]
    exact List.mem_map.mpr ⟨(id, s), (r.steps.find?_eq_some_iff id s).mp hs, rfl⟩
  obtain ⟨n, hmem, he⟩ := List.mem_map.mp hm
  obtain ⟨hid, hk⟩ := Prod.mk.inj he
  have : n = node := List.inj_on_of_nodup_map hnd hmem hnode (hid.trans hn)
  rw [← hk, this]

theorem Shaped.node (h : r.Shaped) {wf : WorkflowManifest} (hwf : r.workflow? = some wf)
    (hs : r.steps.find? id = some s) : ∃ node ∈ wf.nodes, node.id = s.nodeID := by
  obtain ⟨wf', hwf', hrows, -⟩ := h
  obtain rfl := Option.mem_unique hwf hwf'
  have hm : (s.nodeID, s.kind) ∈ wf.nodes.map fun n => (n.id, n.type) := by
    rw [← hrows]
    exact List.mem_map.mpr ⟨(id, s), (r.steps.find?_eq_some_iff id s).mp hs, rfl⟩
  obtain ⟨n, hmem, he⟩ := List.mem_map.mp hm
  exact ⟨n, hmem, (Prod.mk.inj he).1⟩

theorem Shaped.anyKind (h : r.Shaped) (h' : r'.Shaped) (hw : r'.workflow? = r.workflow?)
    (p : NodeType → Bool) : r'.anyStep (fun s => p s.kind) = r.anyStep fun s => p s.kind := by
  obtain ⟨wf, hwf, hrows, -⟩ := h
  obtain ⟨wf', hwf', hrows', -⟩ := h'
  obtain rfl : wf = wf' := Option.some.inj (by rw [← hwf, ← hwf', hw])
  have hany (x : Run) : x.anyStep (fun s => p s.kind) =
      (x.steps.rows.map fun e => (e.2.nodeID, e.2.kind)).any fun e => p e.2 := by
    simp [anyStep, Table.any, List.any_map, Function.comp_def]
  rw [hany, hany, hrows, hrows']

/-- Every step of `r` is still there with its output. Only a failure of the run changed its state,
no pending or terminal step came back, and a step that passed stays as it is. -/
def Settles (r r' : Run) : Prop :=
  ∀ id s, r.steps.find? id = some s → ∃ s', r'.steps.find? id = some s' ∧
    s'.nodeID = s.nodeID ∧ s'.output = s.output ∧ (s.Pending → s'.Pending) ∧
      (s.state.terminal = true → s'.state.terminal = true) ∧
      (s.state.passed = true → s'.state = s.state) ∧
      (r'.status.closing = false → s'.state = s.state)

theorem Settles.refl (r : Run) : r.Settles r :=
  fun _ s hs => ⟨s, hs, rfl, rfl, fun h => h, fun h => h, fun _ => rfl, fun _ => rfl⟩

theorem Settles.setStep {s' : Step} (hf : r.steps.find? id = some s) (hn : s'.nodeID = s.nodeID)
    (ho : s'.output = s.output) (hs : s'.state = s.state) : r.Settles (r.setStep id s') := by
  intro k t hk
  by_cases hki : k = id
  · subst hki
    obtain rfl := Option.mem_unique hf hk
    refine ⟨s', find?_setStep_self s' hf, hn, ho, ?_⟩
    rw [Step.Pending, Step.Pending, Step.Closed, Step.Closed, hs]
    exact ⟨fun h => h, fun h => h, fun _ => rfl, fun _ => rfl⟩
  · exact ⟨t, by rw [find?_setStep, if_neg hki, hk], rfl, rfl, fun h => h, fun h => h, fun _ => rfl,
      fun _ => rfl⟩

/-- The steps of `r` that have succeeded still have, with their outputs. -/
def Spares (r r' : Run) : Prop :=
  ∀ id s, r.steps.find? id = some s → s.state = .succeeded →
    ∃ s', r'.steps.find? id = some s' ∧ s'.state = .succeeded ∧ s'.output = s.output

theorem Spares.of_steps (h : r'.steps = r.steps) : r.Spares r' :=
  fun _ s hs hst => ⟨s, by rw [h, hs], hst, rfl⟩

theorem Spares.trans {r1 r2 r3 : Run} (h : r1.Spares r2) (h' : r2.Spares r3) : r1.Spares r3 := by
  intro id s hs hst
  obtain ⟨s2, hs2, hst2, ho2⟩ := h id s hs hst
  obtain ⟨s3, hs3, hst3, ho3⟩ := h' id s2 hs2 hst2
  exact ⟨s3, hs3, hst3, ho3.trans ho2⟩

theorem Settles.spares (h : r.Settles r') : r.Spares r' := by
  intro id s hs hst
  obtain ⟨s', hs', -, ho, -, -, hpassed, -⟩ := h id s hs
  exact ⟨s', hs', (hpassed (by rw [hst]; rfl)).trans hst, ho⟩

theorem Spares.setStep (hf : r.steps.find? id = some s) (hs : s.state ≠ .succeeded) (s' : Step) :
    r.Spares (r.setStep id s') := by
  intro k t hk hst
  by_cases hki : k = id
  · subst hki
    obtain rfl := Option.mem_unique hf hk
    exact absurd hst hs
  · exact ⟨t, by rw [find?_setStep, if_neg hki, hk], hst, rfl⟩

theorem settles_failFast {s0 : Step} (hf : r.steps.find? id = some s0) (hp0 : s0.Pending)
    {reason : String} {actor : Option ActorID} {now closedAt : Time}
    (he : Ends .runFailed (r.failFast id reason actor now closedAt) r') : r.Settles r' := by
  intro k s hs
  refine ⟨s.failFast (k == id) reason actor now closedAt, ?_, (Step.ending_failFast ..).node s |>.1,
    ?_, ?_, ?_, ?_, ?_⟩
  · simp [he.steps, failFast, hs]
  · unfold Step.failFast Step.cancelOpenWith
    simp only
    split
    · rfl
    · split <;> rfl
  · intro hp
    unfold Step.failFast Step.cancelOpenWith Step.Pending Step.Closed
    cases hk : k == id with
    | true => right; right; rfl
    | false =>
      simp only [Bool.false_eq_true, if_false]
      split
      · exact hp
      · right; left; rfl
  · intro ht
    unfold Step.failFast Step.cancelOpenWith
    cases hk : k == id with
    | true => rfl
    | false =>
      simp only [Bool.false_eq_true, if_false]
      split
      · exact ht
      · rfl
  · intro hk
    have hne : (k == id) = false := by
      refine beq_eq_false_iff_ne.mpr ?_
      rintro rfl
      obtain rfl := Option.mem_unique hf hs
      rcases hp0 with h | h | h <;> rw [h] at hk <;> cases hk
    have hterm : s.state.terminal = true := StepState.terminal_of_passed hk
    unfold Step.failFast Step.cancelOpenWith
    simp [hne, hterm, Step.revokeSiblings, Step.closeOpenCases, Step.cancelTimers]
  · rw [he.status]
    intro h
    cases h

end Run

/-! ### Memory -/

namespace DagState

/-- What the memory of an evaluation says about the rows. -/
def Mirrors (st : DagState) (r : Run) : Prop :=
  ∀ e ∈ st.steps, ∃ s, r.steps.find? e.2.id = some s ∧ s.nodeID = e.1 ∧
    (e.2.state = .blocked → s.Pending) ∧ (e.2.state.terminal = true → s.state.terminal = true) ∧
    (e.2.state.passed = true → s.state = e.2.state) ∧
    (r.status.closing = false → s.state = e.2.state)

variable {st : DagState} {r : Run}

theorem Mirrors.settles {r' : Run} (h : st.Mirrors r) (hr : r.Settles r')
    (hc : r'.status.closing = false → r.status.closing = false) : st.Mirrors r' := by
  intro e he
  obtain ⟨s, hs, hn, hb, ht, hk, hx⟩ := h e he
  obtain ⟨s', hs', hn', -, hp', ht', hk', hx'⟩ := hr _ s hs
  refine ⟨s', hs', hn'.trans hn, fun h => hp' (hb h), fun h => ht' (ht h), fun h => ?_,
    fun h => (hx' h).trans (hx (hc h))⟩
  exact (hk' (by rw [hk h]; exact h)).trans (hk h)

theorem Mirrors.congr {st' : DagState} {r' : Run} (h : st.Mirrors r) (he : st'.steps = st.steps)
    (hs : r'.steps = r.steps) (hc : r'.status.closing = false → r.status.closing = false) :
    st'.Mirrors r' := by
  intro e hmem
  obtain ⟨s, hf, hn, hb, ht, hk, hx⟩ := h e (he ▸ hmem)
  exact ⟨s, hs ▸ hf, hn, hb, ht, hk, fun h => hx (hc h)⟩

/-- A step leaves `BLOCKED` in the rows and in the memory. -/
theorem Mirrors.advance (h : st.Mirrors r) (hr : r.Shaped) {node : String} {id : StepID}
    {s s' : Step} (hs : r.steps.find? id = some s) (hn : s.nodeID = node)
    (hn' : s'.nodeID = s.nodeID) {state : StepState} (hb : state ≠ .blocked)
    (ht : state.terminal = true → s'.state = state)
    (hx : r.status.closing = false → s'.state = state) :
    (st.setState node state).Mirrors (r.setStep id s') := by
  intro e he
  obtain ⟨e0, he0, rfl⟩ := List.mem_map.mp he
  obtain ⟨s0, hs0, hn0, hrest⟩ := h e0 he0
  split
  · next hk =>
    obtain ⟨hid, rfl⟩ := hr.unique hs0 hs (by rw [hn0, hn, hk])
    refine ⟨s', ?_, by rw [hn', hn0], fun hc => absurd hc hb, fun h => ?_,
      fun h => ht (StepState.terminal_of_passed h), hx⟩
    · simp only [hid]
      exact Run.find?_setStep_self s' hs
    · rw [ht h]
      exact h
  · next hk =>
    refine ⟨s0, ?_, hn0, hrest⟩
    rw [Run.find?_setStep, if_neg, hs0]
    intro hid
    rw [hid, hs] at hs0
    cases hs0
    exact hk (by rw [← hn0, hn])

theorem mem_of_step? {node : String} {ds : DagStep} (h : st.step? node = some ds) :
    (node, ds) ∈ st.steps := by
  obtain ⟨l1, l2, hl, -⟩ := List.lookup_eq_some_iff.mp h
  rw [hl]
  simp

end DagState

theorem Run.mirrors_dagSteps (r : Run) (st : DagState) (h : st.steps = r.dagSteps) :
    st.Mirrors r := by
  intro e he
  rw [h] at he
  obtain ⟨e0, he0, rfl⟩ := List.mem_map.mp he
  exact ⟨e0.2, (r.steps.find?_eq_some_iff e0.1 e0.2).mpr he0, rfl, fun hb => .inl hb, fun ht => ht,
    fun _ => rfl, fun _ => rfl⟩

/-! ### Statements -/

/-- A write to a blocked step: it hits exactly when the row is still `BLOCKED`. -/
theorem writeBlocked_spec (hf : c.run.steps.find? id = some s) {f : Step → Step} {t : EventType}
    {x : Payload} (hm : s.state = .blocked → Step.Moves c.run id s none none (f s))
    (ht : t.terminal = false)
    (hx : t = .stepSucceeded → x.lookup "stepId" = some (idJson id) ∧ (f s).state = .succeeded) :
    Commits (writeBlocked id f t x) c fun hit c' =>
      (hit = true ∧ s.state = .blocked ∧ c.view.Leads c'.view ∧
        c'.run.steps = (c.run.setStep id (f s)).steps) ∨ (hit = false ∧ c'.view = c.view) := by
  simp only [writeBlocked, commits_bind, commits_updateStep, commits_ite,
    commits_appendRunEvent, commits_pure, hf, Option.any_some, RunScope.run_withRun]
  refine ⟨fun hb hslot => ?_, fun hb => ?_⟩
  · have hs : s.state = .blocked := by simpa using hb
    rw [Run.updateStep_of_find hf hb] at hslot ⊢
    refine .inl ⟨trivial, hs, ?_, rfl⟩
    refine (View.Leads.step (v := c.view) hf (hm hs) (by simp)).trans
      (View.Leads.silent (.event t x ht hslot ?_))
    intro hsucc
    obtain ⟨hid, hstate⟩ := hx hsucc
    exact ⟨id, hid, .inl ⟨f s, Run.find?_setStep_self _ hf, hstate⟩⟩
  · have hb : (s.state == .blocked) = false := by simpa using hb
    rw [Run.updateStep_of_not hf hb]
    exact .inr ⟨trivial, rfl⟩

/-! ### Decisions -/

/-- The decisions that a node of a kind can get from a memory. -/
def NodeDecision.Suits (st : DagState) (kind : NodeType) : NodeDecision → Prop
  | .ready => kind = .task
  | .succeed _ _ => kind = .choice ∨ kind = .merge
  | .approval => kind = .approval
  | .delay _ => kind = .delay
  | .skip => kind = .merge ∨ ∃ dep, st.state? dep = some .skipped
  | _ => True

theorem dependencyGate_skipped {deps : List String} (h : dependencyGate st deps = .skipped) :
    ∃ dep, st.state? dep = some .skipped := by
  unfold dependencyGate at h
  split at h
  · cases h
  · split at h
    · next hany =>
      obtain ⟨dep, -, hdep⟩ := List.any_eq_true.mp hany
      exact ⟨dep, by simpa using hdep⟩
    · cases h

variable [Platform]

private theorem suits_decideMergeBranch (d : Dag) (st : DagState) (node : WorkflowNode)
    (merge : MergeConfig) (selected : String) (branch : MergeBranch) :
    (d.decideMergeBranch st node merge selected branch).Suits st .merge := by
  unfold Dag.decideMergeBranch
  simp only
  repeat' split
  all_goals simp [NodeDecision.Suits]

private theorem suits_decideMerge (d : Dag) (st : DagState) (node : WorkflowNode) :
    (d.decideMerge st node).Suits st .merge := by
  unfold Dag.decideMerge
  simp only
  repeat' split
  all_goals first | exact suits_decideMergeBranch .. | simp [NodeDecision.Suits]

/-- An evaluation decides only what suits the kind of the node. -/
theorem Dag.suits_decide (d : Dag) (st : DagState) (node : WorkflowNode) :
    (d.decide st node).Suits st node.type := by
  unfold Dag.decide
  split
  · next h => rw [h]; exact suits_decideMerge d st node
  · next hm =>
    split
    · simp [NodeDecision.Suits]
    · next hgate => exact .inr (dependencyGate_skipped hgate)
    · split
      · next h =>
        rw [h]
        unfold Dag.decideChoice
        split <;> simp [NodeDecision.Suits]
      · next h => rw [h]; rfl
      · next h =>
        rw [h]
        unfold Dag.decideDelay
        split
        · simp [NodeDecision.Suits]
        · split <;> simp [NodeDecision.Suits]
      · next h1 h2 h3 =>
        have hk : node.type = .task := by
          cases hk : node.type <;> simp_all
        rw [hk]
        unfold Dag.decideTask
        split
        · rfl
        · split
          · simp [NodeDecision.Suits]
          · split <;> simp [NodeDecision.Suits]

/-! ### Approvals and delays -/

theorem failRun_settles (hf : c.run.steps.find? id = some s) (hp : s.Pending) (reason : String)
    (actor : Option ActorID) :
    Commits (failRunForStepTx id reason actor) c fun _ c' =>
      c.view.Leads c'.view ∧ c.run.Settles c'.run := by
  refine (failRunForStepTx_leads hf hp.not_succeeded reason actor).and ?_
  refine (failRunForStepTx_spec id reason actor c).mono ?_
  rintro _ c' ⟨now, closedAt, r', hends, hview⟩
  have hrun : c'.run = r' := congrArg View.run hview
  rw [hrun]
  exact Run.settles_failFast hf hp hends

/-- What a request for the approval of a step leaves: nothing to wait for, which in an open run is
because there was an approval or the step had left `BLOCKED`, or a waiting step. -/
def RunScope.Asks (c : RunScope) (id : StepID) (s : Step) (created : Bool) (c' : RunScope) : Prop :=
  c.view.Leads c'.view ∧ ((created = false ∧ c.run.Settles c'.run ∧
      (s.state = .blocked → s.approval = none → c'.run.status.closing = true)) ∨
    (created = true ∧ ∃ s', s'.nodeID = s.nodeID ∧ s'.output = s.output ∧ s'.state = .waiting ∧
      c'.run.steps = (c.run.setStep id s').steps))

/-- An approval request: refused if there is one, and only a blocked step is parked. -/
theorem requestApproval_spec (hf : c.run.steps.find? id = some s) (hk : s.kind = .approval)
    (hp : s.Pending) (node : String) (cfg : ApprovalNodeConfig) (payload : Json) :
    Commits (requestApproval id node cfg payload) c (c.Asks id s) := by
  simp only [requestApproval, commits_bind, commits_note, commits_getRun,
    commits_getStep]
  intro s' hs'
  obtain rfl := Option.mem_unique hf hs'
  simp only [commits_ite, commits_pure, commits_bind, commits_newID,
    commits_clockTimestamp, commits_updateStep, commits_appendRunEvent,
    commits_modifyRun]
  refine ⟨fun hsome => ⟨View.Leads.idle c.view _, .inl ⟨rfl, .refl _, fun _ hnone => ?_⟩⟩,
    fun hnone => ?_⟩
  · simp [hnone] at hsome
  have hnone : s.approval = none := by simpa using hnone
  simp only [RunScope.run_tick, RunScope.run_draw, RunScope.run_visit, RunScope.run_withRun]
  rw [Run.updateStep_of_find hf rfl]
  generalize ha : newApproval _ cfg payload _ _ = a
  have ha : a.status = .pending := by
    rw [← ha]
    rfl
  refine ⟨fun hb hslot => ⟨?_, .inr ⟨rfl, _, ?_, ?_, ?_, StatusMove.control.steps_apply _⟩⟩,
    fun hb => ?_⟩
  · have hl := View.Leads.visited (v := c.view) hf (.requestApproval a ha hnone hk hb) (by
      rintro _ ⟨⟩
      exact (Run.anyStep_eq_true _ _).mpr ⟨id, _, Run.find?_setStep_self _ hf, by
        rw [Step.requestApproval_blocked hb]; simpa using hk⟩)
    exact hl.trans (View.Leads.event_apply .control _ rfl (by simp) hslot _)
  · rw [Step.requestApproval_blocked hb]
  · rw [Step.requestApproval_blocked hb]
  · rw [Step.requestApproval_blocked hb]
  · have hclosed : s.Closed := hp.resolve_left hb
    refine ⟨View.Leads.visited (v := c.view) hf (.lateApproval a ha hnone hk hclosed) (by simp),
      .inl ⟨rfl, ?_, fun h => absurd h hb⟩⟩
    rw [Step.requestApproval_closed hclosed]
    exact .setStep hf rfl rfl rfl

/-- An approval step is opened, or the run fails because its payload cannot be mapped. -/
theorem openApprovalTx_spec (hf : c.run.steps.find? id = some s) (hk : s.kind = .approval)
    (hp : s.Pending) (node : WorkflowNode) (runInput : Json) (outputs : Outputs) :
    Commits (openApprovalTx id node runInput outputs) c (c.Asks id s) := by
  unfold openApprovalTx
  cases node.approval with
  | none =>
    simp only [commits_bind, commits_fail]
    exact fun _ _ _ => trivial
  | some cfg =>
    simp only
    split
    · simp only [commits_bind, commits_pure]
      refine ((failRun_settles hf hp _ _).and (failRunForStepTx_closing _ _ _ c)).mono ?_
      exact fun _ _ h => ⟨h.1.1, .inl ⟨rfl, h.1.2, fun _ _ => h.2⟩⟩
    · exact requestApproval_spec hf hk hp _ _ _

/-- A delay: its timer is armed, and only a blocked step is parked. -/
theorem scheduleDelayTx_spec (hf : c.run.steps.find? id = some s) (hk : s.kind = .delay)
    (hp : s.Pending) (delayMs : Int) :
    Commits (scheduleDelayTx id delayMs) c fun timer c' => c.view.Leads c'.view ∧
      (s.timers = [] → timer.2 = true) ∧ ∃ s', s'.nodeID = s.nodeID ∧ s'.output = s.output ∧
        (s.state = .blocked → s'.state = .waiting) ∧
        c'.run.steps = (c.run.setStep id s').steps := by
  simp only [scheduleDelayTx, commits_bind, commits_require, commits_note,
    commits_clockTimestamp, commits_getStep]
  intro _ s' hs'
  obtain rfl := Option.mem_unique hf hs'
  refine (newTimer_spec s .delay _ _ _ _ _).mono ?_
  rintro timer c1 ⟨harms, hview⟩
  have hrun : c1.run = c.run := congrArg View.run hview
  have htr : c1.sys.trace = c.sys.trace ++ [⟨.scheduleDelay id, c.run⟩] := congrArg View.trace hview
  simp only [commits_updateStep, commits_ite, commits_bind, commits_modifyRun,
    commits_pure, RunScope.run_withRun, hrun]
  rw [Run.updateStep_of_find hf rfl]
  generalize s.dueOf .delay _ = dueAt
  have hnew (ht : s.timers = []) : timer.isSome = true := by
    rw [Option.isSome_iff_ne_none]
    intro hnone
    simpa [Step.hasPending, ht] using harms.2 hnone
  refine ⟨fun hb => ⟨?_, hnew, _, ?_, ?_, ?_, StatusMove.delayWait.steps_apply _⟩,
    fun hb => ⟨?_, hnew, _, ?_, ?_, fun h => absurd h hb, rfl⟩⟩
  · have hl := View.Leads.visited (v := c.view) hf (.parkDelay timer dueAt harms hk hb) (by
      rintro _ ⟨⟩
      trivial)
    simp only [RunScope.trace_view, RunScope.run_view, ← htr] at hl
    exact hl
  · rw [Step.parkDelay_blocked hb]
  · rw [Step.parkDelay_blocked hb]
  · rw [Step.parkDelay_blocked hb]
    exact fun _ => rfl
  · have hl := View.Leads.visited (v := c.view) hf
      (.lateDelay timer dueAt harms hk (hp.resolve_left hb)) (by simp)
    simp only [RunScope.trace_view, RunScope.run_view, ← htr] at hl
    exact hl
  · rw [Step.parkDelay_closed (hp.resolve_left hb)]
  · rw [Step.parkDelay_closed (hp.resolve_left hb)]

/-! ### Evaluation -/

/-- An evaluation that keeps its memory true. -/
structure DagState.Follows (st : DagState) (c : RunScope) (v : View) : Prop where
  mirrors : st.Mirrors c.run
  leads : v.Leads c.view
  nodes : st.steps.map Prod.fst = v.run.dagSteps.map Prod.fst
  spares : v.run.Spares c.run

omit [Platform] in
theorem DagState.nodes_setState (st : DagState) (node : String) (state : StepState) :
    (st.setState node state).steps.map Prod.fst = st.steps.map Prod.fst := by
  simp only [setState, List.map_map]
  refine List.map_congr_left fun e _ => ?_
  simp only [Function.comp_apply]
  split <;> rfl

omit [Platform] in
theorem View.Leads.open_of_open (hl : c.view.Leads c'.view) (h : c'.run.status.closing = false) :
    c.run.status.closing = false := by
  cases hc : c.run.status.closing with
  | false => rfl
  | true => exact absurd (hl.closing hc) (by simpa using h)

omit [Platform] in
/-- A step with a new remembered state, after a path that replaced only that step. -/
theorem DagState.Follows.advance {st' : DagState} (h : st.Follows c v) (hshape : c.run.Shaped)
    {s' : Step} (hf : c.run.steps.find? id = some s) (hp : s.Pending) (hn' : s'.nodeID = s.nodeID)
    {state : StepState} (hb : state ≠ .blocked) (ht : state.terminal = true → s'.state = state)
    (hx : c.run.status.closing = false → s'.state = state)
    (hst : st'.steps = (st.setState s.nodeID state).steps) (hl : c.view.Leads c'.view)
    (hsteps : c'.run.steps = (c.run.setStep id s').steps) : st'.Follows c' v :=
  ⟨(h.mirrors.advance hshape hf rfl hn' hb ht hx).congr hst hsteps hl.open_of_open, h.leads.trans hl,
    by rw [hst, DagState.nodes_setState, h.nodes],
    (h.spares.trans (.setStep hf hp.not_succeeded s')).trans (.of_steps hsteps)⟩

omit [Platform] in
/-- A path that settles the run leaves the memory true. -/
theorem DagState.Follows.settles (h : st.Follows c v) (hl : c.view.Leads c'.view)
    (hs : c.run.Settles c'.run) : st.Follows c' v :=
  ⟨h.mirrors.settles hs hl.open_of_open, h.leads.trans hl, h.nodes, h.spares.trans hs.spares⟩

omit [Platform] in
theorem DagState.Follows.find (h : st.Follows c v) {node : String} {ds : DagStep}
    (hd : st.step? node = some ds) (hb : ds.state = .blocked) :
    ∃ s, c.run.steps.find? ds.id = some s ∧ s.nodeID = node ∧ s.Pending ∧
      (c.run.status.closing = false → s.state = .blocked) := by
  obtain ⟨s, hs, hn, hp, -, -, hx⟩ := h.mirrors _ (DagState.mem_of_step? hd)
  exact ⟨s, hs, hn, hp hb, fun h => (hx h).trans hb⟩

omit [Platform] in
theorem DagState.Follows.written {st' : DagState} (h : st.Follows c v) (hshape : c.run.Shaped)
    (hf : c.run.steps.find? id = some s) {f : Step → Step} {t : EventType} {x : Payload}
    (hm : s.state = .blocked → Step.Moves c.run id s none none (f s)) (ht : t.terminal = false)
    (hx : t = .stepSucceeded → x.lookup "stepId" = some (idJson id) ∧ (f s).state = .succeeded)
    (hb : (f s).state ≠ .blocked) (hn : (f s).nodeID = s.nodeID)
    (hst : st'.steps = (st.setState s.nodeID (f s).state).steps) :
    Commits (writeBlocked id f t x) c fun hit c' =>
      (if hit then st' else st).Follows c' v := by
  refine (writeBlocked_spec hf hm ht hx).mono ?_
  rintro hit c' (⟨rfl, hs, hl, hsteps⟩ | ⟨rfl, hview⟩)
  · exact h.advance hshape hf (.inl hs) hn hb (fun _ => rfl) (fun _ => rfl) hst hl hsteps
  · have hrun : c'.run = c.run := congrArg View.run hview
    refine ⟨?_, by rw [hview]; exact h.leads, h.nodes, by rw [hrun]; exact h.spares⟩
    simpa [hrun] using h.mirrors

/-- A node whose kind skips others. -/
def NodeType.branching (kind : NodeType) : Bool := kind == .choice || kind == .merge

omit [Platform] in
theorem Run.branches_of_kind {r : Run} (h : r.anyStep (fun s => NodeType.branching s.kind) = true) :
    r.branches = true := by
  obtain ⟨id, s, hs, hk⟩ := (anyStep_eq_true _ _).mp h
  refine (anyStep_eq_true _ _).mpr ⟨id, s, hs, ?_⟩
  simp only [NodeType.branching] at hk
  simp [hk]

omit [Platform] in
theorem View.Leads.branches (hl : v.Leads c.view) (hv : v.run.Sound)
    (h : v.run.anyStep (fun s => NodeType.branching s.kind) = true) : c.run.branches = true :=
  Run.branches_of_kind
    ((hv.shaped.anyKind (hl.sound hv).shaped hl.workflow? NodeType.branching).trans h)

omit [Platform] in
theorem skipUnselected_follows (h : st.Follows c v) (hv : v.run.Sound)
    (hk : v.run.anyStep (fun s => NodeType.branching s.kind) = true) (node : String) :
    Commits (skipUnselected st node) c fun st' c' => st'.Follows c' v := by
  unfold skipUnselected
  cases hd : st.step? node with
  | none => simpa using h
  | some ds =>
    simp only [commits_ite, commits_bind, commits_pure]
    refine ⟨fun hb => ?_, fun _ => h⟩
    obtain ⟨s, hf, rfl, -⟩ := h.find hd hb
    exact h.written (h.leads.sound hv).shaped hf (fun hs => .skip _ hs (h.leads.branches hv hk)) rfl
      (by simp) (by simp [Step.skip]) rfl rfl

omit [Platform] in
theorem DagState.Follows.branches (h : st.Follows c v) {node : String}
    (hs : st.state? node = some .skipped) : c.run.branches = true := by
  obtain ⟨ds, hd, hst⟩ := Option.map_eq_some_iff.mp hs
  obtain ⟨s, hf, -, -, -, hk, -⟩ := h.mirrors _ (DagState.mem_of_step? hd)
  refine (Run.anyStep_eq_true _ _).mpr ⟨_, s, hf, ?_⟩
  simp [hk (by rw [hst]; rfl), hst]

omit [Platform] in
/-- A remembered choice or merge is one of the run's. -/
theorem DagState.Follows.branching (h : st.Follows c v) (hv : v.run.Sound)
    (hf : c.run.steps.find? id = some s) (hk : s.kind = .choice ∨ s.kind = .merge) :
    v.run.anyStep (fun s => NodeType.branching s.kind) = true := by
  rw [← hv.shaped.anyKind (h.leads.sound hv).shaped h.leads.workflow?]
  exact (Run.anyStep_eq_true _ _).mpr
    ⟨_, s, hf, by rcases hk with h | h <;> simp [h, NodeType.branching]⟩

omit [Platform] in
theorem DagState.Follows.succeedControl (h : st.Follows c v) (hshape : c.run.Shaped)
    (hf : c.run.steps.find? id = some s) (hk : s.kind = .choice ∨ s.kind = .merge) (output : Json) :
    Commits (succeedControl id s.nodeID output) c fun hit c' =>
      (if hit then ((st.setState s.nodeID .succeeded).setOutput s.nodeID output).touch.count
        else st).Follows c' v :=
  h.written hshape hf (fun hs => .succeedControl output hs hk) rfl (fun _ => ⟨rfl, rfl⟩)
    (by simp [Step.succeed]) rfl rfl

theorem applyDecision_follows (h : st.Follows c v) (hv : v.run.Sound)
    (hwf : v.run.workflow? = some d.workflow) {node : WorkflowNode}
    (hnode : node ∈ d.workflow.nodes) {ds : DagStep} (hd : st.step? node.id = some ds)
    (hb : ds.state = .blocked) {dec : NodeDecision} (hdec : dec.Suits st node.type) :
    Commits (applyDecision d st node ds.id dec) c fun res c' => res.1.Follows c' v := by
  have hshape := (h.leads.sound hv).shaped
  obtain ⟨s, hf, hn, hp, hx⟩ := h.find hd hb
  have hk : s.kind = node.type := hshape.kind (h.leads.workflow?.trans hwf) hnode hf hn
  unfold applyDecision
  cases dec with
  | wait => simpa using h
  | skip =>
    simp only [commits_bind, commits_pure]
    have hbr : c.run.branches = true := by
      rcases hdec with hdec | ⟨dep, hdep⟩
      · exact Run.branches_of_kind
          ((Run.anyStep_eq_true _ _).mpr ⟨_, s, hf, by simp [hk, hdec, NodeType.branching]⟩)
      · exact h.branches hdep
    rw [← hn]
    exact h.written hshape hf (fun hs => .skip _ hs hbr) rfl (by simp) (by simp [Step.skip]) rfl rfl
  | ready =>
    simp only [readyTask, commits_bind, commits_clockTimestamp, commits_pure]
    rw [← hn]
    exact DagState.Follows.written (c := c.tick) ⟨h.mirrors, h.leads, h.nodes, h.spares⟩ hshape hf (fun hs => .ready _ hs (hk.trans hdec))
      rfl (by simp) (by simp [Step.makeReady]) rfl rfl
  | fail code =>
    simp only [commits_bind, commits_pure]
    exact (failRun_settles hf hp code none).mono fun _ _ hl => h.settles hl.1 hl.2
  | succeed output unselected =>
    simp only [commits_bind]
    have hkind : s.kind = .choice ∨ s.kind = .merge := by
      rw [hk]
      exact hdec
    have hbr := h.branching hv hf hkind
    rw [← hn]
    refine (h.succeedControl hshape hf hkind output).mono ?_
    rintro hit c1 h1
    cases hit with
    | false => simpa using h1
    | true =>
      simp only [if_true, commits_bind, commits_pure] at h1 ⊢
      exact commits_foldEach (fun node _ st c hst => skipUnselected_follows hst hv hbr node) _ c1 h1
  | approval =>
    simp only [commits_bind, commits_pure]
    refine (openApprovalTx_spec hf (hk.trans hdec) hp _ _ _).mono ?_
    rintro created c' ⟨hl, ⟨rfl, hs, -⟩ | ⟨rfl, s', hs', -, hstate, hsteps⟩⟩
    · exact h.settles hl hs
    · rw [← hn]
      exact h.advance hshape hf hp hs' (by simp) (fun _ => hstate) (fun _ => hstate) rfl hl hsteps
  | delay delayMs =>
    simp only [commits_bind]
    refine (scheduleDelayTx_spec hf (hk.trans hdec) hp delayMs).mono ?_
    rintro timer c' ⟨hl, -, s', hs', -, hstate, hsteps⟩
    rw [← hn]
    have hw : (st.setState s.nodeID .waiting).Follows c' v :=
      h.advance hshape hf hp hs' (by simp) (by simp [StepState.terminal]) (fun hc => hstate (hx hc)) rfl
        hl hsteps
    simp only [commits_ite, commits_bind, commits_appendRunEvent, commits_pure]
    refine ⟨fun _ hslot => ?_, fun _ => hw⟩
    exact ⟨hw.mirrors.congr rfl rfl fun hc => hc,
      hw.leads.trans (View.Leads.event .stepWaiting _ rfl (by simp) hslot), hw.nodes, hw.spares⟩

theorem evaluateNode_follows (h : st.Follows c v) (hv : v.run.Sound)
    (hwf : v.run.workflow? = some d.workflow) {node : WorkflowNode}
    (hnode : node ∈ d.workflow.nodes) :
    Commits (evaluateNode d st node) c fun res c' => res.1.Follows c' v := by
  unfold evaluateNode
  cases hd : st.step? node.id with
  | none => simpa using h
  | some ds =>
    simp only [commits_ite, commits_pure]
    exact ⟨fun hb => applyDecision_follows h hv hwf hnode hd hb (d.suits_decide st node), fun _ => h⟩

theorem evaluateNodes_follows (hv : v.run.Sound) (hwf : v.run.workflow? = some d.workflow)
    (nodes : List WorkflowNode) (hnodes : ∀ n ∈ nodes, n ∈ d.workflow.nodes) (st : DagState)
    (c : RunScope) (h : st.Follows c v) :
    Commits (evaluateNodes d nodes st) c fun res c' => res.1.Follows c' v := by
  induction nodes generalizing st c with
  | nil => simpa [evaluateNodes] using h
  | cons node rest ih =>
    unfold evaluateNodes
    refine (evaluateNode_follows h hv hwf (hnodes node (by simp))).bind ?_
    intro res c' h'
    simp only [commits_ite, commits_pure]
    exact ⟨fun _ => h', fun _ => ih (fun n hn => hnodes n (by simp [hn])) res.1 c' h'⟩

theorem evaluatePasses_follows (hv : v.run.Sound) (hwf : v.run.workflow? = some d.workflow)
    (fuel : Nat) (st : DagState) (c : RunScope) (h : st.Follows c v) :
    Commits (evaluatePasses d fuel st) c fun res c' => res.1.Follows c' v := by
  induction fuel generalizing st c with
  | zero => simpa [evaluatePasses] using h
  | succ fuel ih =>
    unfold evaluatePasses
    refine Commits.bind (evaluateNodes_follows hv hwf d.workflow.nodes (fun _ hn => hn)
      { st with changed := false } c
        ⟨h.mirrors.congr rfl rfl fun hc => hc, h.leads, h.nodes, h.spares⟩) ?_
    intro res c' h'
    simp only [commits_ite, commits_pure]
    exact ⟨fun _ => h', fun _ => ⟨fun _ => ih res.1 c' h', fun _ => h'⟩⟩

/-- A decision reports a failure of the run only after it. -/
theorem applyDecision_failed (d : Dag) (st : DagState) (node : WorkflowNode) (id : StepID)
    (dec : NodeDecision) (c : RunScope) :
    Commits (applyDecision d st node id dec) c fun res c' =>
      res.2 = true → c'.run.status.closing = true := by
  unfold applyDecision
  cases dec with
  | fail code =>
    simp only [commits_bind, commits_pure]
    exact (failRunForStepTx_closing id code none c).mono fun _ _ h _ => h
  | wait => simp
  | skip => simp only [commits_bind, commits_pure]; exact fun _ _ _ => by simp
  | ready => simp only [commits_bind, commits_pure]; exact fun _ _ _ => by simp
  | approval => simp only [commits_bind, commits_pure]; exact fun _ _ _ => by simp
  | succeed output unselected =>
    simp only [commits_bind, commits_ite, commits_pure]
    exact fun _ _ _ => ⟨fun _ _ _ _ => by simp, fun _ => by simp⟩
  | delay delayMs =>
    simp only [commits_bind, commits_ite, commits_pure]
    exact fun _ _ _ => ⟨fun _ _ _ _ => by simp, fun _ => by simp⟩

theorem evaluateNode_failed (d : Dag) (st : DagState) (node : WorkflowNode) (c : RunScope) :
    Commits (evaluateNode d st node) c fun res c' =>
      res.2 = true → c'.run.status.closing = true := by
  unfold evaluateNode
  cases st.step? node.id with
  | none => simp
  | some ds =>
    simp only [commits_ite, commits_pure]
    exact ⟨fun _ => applyDecision_failed d st node ds.id _ c, fun _ => by simp⟩

theorem evaluateNodes_failed (d : Dag) (nodes : List WorkflowNode) (st : DagState) (c : RunScope) :
    Commits (evaluateNodes d nodes st) c fun res c' =>
      res.2 = true → c'.run.status.closing = true := by
  induction nodes generalizing st c with
  | nil => simp [evaluateNodes]
  | cons node rest ih =>
    unfold evaluateNodes
    refine (evaluateNode_failed d st node c).bind fun res c' h => ?_
    simp only [commits_ite, commits_pure]
    exact ⟨fun _ => h, fun _ => ih res.1 c'⟩

theorem evaluatePasses_failed (d : Dag) (fuel : Nat) (st : DagState) (c : RunScope) :
    Commits (evaluatePasses d fuel st) c fun res c' =>
      res.2 = true → c'.run.status.closing = true := by
  induction fuel generalizing st c with
  | zero => simp [evaluatePasses]
  | succ fuel ih =>
    unfold evaluatePasses
    refine (evaluateNodes_failed d d.workflow.nodes _ c).bind fun res c' h => ?_
    simp only [commits_ite, commits_pure]
    exact ⟨fun _ => h, fun _ => ⟨fun _ => ih res.1 c', fun _ => h⟩⟩

/-- An evaluation of a sound run is a path, and its memory is true of the rows at the end. -/
theorem evaluateBlockedDAGTx_follows (hv : c.run.Sound) (hwf : c.run.workflow? = some d.workflow)
    (outputs : Outputs) :
    Commits (evaluateBlockedDAGTx d c.run.dagSteps outputs) c fun res c' =>
      res.1.Follows c' c.view :=
  evaluatePasses_follows (v := c.view) hv hwf _ _ c
    ⟨c.run.mirrors_dagSteps _ rfl, View.Leads.refl _, rfl, .of_steps rfl⟩

/-! ### Settlement -/

/-- The run is only settled when the memory shows every node terminal. -/
theorem settlement_nodes (h : settlement wf state? outputs input default ≠ .open) :
    ∀ n ∈ wf.nodes, ∃ st, state? n.id = some st ∧ st.terminal = true := by
  unfold settlement at h
  split at h
  · exact absurd rfl h
  · next hall =>
    intro n hn
    simp only [List.any_eq_true, not_exists, not_and] at hall
    have := hall n hn
    cases hs : state? n.id with
    | none => simp [hs] at this
    | some st => exact ⟨st, rfl, by simpa [hs] using this⟩

theorem settlement_of_nodes (h : ∀ n ∈ wf.nodes, ∃ st, state? n.id = some st ∧ st.terminal = true) :
    settlement wf state? outputs input default ≠ .open := by
  unfold settlement
  rw [if_neg]
  · split
    · split
      · simp
      · split
        · simp
        · split <;> simp
    · simp
  · simp only [List.any_eq_true, not_exists, not_and]
    intro n hn
    obtain ⟨st, hst, hterm⟩ := h n hn
    simp [hst, hterm]

/-- A run is settled when the given states say of every node that it is terminal, and is
otherwise left alone. -/
theorem settleRunTerminalTx_leads
    (hall : (∀ n ∈ wf.nodes, ∃ st, state? n.id = some st ∧ st.terminal = true) →
      c.run.AllTerminal) :
    Commits (settleRunTerminalTx wf state? outputs input default) c fun settled c' =>
      c.view.Leads c'.view ∧ c'.run.steps = c.run.steps ∧ (settled = false → c'.run = c.run) ∧
        ((settled = true ∨ ∀ n ∈ wf.nodes, ∃ st, state? n.id = some st ∧ st.terminal = true) →
          c'.run.status.terminal = true) := by
  have hn (h : settlement wf state? outputs input default ≠ .open) := settlement_nodes h
  unfold settleRunTerminalTx
  cases hs : settlement wf state? outputs input default with
  | «open» =>
    simp only [commits_pure]
    exact ⟨View.Leads.refl c.view, trivial, fun _ => trivial,
      fun h => absurd hs (settlement_of_nodes (h.resolve_left (by simp)))⟩
  | tooLarge => simp
  | failed reason payload =>
    have hall := hall (hn (by simp [hs]))
    simp only [commits_bind, commits_note, commits_updateRun, commits_ite,
      commits_appendRunEvent, commits_pure, RunScope.run_withRun]
    refine ⟨fun hopen hslot => ?_, fun hopen => ?_⟩
    · rw [if_pos hopen] at hslot ⊢
      exact ⟨View.Leads.single (.close (.settleFailed reason (by simpa using hopen) hall)
        (Run.Logs.refl.ends hslot payload)), rfl, fun h => absurd h (by simp), fun _ => rfl⟩
    · rw [if_neg hopen]
      exact ⟨View.Leads.idle c.view _, rfl, fun _ => rfl, fun _ => by simpa using hopen⟩
  | succeeded output =>
    have hall := hall (hn (by simp [hs]))
    simp only [commits_bind, commits_note, commits_updateRun, commits_ite,
      commits_appendRunEvent, commits_pure, RunScope.run_withRun]
    refine ⟨fun hopen hslot => ?_, fun hopen => ?_⟩
    · rw [if_pos hopen] at hslot ⊢
      exact ⟨View.Leads.single (.close (.settleSucceeded output (by simpa using hopen) hall)
        (Run.Logs.refl.ends hslot _)), rfl, fun h => absurd h (by simp), fun _ => rfl⟩
    · rw [if_neg hopen]
      exact ⟨View.Leads.idle c.view _, rfl, fun _ => rfl, fun _ => by simpa using hopen⟩

omit [Platform] in
/-- A true memory that shows every node terminal speaks of every step. -/
theorem DagState.Mirrors.allTerminal {r : Run} (h : st.Mirrors r) (hr : r.Shaped)
    (hwf : r.workflow? = some wf)
    (hall : ∀ n ∈ wf.nodes, ∃ x, st.state? n.id = some x ∧ x.terminal = true) : r.AllTerminal := by
  rw [Run.AllTerminal, Run.eachStep_iff]
  intro id s hs
  obtain ⟨n, hn, hid⟩ := hr.node hwf hs
  obtain ⟨x, hx, hterm⟩ := hall n hn
  obtain ⟨ds, hds, rfl⟩ := Option.map_eq_some_iff.mp hx
  obtain ⟨s', hs', hn', -, ht, -⟩ := h _ (mem_of_step? hds)
  obtain ⟨-, rfl⟩ := hr.unique hs hs' (by rw [hn', hid])
  exact ht hterm

omit [Platform] in
/-- The memory of an open run whose steps are all terminal shows every node terminal. -/
theorem DagState.Follows.allTerminal (h : st.Follows c v) (hv : v.run.Sound)
    (hwf : v.run.workflow? = some wf) (hopen : c.run.status.closing = false)
    (hall : c.run.AllTerminal) :
    ∀ n ∈ wf.nodes, ∃ x, st.state? n.id = some x ∧ x.terminal = true := by
  obtain ⟨wf', hwf', hrows, -⟩ := hv.shaped
  obtain rfl := Option.mem_unique hwf hwf'
  have hids := congrArg (List.map Prod.fst) hrows
  simp only [List.map_map, Function.comp_def] at hids
  intro n hn
  have hmem : n.id ∈ st.steps.map Prod.fst := by
    rw [h.nodes, Run.dagSteps, List.map_map]
    exact hids ▸ List.mem_map.mpr ⟨n, hn, rfl⟩
  cases hds : st.step? n.id with
  | none =>
    obtain ⟨e, he, hid⟩ := List.mem_map.mp hmem
    exact absurd (List.lookup_eq_none_iff.mp hds e he) (by simp [hid])
  | some ds =>
    obtain ⟨s, hs, -, -, -, -, hx⟩ := h.mirrors _ (mem_of_step? hds)
    refine ⟨ds.state, by simp [DagState.state?, hds], ?_⟩
    rw [← hx hopen]
    exact Run.EachStep.find hall hs

/-- A finished run is closed, unless a case is open. -/
def Run.Finished (r : Run) : Prop :=
  r.AllTerminal → r.status.closing = true ∨ r.hasOpenCase = true

omit [Platform] in
theorem RunStatus.closing_of_terminal {s : RunStatus} (h : s.terminal = true) :
    s.closing = true := by
  cases s <;> first | rfl | cases h

/-- The advancement after a success is a path, and closes a finished run. -/
theorem advanceAfterStepSuccessTx_leads (hv : c.run.Sound) (default : Json) :
    Commits (advanceAfterStepSuccessTx default) c fun _ c' =>
      c.view.Leads c'.view ∧ c'.run.Finished ∧ c.run.Spares c'.run := by
  obtain ⟨wf, hwf, -⟩ := hv.shaped
  simp only [advanceAfterStepSuccessTx, commits_bind, commits_getRun, hwf]
  refine ((evaluateBlockedDAGTx_follows (d := c.run.dag wf "") hv hwf _).and
    (evaluatePasses_failed _ _ _ _)).mono ?_
  rintro res c1 ⟨h, hfailed⟩
  simp only [commits_ite, commits_pure, commits_bind]
  refine ⟨fun hf => ⟨h.leads, fun _ => .inl (hfailed hf), h.spares⟩, fun _ => ?_⟩
  have hsound := h.leads.sound hv
  refine (settleRunTerminalTx_leads fun hall => h.mirrors.allTerminal hsound.shaped
    (h.leads.workflow?.trans hwf) hall).mono ?_
  rintro settled c2 ⟨hl, hsteps, hsame, hterm⟩
  refine ⟨h.leads.trans hl, fun hall => .inl ?_, h.spares.trans (.of_steps hsteps)⟩
  cases hc : c1.run.status.closing with
  | true => exact hl.closing hc
  | false =>
    cases settled with
    | false =>
      exact RunStatus.closing_of_terminal
        (hterm (.inr (h.allTerminal hv hwf hc (hsame rfl ▸ hall))))
    | true => exact RunStatus.closing_of_terminal (hterm (.inl rfl))

end Deadbolt.Execution

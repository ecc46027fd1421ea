import Deadbolt.Lifecycle.Decision
import Deadbolt.Lifecycle.Outputs

/-!
# The fixed point of an evaluation

A pass of `evaluateBlockedDAGTx` that changes something takes a node out of `BLOCKED`, so there are
never more passes than nodes and one. The pass that ends an evaluation of an open run decides to
wait for every node that is still `BLOCKED`, and the rows it commits are what it remembers: an
evaluation of those rows decides the same.
-/

namespace Deadbolt.Execution

open Base Contracts Tx RunTx

/-! ### Untouched steps -/

namespace Step

/-- A `BLOCKED` step has neither an approval nor a timer. -/
def Untouched (s : Step) : Prop := s.state = .blocked → s.approval = none ∧ s.timers = []

variable {s s' : Step} {r r' : Run} {id : StepID}

theorem Untouched.of_same (h : s.Untouched) (hs : s'.state = s.state)
    (ha : s'.approval = s.approval) (ht : s'.timers = s.timers) : s'.Untouched := by
  rw [Untouched, hs, ha, ht]
  exact h

theorem untouched_of_left (h : s'.state ≠ .blocked) : s'.Untouched := fun hb => absurd hb h

theorem Moves.untouched {k : Option VisitKind} {u : Option StatusMove} (hm : Moves r id s k u s')
    (h : s.Untouched) : s'.Untouched := by
  cases hm with
  | mint now windowMs =>
    obtain ⟨v, hv⟩ := mintWindow_eq s (now + millis windowMs)
    rw [hv]
    exact h.of_same rfl rfl rfl
  | derive x windowMs =>
    obtain ⟨v, hv⟩ := mintWindow_eq s (x.createdAt + durationMs windowMs)
    rw [hv]
    exact h.of_same rfl rfl rfl
  | requestApproval a _ _ _ hs =>
    rw [requestApproval_blocked hs]
    exact untouched_of_left (by simp)
  | lateApproval a _ _ _ hs =>
    rw [requestApproval_closed hs]
    exact untouched_of_left hs.not_blocked
  | parkDelay timer dueAt _ _ hs =>
    rw [parkDelay_blocked hs]
    exact untouched_of_left (by simp)
  | lateDelay timer dueAt _ _ hs =>
    rw [parkDelay_closed hs]
    exact untouched_of_left hs.not_blocked
  | start => exact h.of_same rfl rfl rfl
  | renew => exact h.of_same rfl rfl rfl
  | acknowledge => exact h.of_same rfl rfl rfl
  | park a _ _ _ _ _ hp => cases hp <;> exact untouched_of_left (by simp [parkRetry, hold])
  | fence a epoch error now =>
    unfold Step.fence
    split
    · exact untouched_of_left (by simp)
    · exact h.of_same rfl rfl rfl
  | _ => exact untouched_of_left (by simp [Step.skip, succeed, makeReady, Step.grant, hold])

theorem Unsettles.untouched {k : VisitKind} (hm : Unsettles r id s k s') (h : s.Untouched) :
    s'.Untouched := by
  cases hm with
  | finish a _ _ hs => exact untouched_of_left (by simp [hs])
  | confirm case actor now result =>
    split
    · exact untouched_of_left (by simp [resolveCase, succeed])
    · exact h.of_same rfl rfl rfl
  | retry => exact untouched_of_left (by simp [resolveCase, parkRetry])

theorem Transits.untouched {tr : List Visit} (ht : Transits r r' tr id s s')
    (hq : r'.status.closing = true → s'.state ≠ .blocked) (h : s.Untouched) : s'.Untouched := by
  cases ht with
  | same => exact h
  | moves hm => exact hm.untouched h
  | unsettles hm => exact hm.untouched h
  | winds _ hr _ => exact untouched_of_left (hq hr)
  | closes _ _ _ _ hr => exact untouched_of_left (hq (by rw [hr]; rfl))
  | held hs _ =>
    obtain ⟨cases, rfl⟩ := hs.eq
    exact untouched_of_left (by simp [awaitOperator])

end Step

def Run.Untouched (r : Run) : Prop := ∀ k s, r.steps.find? k = some s → s.Untouched

theorem Run.Created.untouched {r : Run} (h : r.Created) : r.Untouched := by
  intro k s hs _
  obtain ⟨n, t, rfl⟩ := h.step hs
  exact ⟨rfl, rfl⟩

theorem View.Operates.untouched {a b : View} (h : a.Operates b) (hs : a.run.Sound)
    (hu : a.run.Untouched) : b.run.Untouched := by
  refine h.invariant (J := fun v => v.run.Untouched) (P := fun _ => True) ?_ hs
    (fun _ _ => trivial) hu
  intro a b hs hu _ hc k s' hs'
  obtain ⟨s, hf, ht⟩ := hc.transits hs hs'
  exact ht.untouched (fun hq => (((hc.sound hs).quiet hq).find hs').2) (hu k s hf)

/-- The scopes an evaluation runs in: of a run that is being created, or of a run of the world after
any writes of a transaction on it. -/
def World.Opens (w : World) (c : RunScope) : Prop :=
  c.run.Created ∨ ∃ id r, w.db.runs.find? id = some r ∧ View.Operates ⟨r, w.db.sys.trace⟩ c.view

theorem World.Opens.attained [Platform] {fleet : Fleet} {os : List Operation} {c : RunScope}
    (h : (installation.exec (World.initial fleet) os).Opens c) : c.run.Sound ∧ c.run.Untouched := by
  rcases h with h | ⟨id, r, hr, hc⟩
  · exact ⟨h.sound, h.untouched⟩
  · obtain ⟨hs, -, hu⟩ := installation_run_invariant (I := Run.Untouched) (P := fun _ => True)
      (fun _ h => h.untouched)
      (fun a b hs hu _ hc => View.Operates.untouched (.single hc) hs hu) (fun _ _ _ => trivial) hr
    exact ⟨hc.sound hs, hc.untouched hs hu⟩

/-! ### Blocked nodes -/

namespace DagState

/-- The number of nodes the memory takes for `BLOCKED`. -/
def blocked (st : DagState) : Nat := st.steps.countP fun e => e.2.state == .blocked

/-- Nodes only leave `BLOCKED`, and one does so with the first change. -/
structure Shrinks (st st' : DagState) : Prop where
  blocked : st'.blocked ≤ st.blocked
  changed : st.changed = true → st'.changed = true
  strict : st'.changed = true → st.changed = true ∨ st'.blocked < st.blocked

variable {st st1 st2 : DagState} {node : String} {state : StepState} {ds : DagStep}

theorem Shrinks.refl (st : DagState) : st.Shrinks st := ⟨le_refl _, fun h => h, .inl⟩

theorem Shrinks.trans (h : st.Shrinks st1) (h' : st1.Shrinks st2) : st.Shrinks st2 where
  blocked := h'.blocked.trans h.blocked
  changed hc := h'.changed (h.changed hc)
  strict hc := by
    rcases h'.strict hc with h1 | hlt
    · exact (h.strict h1).imp_right h'.blocked.trans_lt
    · exact .inr (hlt.trans_le h.blocked)

theorem blocked_setState_le (hs : state ≠ .blocked) :
    (st.setState node state).blocked ≤ st.blocked := by
  rw [blocked, setState, List.countP_map]
  refine List.countP_mono_left fun e _ he => ?_
  simp only [Function.comp_apply] at he
  split at he
  · exact absurd (by simpa using he) hs
  · exact he

theorem blocked_setState_lt (hs : state ≠ .blocked) (hd : st.step? node = some ds)
    (hb : ds.state = .blocked) : (st.setState node state).blocked < st.blocked := by
  obtain ⟨l1, l2, hl, -⟩ := List.lookup_eq_some_iff.mp hd
  have hle (l : List (String × DagStep)) : (DagState.setState ⟨l, [], 0, false⟩ node state).blocked ≤
      DagState.blocked ⟨l, [], 0, false⟩ := blocked_setState_le hs
  have h1 := hle l1
  have h2 := hle l2
  simp only [blocked, setState, hl, List.map_append, List.map_cons, List.countP_append,
    List.countP_cons, hb, if_pos, beq_iff_eq, hs, if_false] at h1 h2 ⊢
  omega

theorem Shrinks.setState (state : StepState) (hs : state ≠ .blocked) (hd : st.step? node = some ds)
    (hb : ds.state = .blocked) {st' : DagState} (hst : st'.steps = (st.setState node state).steps)
    (hc : st.changed = true → st'.changed = true) : st.Shrinks st' := by
  have hlt : st'.blocked < st.blocked := by
    rw [DagState.blocked, hst]
    exact blocked_setState_lt hs hd hb
  exact ⟨hlt.le, hc, fun _ => .inr hlt⟩

end DagState

variable {d : Dag} {st : DagState} {c : RunScope}

theorem skipUnselected_shrinks (st : DagState) (node : String) (c : RunScope) :
    Commits (skipUnselected st node) c fun st' _ => st.Shrinks st' := by
  unfold skipUnselected
  cases hd : st.step? node with
  | none => simpa using DagState.Shrinks.refl st
  | some ds =>
    simp only [commits_ite, commits_bind, commits_pure]
    refine ⟨fun hb hit _ _ => ?_, fun _ => .refl st⟩
    dsimp only
    split
    · exact .setState .skipped (by simp) hd hb rfl fun h => h
    · exact .refl st

/-! ### Memories that agree -/

theorem lookup_congr {β : Type} {l l' : List (String × β)} (hl : (l.map Prod.fst).Nodup)
    (hl' : (l'.map Prod.fst).Nodup) (h : ∀ e, e ∈ l ↔ e ∈ l') (key : String) :
    l.lookup key = l'.lookup key := by
  ext v
  rw [Table.lookup_mem key v l hl, Table.lookup_mem key v l' hl', h]

/-- Outputs that every mapping reads alike. -/
structure Agree (outputs outputs' : Outputs) : Prop where
  lookup : ∀ key, outputs.lookup key = outputs'.lookup key
  check : (Json.obj outputs).check 0 = (Json.obj outputs').check 0

theorem agree_of_mem {outputs outputs' : Outputs} (hl : (outputs.map Prod.fst).Nodup)
    (hl' : (outputs'.map Prod.fst).Nodup) (h : ∀ e, e ∈ outputs ↔ e ∈ outputs') :
    Agree outputs outputs' where
  lookup := lookup_congr hl hl' h
  check := by
    rw [Bool.eq_iff_iff]
    simp only [Json.check, Json.checkMembers_eq, Bool.and_eq_true, List.all_eq_true, h]

section

variable {outputs outputs' : Outputs} (h : Agree outputs outputs')
include h

theorem Agree.mapInput (mapping input : Json) :
    mapInput mapping input outputs = Contracts.mapInput mapping input outputs' := by
  have href (ref : List (String × Json)) :
      mapReference ref input outputs = mapReference ref input outputs' := by
    simp only [mapReference, h.lookup]
  simp only [Contracts.mapInput, h.check, mapWalk_congr fun ref _ => href ref]

theorem Agree.choiceWalk (input : Json) (fuel : Nat) (e : Json) :
    choiceWalk input outputs fuel e = Contracts.choiceWalk input outputs' fuel e := by
  induction fuel generalizing e with
  | zero => rfl
  | succ fuel ih => simp only [Contracts.choiceWalk, h.mapInput, ih]

theorem Agree.conditionalBranch (name : String) (input : Json) (branches : List ChoiceBranch) :
    conditionalBranch name input outputs branches =
      Execution.conditionalBranch name input outputs' branches := by
  induction branches with
  | nil => rfl
  | cons b rest ih =>
    simp only [Execution.conditionalBranch, evaluateChoice, h.choiceWalk, ih]

end

/-! ### Outputs -/

theorem Run.mem_committedOutputs {r : Run} {e : String × Json} : e ∈ r.committedOutputs ↔
    ∃ k s, r.steps.find? k = some s ∧ s.nodeID = e.1 ∧ s.output = some e.2 ∧ e.2 ≠ .null := by
  simp only [Run.committedOutputs, List.mem_filterMap, Prod.exists, Table.find?_eq_some_iff]
  refine exists₂_congr fun k s => and_congr_right fun _ => ?_
  obtain ⟨node, v⟩ := e
  cases ho : s.output with
  | none => simp
  | some w => cases w <;> grind

theorem Run.Shaped.committed_nodup {r : Run} (h : r.Shaped) :
    (r.committedOutputs.map Prod.fst).Nodup := by
  rw [Run.committedOutputs_eq]
  exact h.outputs_nodup.sublist (List.filter_sublist.map _)

namespace DagState

/-- The memory has the outputs of the rows. -/
structure Recalls (st : DagState) (r : Run) : Prop where
  nodup : (st.outputs.map Prod.fst).Nodup
  mem : ∀ e, e ∈ st.outputs ↔ e ∈ r.committedOutputs

variable {st st' : DagState} {r r' : Run} {id : StepID} {s s' : Step}

theorem Recalls.write (h : st.Recalls r) (hf : r.steps.find? id = some s)
    (hsteps : r'.steps = (r.setStep id s').steps) (hn : s'.nodeID = s.nodeID)
    (ho : s'.output = s.output) (hst : st'.outputs = st.outputs) : st'.Recalls r' := by
  refine ⟨hst ▸ h.nodup, fun e => ?_⟩
  rw [hst, h.mem, Run.mem_committedOutputs, Run.mem_committedOutputs, hsteps]
  constructor
  · rintro ⟨k, t, ht, hrest⟩
    by_cases hk : k = id
    · subst hk
      obtain rfl := Option.mem_unique hf ht
      exact ⟨k, s', Run.find?_setStep_self s' hf, by rwa [hn, ho]⟩
    · exact ⟨k, t, by rw [Run.find?_setStep, if_neg hk, ht], hrest⟩
  · rintro ⟨k, t, ht, hrest⟩
    by_cases hk : k = id
    · subst hk
      obtain rfl := Option.mem_unique (Run.find?_setStep_self s' hf) ht
      exact ⟨k, s, hf, by rwa [← hn, ← ho]⟩
    · rw [Run.find?_setStep, if_neg hk] at ht
      exact ⟨k, t, ht, hrest⟩

theorem Recalls.succeed (h : st.Recalls r) (hr : r.Shaped) (hf : r.steps.find? id = some s)
    {value : Json} (hv : value ≠ .null) (hst : st'.outputs = (st.setOutput s.nodeID value).outputs)
    (hsteps : r'.steps = (r.setStep id (s.succeed value)).steps) : st'.Recalls r' := by
  have hnode {k : StepID} {t : Step} (ht : r.steps.find? k = some t) (hk : k ≠ id) :
      t.nodeID ≠ s.nodeID := fun hn => hk (hr.unique ht hf hn).1
  constructor
  · rw [hst, setOutput, List.map_cons, List.nodup_cons]
    refine ⟨by simp, h.nodup.sublist (List.filter_sublist.map _)⟩
  · rintro ⟨node, v⟩
    rw [hst, Run.mem_committedOutputs, hsteps]
    simp only [setOutput, List.mem_cons, List.mem_filter, h.mem, Run.mem_committedOutputs,
      bne_iff_ne, Prod.mk.injEq]
    constructor
    · rintro (⟨rfl, rfl⟩ | ⟨⟨k, t, ht, hn, hrest⟩, hne⟩)
      · exact ⟨id, _, Run.find?_setStep_self _ hf, rfl, rfl, hv⟩
      · have hk : k ≠ id := by
          rintro rfl
          obtain rfl := Option.mem_unique hf ht
          exact hne hn.symm
        exact ⟨k, t, by rw [Run.find?_setStep, if_neg hk, ht], hn, hrest⟩
    · rintro ⟨k, t, ht, hn, ho, hnull⟩
      by_cases hk : k = id
      · subst hk
        obtain rfl := Option.mem_unique (Run.find?_setStep_self _ hf) ht
        exact .inl ⟨hn.symm, (Option.some.inj ho).symm⟩
      · rw [Run.find?_setStep, if_neg hk] at ht
        exact .inr ⟨⟨k, t, ht, hn, ho, hnull⟩, fun he => hnode ht hk (hn.trans he)⟩

end DagState

variable {v : View} {id : StepID} {s : Step}

theorem writeBlocked_hits (hf : c.run.steps.find? id = some s) (hs : s.state = .blocked)
    (f : Step → Step) (t : EventType) (x : Payload) :
    Commits (writeBlocked id f t x) c fun hit c' =>
      hit = true ∧ c'.run.status = c.run.status ∧ c'.run.steps = (c.run.setStep id (f s)).steps := by
  have hb : (s.state == .blocked) = true := by simp [hs]
  simp only [writeBlocked, commits_bind, commits_updateStep, commits_ite,
    commits_appendRunEvent, commits_pure, hf, Option.any_some, RunScope.run_withRun, hb,
    not_true_eq_false, false_implies, and_true, forall_const]
  intro _
  rw [Run.updateStep_of_find hf hb]
  exact ⟨trivial, rfl, rfl⟩

theorem skipUnselected_recalls (h : st.Follows c v) (hopen : c.run.status.closing = false)
    (hrec : st.Recalls c.run) (hc : st.changed = true) (node : String) :
    Commits (skipUnselected st node) c fun st' c' =>
      c'.run.status.closing = false ∧ st'.Recalls c'.run ∧ st'.changed = true := by
  unfold skipUnselected
  cases hd : st.step? node with
  | none => simpa using ⟨hopen, hrec, hc⟩
  | some ds =>
    simp only [commits_ite, commits_bind, commits_pure]
    refine ⟨fun hb => ?_, fun _ => ⟨hopen, hrec, hc⟩⟩
    obtain ⟨s, hf, -, -, hs⟩ := h.find hd hb
    refine (writeBlocked_hits hf (hs hopen) _ _ _).mono ?_
    rintro hit c' ⟨rfl, hstatus, hsteps⟩
    exact ⟨by rw [hstatus, hopen], hrec.write hf hsteps rfl rfl rfl, hc⟩

theorem Run.Shaped.dagSteps_nodes {r : Run} (h : r.Shaped) {wf : WorkflowManifest}
    (hwf : r.workflow? = some wf) : r.dagSteps.map Prod.fst = wf.nodes.map WorkflowNode.id := by
  obtain ⟨wf', hwf', hrows, -⟩ := h
  obtain rfl := Option.mem_unique hwf hwf'
  have := congrArg (List.map Prod.fst) hrows
  simpa [Run.dagSteps, Function.comp_def] using this

theorem DagState.Follows.rebase (h : st.Follows c v) (hv : v.run.Sound) : st.Follows c c.view := by
  obtain ⟨wf, hwf, -⟩ := hv.shaped
  have hnodes := (h.leads.sound hv).shaped.dagSteps_nodes (h.leads.workflow?.trans hwf)
  exact ⟨h.mirrors, .refl _, by rw [h.nodes, hv.shaped.dagSteps_nodes hwf]; exact hnodes.symm,
    .of_steps rfl⟩

theorem DagState.Follows.untouched (h : st.Follows c v) (hv : v.run.Sound)
    (hu : v.run.Untouched) : c.run.Untouched := h.leads.reaches.operates.untouched hv hu

/-- The memory of an open run is its rows. -/
theorem DagState.Follows.mem_steps (h : st.Follows c v) (hv : v.run.Sound)
    (hopen : c.run.status.closing = false) (e : String × DagStep) :
    e ∈ st.steps ↔ e ∈ c.run.dagSteps := by
  have hshape := (h.leads.sound hv).shaped
  have hrow {e : String × DagStep} (he : e ∈ st.steps) : e ∈ c.run.dagSteps := by
    obtain ⟨s, hs, hn, -, -, -, hx⟩ := h.mirrors e he
    refine List.mem_map.mpr ⟨(e.2.id, s), (c.run.steps.find?_eq_some_iff _ _).mp hs, ?_⟩
    simp [hn, hx hopen]
  refine ⟨hrow, fun he => ?_⟩
  have hkey : e.1 ∈ st.steps.map Prod.fst := by
    rw [(h.rebase hv).nodes]
    exact List.mem_map.mpr ⟨e, he, rfl⟩
  obtain ⟨e', he', hk⟩ := List.mem_map.mp hkey
  have hnd : (c.run.dagSteps.map Prod.fst).Nodup := by
    simpa [Run.dagSteps, Function.comp_def] using hshape.nodup
  exact List.inj_on_of_nodup_map hnd (hrow he') he hk ▸ he'

/-! ### Passes end -/

variable [Platform]

theorem applyDecision_shrinks {node : WorkflowNode} {ds : DagStep}
    (hd : st.step? node.id = some ds) (hb : ds.state = .blocked) (dec : NodeDecision)
    (c : RunScope) :
    Commits (applyDecision d st node ds.id dec) c fun res _ => st.Shrinks res.1 := by
  unfold applyDecision
  cases dec with
  | wait => simpa using DagState.Shrinks.refl st
  | skip =>
    simp only [commits_bind, commits_pure]
    intro hit _ _
    split
    · exact .setState .skipped (by simp) hd hb rfl fun _ => rfl
    · exact .refl st
  | ready =>
    simp only [commits_bind, commits_pure]
    intro hit _ _
    split
    · exact .setState .ready (by simp) hd hb rfl fun _ => rfl
    · exact .refl st
  | fail code =>
    simp only [commits_bind, commits_pure]
    exact fun _ _ _ => .refl st
  | succeed output unselected =>
    simp only [commits_bind, commits_ite, commits_pure]
    refine fun hit c' _ => ⟨fun _ => ?_, fun _ => .refl st⟩
    refine commits_foldEach (I := fun st' _ => st.Shrinks st')
      (fun n _ st' c h => (skipUnselected_shrinks st' n c).mono fun _ _ h' => h.trans h') _ c' ?_
    exact .setState .succeeded (by simp) hd hb rfl fun _ => rfl
  | approval =>
    simp only [commits_bind, commits_pure]
    intro hit _ _
    split
    · exact .setState .waiting (by simp) hd hb rfl fun _ => rfl
    · exact .refl st
  | delay ms =>
    simp only [commits_bind, commits_ite, commits_pure]
    refine fun timer _ _ => ⟨fun _ _ _ _ => ?_, fun _ => ?_⟩
    · exact .setState .waiting (by simp) hd hb rfl fun _ => rfl
    · exact .setState .waiting (by simp) hd hb rfl fun h => h

theorem evaluateNode_shrinks (d : Dag) (st : DagState) (node : WorkflowNode) (c : RunScope) :
    Commits (evaluateNode d st node) c fun res _ => st.Shrinks res.1 := by
  unfold evaluateNode
  cases hd : st.step? node.id with
  | none => simpa using DagState.Shrinks.refl st
  | some ds =>
    simp only [commits_ite, commits_pure]
    exact ⟨fun hb => applyDecision_shrinks hd hb _ c, fun _ => .refl st⟩

theorem evaluateNodes_shrinks (d : Dag) (nodes : List WorkflowNode) (st : DagState) (c : RunScope) :
    Commits (evaluateNodes d nodes st) c fun res _ => st.Shrinks res.1 := by
  induction nodes generalizing st c with
  | nil => simpa [evaluateNodes] using DagState.Shrinks.refl st
  | cons node rest ih =>
    unfold evaluateNodes
    refine (evaluateNode_shrinks d st node c).bind fun res c' h => ?_
    simp only [commits_ite, commits_pure]
    exact ⟨fun _ => h, fun _ => (ih res.1 c').mono fun _ _ h' => h.trans h'⟩

/-- A pass that changes something leaves fewer nodes `BLOCKED`. -/
theorem evaluateNodes_lt (d : Dag) (nodes : List WorkflowNode) (st : DagState) (c : RunScope) :
    Commits (evaluateNodes d nodes { st with changed := false }) c fun res _ =>
      res.1.changed = true → res.1.blocked < st.blocked :=
  (evaluateNodes_shrinks d nodes _ c).mono fun _ _ h hc => (h.strict hc).resolve_left (by simp)

/-- More fuel than there are `BLOCKED` nodes is never used up. -/
theorem evaluatePasses_fuel {fuel fuel' : Nat} (h : st.blocked < fuel) (h' : st.blocked < fuel')
    (c : RunScope) : evaluatePasses d fuel st c = evaluatePasses d fuel' st c := by
  induction fuel generalizing fuel' st c with
  | zero => exact absurd h (Nat.not_lt_zero _)
  | succ fuel ih =>
    obtain ⟨fuel', rfl⟩ := Nat.exists_eq_succ_of_ne_zero (Nat.ne_zero_of_lt h')
    simp only [evaluatePasses, bind_apply]
    cases hx : evaluateNodes d d.workflow.nodes { st with changed := false } c with
    | error e => rfl
    | ok p =>
      obtain ⟨res, c'⟩ := p
      have hlt := evaluateNodes_lt d d.workflow.nodes st c res c' hx
      dsimp only
      split
      · rfl
      · split
        · next hc =>
          have := hlt hc
          exact ih (by omega) (by omega) c'
        · rfl

/-! ### Passes keep the outputs -/

/-- A decision depends on the steps and the outputs that are looked up. -/
theorem Dag.decide_congr {st st' : DagState} (hs : ∀ node, st.step? node = st'.step? node)
    (ho : Agree st.outputs st'.outputs) (d : Dag) (node : WorkflowNode) :
    d.decide st node = d.decide st' node := by
  have hstate : ∀ node, st.state? node = st'.state? node := fun node => by
    simp only [DagState.state?, hs]
  have hgate : ∀ deps, dependencyGate st deps = dependencyGate st' deps := fun deps => by
    simp only [dependencyGate, hstate]
  simp only [Dag.decide, decideMerge, decideMergeBranch, mergeValue, decideTask, decideChoice,
    chooseBranch, hstate, hgate, ho.lookup, ho.mapInput, ho.conditionalBranch]

/-- A control node never succeeds with null. -/
theorem Dag.decide_object (d : Dag) (st : DagState) (node : WorkflowNode) (output : Json)
    (unselected : List String) : d.decide st node = .succeed output unselected → output ≠ .null := by
  unfold decide decideMerge decideMergeBranch decideChoice decideDelay decideTask
  simp only
  repeat' split
  all_goals simp only [NodeDecision.succeed.injEq, reduceCtorEq, false_implies]
  all_goals
    rintro ⟨rfl, -⟩
    simp

/-- The statements of a decision keep the outputs, and change something unless the decision is to
wait. -/
theorem applyDecision_recalls (h : st.Follows c v) (hv : v.run.Sound) (hu : c.run.Untouched)
    (hwf : v.run.workflow? = some d.workflow) (hopen : c.run.status.closing = false)
    (hrec : st.Recalls c.run) {node : WorkflowNode} (hnode : node ∈ d.workflow.nodes)
    {ds : DagStep} (hd : st.step? node.id = some ds) (hb : ds.state = .blocked) :
    Commits (applyDecision d st node ds.id (d.decide st node)) c fun res c' =>
      c'.run.status.closing = false → res.1.Recalls c'.run ∧
        (d.decide st node = .wait ∧ res.1 = st ∨ res.1.changed = true) := by
  obtain ⟨s, hf, hn, -, hx⟩ := h.find hd hb
  have hs := hx hopen
  obtain ⟨ha, ht⟩ := hu _ s hf hs
  have hshape := (h.leads.sound hv).shaped
  have hk := hshape.kind (h.leads.workflow?.trans hwf) hnode hf hn
  have hsuits := d.suits_decide st node
  have hfailed := applyDecision_failed d st node ds.id (d.decide st node) c
  have hobj := d.decide_object st node
  generalize d.decide st node = dec at hsuits hfailed hobj ⊢
  cases dec with
  | wait =>
    simp only [applyDecision, commits_pure]
    exact fun _ => ⟨hrec, .inl ⟨trivial, trivial⟩⟩
  | skip =>
    simp only [applyDecision, commits_bind, commits_pure]
    refine (writeBlocked_hits hf hs _ _ _).mono ?_
    rintro hit c' ⟨rfl, -, hsteps⟩ _
    exact ⟨hrec.write hf hsteps rfl rfl rfl, .inr rfl⟩
  | ready =>
    simp only [applyDecision, readyTask, commits_bind, commits_clockTimestamp,
      commits_pure]
    refine (writeBlocked_hits (c := c.tick) hf hs _ _ _).mono ?_
    rintro hit c' ⟨rfl, -, hsteps⟩ _
    exact ⟨hrec.write hf hsteps rfl rfl rfl, .inr rfl⟩
  | fail code =>
    simp only [applyDecision, commits_bind, commits_pure] at hfailed ⊢
    refine hfailed.mono fun _ c' hc hopen' => ?_
    exact absurd (hc trivial) (by simp [hopen'])
  | succeed output unselected =>
    simp only [applyDecision, commits_bind]
    have hkind : s.kind = .choice ∨ s.kind = .merge := by
      rw [hk]
      exact hsuits
    have hbr := h.branching hv hf hkind
    rw [← hn]
    refine ((h.succeedControl hshape hf hkind output).and (writeBlocked_hits hf hs _ _ _)).mono ?_
    rintro hit c1 ⟨h1, rfl, hstatus, hsteps⟩
    simp only [if_true, commits_bind, commits_pure] at h1 ⊢
    have hrec1 : (((st.setState s.nodeID .succeeded).setOutput s.nodeID output).touch.count).Recalls
        c1.run := hrec.succeed hshape hf (hobj output unselected rfl) rfl hsteps
    refine (commits_foldEach (I := fun st' c' => st'.Follows c' v ∧
      c'.run.status.closing = false ∧ st'.Recalls c'.run ∧ st'.changed = true)
      (fun n _ st' c' hI => (skipUnselected_follows hI.1 hv hbr n).and
        (skipUnselected_recalls hI.1 hI.2.1 hI.2.2.1 hI.2.2.2 n)) _ c1
        ⟨h1, by rw [hstatus, hopen], hrec1, rfl⟩).mono ?_
    exact fun _ _ hI _ => ⟨hI.2.2.1, .inr hI.2.2.2⟩
  | approval =>
    simp only [applyDecision, commits_bind, commits_pure]
    refine (openApprovalTx_spec hf (hk.trans hsuits) (.inl hs) node _ _).mono ?_
    rintro created c' ⟨-, ⟨-, -, hc⟩ | ⟨rfl, s', hn', ho, -, hsteps⟩⟩ hopen'
    · exact absurd (hc hs ha) (by simp [hopen'])
    · exact ⟨hrec.write hf hsteps hn' ho rfl, .inr rfl⟩
  | delay ms =>
    simp only [applyDecision, commits_bind]
    refine (scheduleDelayTx_spec hf (hk.trans hsuits) (.inl hs) ms).mono ?_
    rintro timer c' ⟨-, htimer, s', hn', ho, -, hsteps⟩
    simp only [commits_ite, commits_bind, commits_appendRunEvent, commits_pure, htimer ht,
      not_true_eq_false, false_implies, and_true, forall_const]
    exact fun _ _ => ⟨hrec.write hf hsteps hn' ho rfl, .inr rfl⟩

theorem evaluateNode_recalls (h : st.Follows c v) (hv : v.run.Sound) (hu : c.run.Untouched)
    (hwf : v.run.workflow? = some d.workflow) (hopen : c.run.status.closing = false)
    (hrec : st.Recalls c.run) {node : WorkflowNode} (hnode : node ∈ d.workflow.nodes) :
    Commits (evaluateNode d st node) c fun res c' =>
      c'.run.status.closing = false → res.1.Recalls c'.run ∧
        (d.Waits st node ∧ res.1 = st ∨ res.1.changed = true) := by
  unfold evaluateNode
  cases hd : st.step? node.id with
  | none =>
    simp only [commits_pure]
    exact fun _ => ⟨hrec, .inl ⟨fun ds hds => by simp [hd] at hds, trivial⟩⟩
  | some ds =>
    simp only [commits_ite, commits_pure]
    refine ⟨fun hb => ?_, fun hb _ => ⟨hrec, .inl ⟨fun ds' hds' hb' => ?_, trivial⟩⟩⟩
    · refine (applyDecision_recalls h hv hu hwf hopen hrec hnode hd hb).mono ?_
      intro res c' h' hopen'
      exact (h' hopen').imp_right (Or.imp_left fun hw => ⟨fun _ _ _ => hw.1, hw.2⟩)
    · obtain rfl := Option.mem_unique hd hds'
      exact absurd hb' hb

theorem evaluateNodes_open (hv : v.run.Sound) (hwf : v.run.workflow? = some d.workflow)
    {nodes : List WorkflowNode} (hnodes : ∀ n ∈ nodes, n ∈ d.workflow.nodes) (h : st.Follows c v) :
    Commits (evaluateNodes d nodes st) c fun _ c' =>
      c'.run.status.closing = false → c.run.status.closing = false :=
  (evaluateNodes_follows (h.leads.sound hv) (h.leads.workflow?.trans hwf) nodes hnodes st c
    (h.rebase hv)).mono fun _ _ h' => h'.leads.open_of_open

/-- A pass keeps the outputs, and changes something unless it waits for every node. -/
theorem evaluateNodes_recalls (hv : v.run.Sound) (hu : v.run.Untouched)
    (hwf : v.run.workflow? = some d.workflow) (nodes : List WorkflowNode)
    (hnodes : ∀ n ∈ nodes, n ∈ d.workflow.nodes) (h : st.Follows c v)
    (hrec : c.run.status.closing = false → st.Recalls c.run) :
    Commits (evaluateNodes d nodes st) c fun res c' =>
      c'.run.status.closing = false → res.1.Recalls c'.run ∧
        ((∀ node ∈ nodes, d.Waits st node) ∧ res.1 = st ∨ res.1.changed = true) := by
  induction nodes generalizing st c with
  | nil =>
    simp only [evaluateNodes, commits_pure]
    exact fun hopen => ⟨hrec hopen, .inl ⟨by simp, trivial⟩⟩
  | cons node rest ih =>
    have hkeeps := evaluateNodes_open hv hwf hnodes h
    cases hopen : c.run.status.closing with
    | true => exact hkeeps.mono fun _ _ ho hopen' => by simp [ho hopen'] at hopen
    | false =>
      obtain ⟨hnode, hrest⟩ := List.forall_mem_cons.mp hnodes
      unfold evaluateNodes
      refine (((evaluateNode_follows h hv hwf hnode).and (evaluateNode_failed d st node c)).and
        (evaluateNode_recalls h hv (h.untouched hv hu) hwf hopen (hrec hopen) hnode)).bind ?_
      rintro res c1 ⟨⟨h1, hfailed⟩, hnode1⟩
      simp only [commits_ite, commits_pure]
      refine ⟨fun hf hopen' => absurd (hfailed hf) (by simp [hopen']), fun _ => ?_⟩
      refine (((ih hrest h1 fun ho => (hnode1 ho).1).and (evaluateNodes_shrinks d rest res.1 c1)).and
        (evaluateNodes_open hv hwf hrest h1)).mono ?_
      rintro res' c' ⟨⟨hpost, hshrinks⟩, hopen1⟩ hopen'
      obtain ⟨hrec', hwaits⟩ := hpost hopen'
      refine ⟨hrec', ?_⟩
      rcases (hnode1 (hopen1 hopen')).2 with ⟨hwait, hst⟩ | hchanged
      · rw [hst] at hwaits
        exact hwaits.imp_left fun hw => ⟨List.forall_mem_cons.mpr ⟨hwait, hw.1⟩, hw.2⟩
      · exact .inr (hshrinks.changed hchanged)

/-- With fuel for every `BLOCKED` node the passes end, and in an open run with nothing to do. -/
theorem evaluatePasses_done (hv : v.run.Sound) (hu : v.run.Untouched)
    (hwf : v.run.workflow? = some d.workflow) {fuel : Nat} (hfuel : st.blocked < fuel)
    (h : st.Follows c v) (hrec : c.run.status.closing = false → st.Recalls c.run) :
    Commits (evaluatePasses d fuel st) c fun res c' =>
      (res.2 = true ∨ res.1.changed = false) ∧ (c'.run.status.closing = false →
        res.1.Recalls c'.run ∧ ∀ node ∈ d.workflow.nodes, d.Waits res.1 node) := by
  induction fuel generalizing st c with
  | zero => exact absurd hfuel (Nat.not_lt_zero _)
  | succ fuel ih =>
    have h0 : DagState.Follows { st with changed := false } c v :=
      ⟨h.mirrors.congr rfl rfl fun hc => hc, h.leads, h.nodes, h.spares⟩
    have hrec0 (hopen : c.run.status.closing = false) :
      DagState.Recalls { st with changed := false } c.run := ⟨(hrec hopen).nodup, (hrec hopen).mem⟩
    have hall : ∀ n ∈ d.workflow.nodes, n ∈ d.workflow.nodes := fun _ hn => hn
    unfold evaluatePasses
    refine (((evaluateNodes_follows hv hwf _ hall _ c h0).and
      (evaluateNodes_failed d _ _ c)).and ((evaluateNodes_lt d _ st c).and
      (evaluateNodes_recalls hv hu hwf _ hall h0 hrec0))).bind ?_
    rintro res c1 ⟨⟨h1, hfailed⟩, hlt, hpost⟩
    simp only [commits_ite, commits_pure]
    refine ⟨fun hf => ⟨.inl hf, fun hopen => absurd (hfailed hf) (by simp [hopen])⟩, fun _ => ?_⟩
    refine ⟨fun hc => ?_, fun hc => ?_⟩
    · have := hlt hc
      exact ih (by omega) h1 fun hopen => (hpost hopen).1
    · refine ⟨.inr (by simpa using hc), fun hopen => ?_⟩
      obtain ⟨hrec1, hwaits⟩ := hpost hopen
      obtain ⟨hwaits, hst⟩ := hwaits.resolve_right hc
      exact ⟨hrec1, hst ▸ hwaits⟩

/-! ### The evaluation of a reachable run -/

/-- An evaluation of a reachable run ends within one more pass than the workflow has nodes, and a
second one, of the rows that the first commits, reads and writes nothing. -/
theorem evaluation_settles (fleet : Fleet) (os : List Operation) (c : RunScope)
    (hc : (installation.exec (World.initial fleet) os).Opens c) (wf : WorkflowManifest)
    (hwf : c.run.workflow? = some wf) (reason : String) :
    (∀ fuel, wf.nodes.length + 1 ≤ fuel →
      evaluatePasses (c.run.dag wf reason) fuel ⟨c.run.dagSteps, c.run.committedOutputs, 0, true⟩ c =
        evaluateBlockedDAGTx (c.run.dag wf reason) c.run.dagSteps c.run.committedOutputs c) ∧
    Commits (evaluateBlockedDAGTx (c.run.dag wf reason) c.run.dagSteps c.run.committedOutputs) c
      fun res c' => (res.2 = true ∨ res.1.changed = false) ∧
        evaluateBlockedDAGTx (c.run.dag wf reason) c'.run.dagSteps c'.run.committedOutputs =
          pure (⟨c'.run.dagSteps, c'.run.committedOutputs, 0, false⟩, false) := by
  obtain ⟨hs, hu⟩ := hc.attained
  have hlength : c.run.dagSteps.length = wf.nodes.length := by
    simpa using congrArg List.length (hs.shaped.dagSteps_nodes hwf)
  have hcount (outputs : Outputs) :
      (⟨c.run.dagSteps, outputs, 0, true⟩ : DagState).blocked ≤ wf.nodes.length :=
    hlength ▸ List.countP_le_length
  have hstart := hcount c.run.committedOutputs
  refine ⟨fun fuel hfuel => evaluatePasses_fuel (by omega) (by omega) c, ?_⟩
  have hrec : DagState.Recalls ⟨c.run.dagSteps, c.run.committedOutputs, 0, true⟩ c.run :=
    ⟨hs.shaped.committed_nodup, fun _ => Iff.rfl⟩
  refine ((evaluateBlockedDAGTx_follows (d := c.run.dag wf reason) hs hwf _).and
    (evaluatePasses_done (d := c.run.dag wf reason) (v := c.view) hs hu hwf (by omega)
      ⟨c.run.mirrors_dagSteps _ rfl, .refl _, rfl, .of_steps rfl⟩ fun _ => hrec)).mono ?_
  rintro res c' ⟨hfollows, hdone, hwaits⟩
  refine ⟨hdone, ?_⟩
  have hs' := hfollows.leads.sound hs
  cases hopen : c'.run.status.closing with
  | true =>
    refine evaluateBlockedDAGTx_idle fun e he => ?_
    obtain ⟨x, hx, rfl⟩ := List.mem_map.mp he
    exact ((hs'.quiet hopen).find ((c'.run.steps.find?_eq_some_iff x.1 x.2).mpr hx)).2
  | false =>
    obtain ⟨hrec', hwaits⟩ := hwaits hopen
    have hnd : (c'.run.dagSteps.map Prod.fst).Nodup := by
      simpa [Run.dagSteps, Function.comp_def] using hs'.shaped.nodup
    have hsteps (node : String) : (⟨c'.run.dagSteps, c'.run.committedOutputs, 0, false⟩ :
        DagState).step? node = res.1.step? node :=
      lookup_congr hnd (by rw [(hfollows.rebase hs).nodes]; exact hnd)
        (fun e => (hfollows.mem_steps hs hopen e).symm) node
    have hagree := agree_of_mem hs'.shaped.committed_nodup hrec'.nodup fun e => (hrec'.mem e).symm
    refine evaluateBlockedDAGTx_waits fun node hnode ds hds hb => ?_
    rw [Dag.decide_congr hsteps hagree]
    exact hwaits node hnode ds ((hsteps node.id).symm.trans hds) hb

def Sample.delayAfter : Fleet :=
  fleet [taskManifest "a" "safe" none] [workflow "w" [taskNode "a" [], delayNode "d" ["a"]]]

omit [Platform] in
theorem evaluation_settles_blocked :
    let w := (@installation Sample.platform).exec (World.initial Sample.delayAfter)
      [.engine (.createRun Sample.request)]
    ∃ r wf res c', w.db.runs.find? 0 = some r ∧ r.workflow? = some wf ∧
      @evaluateBlockedDAGTx Sample.platform (r.dag wf "") r.dagSteps r.committedOutputs
        ⟨0, r, w.db.sys⟩ = .ok (res, c') ∧
      @evaluateBlockedDAGTx Sample.platform (r.dag wf "") c'.run.dagSteps c'.run.committedOutputs =
        pure (⟨c'.run.dagSteps, c'.run.committedOutputs, 0, false⟩, false) :=
  ⟨_, _, _, _, rfl, rfl, rfl,
    ((@evaluation_settles Sample.platform Sample.delayAfter [.engine (.createRun Sample.request)]
      ⟨0, _, _⟩ (.inr ⟨0, _, rfl, .refl⟩) _ rfl "").2 _ _ rfl).2⟩

end Deadbolt.Execution

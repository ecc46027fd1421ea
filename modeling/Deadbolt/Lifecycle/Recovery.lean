import Deadbolt.Lifecycle.Engine

/-!
# The engine under disaster recoveries

A recovery adds edges to the run automaton that no transaction of the engine makes: it holds
steps in any open state and opens a cancelling run again. Soundness does not depend on that, so
the invariant rules at the end are for runs of the whole installation: a property that the changes
keep while the trace meets a condition, and what becomes of a run.
-/

namespace Deadbolt.Execution

open Base Contracts Tx RunTx

/-- An operator confirmed that the held step is to be retried. -/
def Step.retried (s : Step) : Bool :=
  s.cases.any fun c => c.status == .resolved && c.resolution == some .retry

structure Step.Held (s s' : Step) : Prop where
  unended : s.state.terminal = false
  eq : ∃ cases, s' = { s.awaitOperator with cases := cases }
  opens : s'.hasOpenCase = true
  retried : s.retried = true → s'.retried = true
  files : s.Files s'

/-- The writes of a recovery to one run, with the visits they add to the trace. -/
inductive Run.Holds (r : Run) : List Visit → Run → Prop
  | status (hopen : r.status.terminal = false) :
      Holds r [⟨.disasterHold, r⟩] (r.setStatus .waiting (some "RECONCILIATION"))
  | step {id : StepID} {s s' : Step} (hf : r.steps.find? id = some s) (hs : s.Held s') :
      Holds r [⟨.disasterHold, r⟩] (r.setStep id s')
  | event (x : Payload) : Holds r [⟨.disasterHold, r⟩] (r.pushHoldEvent x)

namespace Step.Held

variable {s s' : Step}

theorem node (h : s.Held s') : s'.nodeID = s.nodeID ∧ s'.kind = s.kind := by
  obtain ⟨cases, rfl⟩ := h.eq
  exact ⟨rfl, rfl⟩

theorem sound (h : s.Held s') (hs : s.Sound) : s'.Sound := by
  obtain ⟨cases, rfl⟩ := h.eq
  exact hs.congr rfl rfl rfl rfl (by simp [waitsFor, awaitOperator])

theorem lasts (h : s.Held s') : s.Lasts s' := by
  refine ⟨h.files, ?_⟩
  obtain ⟨cases, rfl⟩ := h.eq
  exact .of_eq rfl

end Step.Held

namespace Run.Holds

variable {r r' : Run} {vs : List Visit}

theorem pinned (h : r.Holds vs r') : r'.pinned = r.pinned := by
  cases h <;> rfl

theorem keeps (h : r.Holds vs r') : r.Keeps r' := by
  cases h with
  | status => exact .of_steps rfl
  | step hf hs => exact .setStep hf hs.node
  | event => exact .of_steps rfl

theorem sound (h : r.Holds vs r') (hr : r.Sound) : r'.Sound := by
  cases h with
  | status => exact ⟨hr.steps, nofun, hr.shaped⟩
  | @step id s s' hf hs =>
    refine hr.setStep hf (hs.sound (hr.steps.find hf)) hs.node fun _ => ?_
    obtain ⟨cases, rfl⟩ := hs.eq
    exact ⟨nofun, nofun⟩
  | event => exact ⟨hr.steps, hr.quiet, hr.shaped⟩

end Run.Holds

namespace View

def Change (a b : View) : Prop :=
  a.Edge b ∨ ∃ vs, a.run.Holds vs b.run ∧ b.trace = a.trace ++ vs

def Operates : View → View → Prop := Relation.ReflTransGen Change

theorem Reaches.operates {a b : View} (h : a.Reaches b) : a.Operates b :=
  h.lift id fun _ _ he => .inl he

theorem Operates.idle (v : View) (vs : List Visit) : v.Operates ⟨v.run, v.trace ++ vs⟩ :=
  (Leads.idle v vs).reaches.operates

variable {a b : View}

theorem Change.pinned (h : a.Change b) : b.run.pinned = a.run.pinned := by
  rcases h with h | ⟨_, h, -⟩
  · exact h.pinned
  · exact h.pinned

theorem Change.sound (h : a.Change b) (ha : a.run.Sound) : b.run.Sound := by
  rcases h with h | ⟨_, h, -⟩
  · exact Reaches.sound (Relation.ReflTransGen.single h) ha
  · exact h.sound ha

theorem Change.keeps (h : a.Change b) : a.run.Keeps b.run := by
  rcases h with h | ⟨_, h, -⟩
  · exact h.keeps
  · exact h.keeps

theorem Change.trace (h : a.Change b) : ∃ vs, b.trace = a.trace ++ vs := by
  rcases h with (⟨vs, -, h⟩ | ⟨vs, -, h⟩) | ⟨vs, -, h⟩
  all_goals exact ⟨vs, h⟩

theorem Operates.pinned (h : a.Operates b) : b.run.pinned = a.run.pinned := by
  induction h with
  | refl => rfl
  | tail _ hc ih => rw [hc.pinned, ih]

theorem Operates.sound (h : a.Operates b) (ha : a.run.Sound) : b.run.Sound := by
  induction h with
  | refl => exact ha
  | tail _ hc ih => exact hc.sound ih

theorem Operates.keeps (h : a.Operates b) : a.run.Keeps b.run := by
  induction h with
  | refl => exact .of_steps rfl
  | tail _ hc ih => exact ih.trans hc.keeps

theorem Operates.trace (h : a.Operates b) : ∃ vs, b.trace = a.trace ++ vs := by
  induction h with
  | refl => exact ⟨[], by simp⟩
  | tail _ hc ih =>
    obtain ⟨vs, hvs⟩ := ih
    obtain ⟨ws, hws⟩ := hc.trace
    exact ⟨vs ++ ws, by rw [hws, hvs, List.append_assoc]⟩

/-- What every change keeps holds at the end of every path, if the visits of the path meet the
condition. -/
theorem Operates.invariant_of_visits {J : View → Prop} {P : Visit → Prop}
    (hstep : ∀ (a b : View) (vs : List Visit), a.run.Sound → J a → b.trace = a.trace ++ vs →
      (∀ v ∈ vs, P v) → a.Change b → J b) (h : a.Operates b) (ha : a.run.Sound) {vs : List Visit}
    (htr : b.trace = a.trace ++ vs) (hP : ∀ v ∈ vs, P v) (hJ : J a) : J b := by
  induction h using Relation.ReflTransGen.head_induction_on generalizing vs with
  | refl => exact hJ
  | @head a m hc hr ih =>
    obtain ⟨us, hus⟩ := hc.trace
    obtain ⟨ws, hws⟩ := Operates.trace hr
    have hvs : vs = us ++ ws := by
      rw [hws, hus, List.append_assoc] at htr
      exact (List.append_cancel_left htr).symm
    subst hvs
    exact ih (hc.sound ha) hws (fun v hv => hP v (List.mem_append_right _ hv))
      (hstep a m us ha hJ hus (fun v hv => hP v (List.mem_append_left _ hv)) hc)

/-- What every change keeps holds at the end of every path, if the final trace meets the
condition. -/
theorem Operates.invariant {J : View → Prop} {P : Visit → Prop}
    (hstep : ∀ a b : View, a.run.Sound → J a → (∀ v ∈ b.trace, P v) → a.Change b → J b)
    (h : a.Operates b) (ha : a.run.Sound) (hP : ∀ v ∈ b.trace, P v) (hJ : J a) : J b := by
  induction h using Relation.ReflTransGen.head_induction_on with
  | refl => exact hJ
  | @head a m hc hr ih =>
    refine ih (hc.sound ha) (hstep a m ha hJ (fun v hv => hP v ?_) hc)
    obtain ⟨vs, hvs⟩ := Operates.trace hr
    rw [hvs]
    exact List.mem_append_left _ hv

end View

/-! ### The transactions of a recovery -/

section

variable [Platform]

omit [Platform] in
theorem any_attachEvidence (s : Step) (evidence : Payload)
    (p : CaseStatus → Option CaseResolution → Bool)
    (h : (s.cases.any fun c => p c.status c.resolution) = true) :
    ((s.attachEvidence evidence).cases.any fun c => p c.status c.resolution) = true := by
  unfold Step.attachEvidence
  split
  · exact h
  · obtain ⟨c, hc, hp⟩ := List.any_eq_true.mp h
    refine List.any_eq_true.mpr ⟨_, List.mem_map.mpr ⟨c, hc, rfl⟩, ?_⟩
    split <;> exact hp

omit [Platform] in
theorem Step.held_attachEvidence {s : Step} (hs : s.state.terminal = false)
    (ho : s.hasOpenCase = true) (evidence : Payload) :
    s.Held (s.awaitOperator.attachEvidence evidence) where
  unended := hs
  eq := by
    unfold attachEvidence
    split
    · exact ⟨s.cases, rfl⟩
    · exact ⟨_, rfl⟩
  opens := any_attachEvidence s.awaitOperator evidence (fun status _ => status == .open) ho
  retried := any_attachEvidence s.awaitOperator evidence
    fun status resolution => status == .resolved && resolution == some .retry
  files := (by simp : s.Sheds true _).files

omit [Platform] in
theorem Step.held_newCase {s : Step} (hs : s.state.terminal = false) {case : Case}
    (hcase : case.status = .open) : s.Held { s.awaitOperator with cases := s.cases ++ [case] } where
  unended := hs
  eq := ⟨_, rfl⟩
  opens := by simp [hasOpenCase, hcase]
  retried h := by
    rw [Step.retried] at h ⊢
    simp only [List.any_append, h, Bool.true_or]
  files := (sheds_openCase case).files

def View.Holds : View → View → Prop :=
  Relation.ReflTransGen fun a b => ∃ vs, a.run.Holds vs b.run ∧ b.trace = a.trace ++ vs

omit [Platform] in
theorem View.Holds.operates {a b : View} (h : a.Holds b) : a.Operates b :=
  h.lift id fun _ _ he => .inr he

def Run.Unended (r : Run) (rows : List (StepID × Step)) : Prop :=
  ∀ e ∈ rows, ∀ s, r.steps.find? e.1 = some s → s.state.terminal = false

theorem holdStepTx_holds (c : RunScope) (i : Incident) (id : StepID) (nodeID : String)
    (hopen : ∀ s, c.run.steps.find? id = some s → s.state.terminal = false)
    {rows : List (StepID × Step)} (hrows : c.run.Unended rows) :
    Commits (holdStepTx i id nodeID) c fun _ c' =>
      c.view.Holds c'.view ∧ c'.run.Unended rows := by
  -- Both branches replace the step by a held one and insert the event.
  have hheld {s s' : Step} {sys : Sys} (x : Payload) (hf : c.run.steps.find? id = some s)
      (hs : s.Held s') (htr : sys.trace = c.sys.trace ++ [⟨.disasterHold, c.run⟩]) :
      c.view.Holds ⟨(c.run.setStep id s').pushHoldEvent x,
          sys.trace ++ [⟨.disasterHold, c.run.setStep id s'⟩]⟩ ∧
        ((c.run.setStep id s').pushHoldEvent x).Unended rows := by
    constructor
    · have hstep : c.view.Holds ⟨c.run.setStep id s', sys.trace⟩ :=
        .single ⟨[⟨.disasterHold, c.run⟩], .step hf hs, htr⟩
      exact hstep.tail ⟨_, .event x, rfl⟩
    · intro e he t ht
      change (c.run.setStep id s').steps.find? e.1 = some t at ht
      rw [Run.find?_setStep] at ht
      split at ht
      · obtain ⟨_, -, rfl⟩ := Option.map_eq_some_iff.mp ht
        obtain ⟨cases, rfl⟩ := hs.eq
        rfl
      · exact hrows e he t ht
  simp only [holdStepTx, commits_bind, commits_note, commits_getRun,
    commits_getStep, RunScope.run_visit, commits_ite, commits_updateStep,
    commits_newID, commits_modifyRun]
  intro s hf
  refine ⟨fun ho => ?_, fun ho => ?_⟩
  · rw [Run.updateStep_of_find hf rfl]
    exact hheld _ hf (Step.held_attachEvidence (hopen s hf) ho _) rfl
  · have hfd : (c.visit .disasterHold).draw.run.steps.find? id = some s := hf
    rw [Run.updateStep_of_find hfd rfl]
    exact hheld _ hf (Step.held_newCase (hopen s hf) rfl) rfl

theorem holdRunTx_holds (c : RunScope) (i : Incident) :
    Commits (holdRunTx i) c fun _ c' => c.view.Holds c'.view := by
  simp only [holdRunTx, commits_bind, commits_getRun, commits_ite, commits_pure,
    commits_note, commits_modifyRun]
  refine ⟨fun _ => Relation.ReflTransGen.refl, fun hopen => ?_⟩
  have hstatus : c.view.Holds
      ((c.visit .disasterHold).withRun (c.run.setStatus .waiting (some "RECONCILIATION"))).view :=
    .single ⟨[⟨.disasterHold, c.run⟩], .status (by simpa using hopen), rfl⟩
  refine (commits_forEach_rest (I := fun rows c' =>
    c.view.Holds c'.view ∧ c'.run.Unended rows) ?_ _ _ ⟨hstatus, ?_⟩).mono fun _ _ h => h.1
  · rintro e rows c' ⟨hc, hrows⟩
    have hrest : c'.run.Unended rows := fun x hx => hrows x (List.mem_cons_of_mem _ hx)
    refine (holdStepTx_holds c' i e.1 e.2.nodeID (hrows e (by simp)) hrest).mono fun _ _ h => ⟨hc.trans h.1, h.2⟩
  · intro e he s hs
    obtain ⟨hmem, hterm⟩ := List.mem_filter.mp he
    have hfind : c.run.steps.find? e.1 = some e.2 := (c.run.steps.find?_eq_some_iff _ _).mpr hmem
    obtain rfl := Option.mem_unique hfind hs
    simpa using hterm

end

/-! ### Databases and worlds -/

/-- What the operations of an installation do to the runs. -/
structure Db.Operates (db db' : Db) : Prop where
  kept : ∀ id r, db.runs.find? id = some r → ∃ r', db'.runs.find? id = some r' ∧
    View.Operates ⟨r, db.sys.trace⟩ ⟨r', db'.sys.trace⟩
  fresh : ∀ id r', db.runs.find? id = none → db'.runs.find? id = some r' →
    ∃ r0 tr, r0.Created ∧ r0.id = id ∧ View.Operates ⟨r0, tr⟩ ⟨r', db'.sys.trace⟩

namespace Db

variable {db db' : Db}

theorem Evolves.operates (h : db.Evolves db') : db.Operates db' where
  kept id r hr := by
    obtain ⟨r', hr', he⟩ := h.kept id r hr
    exact ⟨r', hr', he.reaches.operates⟩
  fresh id r' hn hr' := by
    obtain ⟨r0, tr, hc, hid, he⟩ := h.fresh id r' hn hr'
    exact ⟨r0, tr, hc, hid, he.reaches.operates⟩

theorem Operates.refl (db : Db) : db.Operates db := (Evolves.refl db).operates

theorem Operates.trans {a b c : Db} (h : a.Operates b) (h' : b.Operates c) : a.Operates c where
  kept id r hr := by
    obtain ⟨r1, hr1, he1⟩ := h.kept id r hr
    obtain ⟨r2, hr2, he2⟩ := h'.kept id r1 hr1
    exact ⟨r2, hr2, Relation.ReflTransGen.trans he1 he2⟩
  fresh id r' hn hr' := by
    cases hb : b.runs.find? id with
    | none => exact h'.fresh id r' hb hr'
    | some r1 =>
      obtain ⟨r0, tr, hc, hid, he⟩ := h.fresh id r1 hn hb
      obtain ⟨r2, hr2, he2⟩ := h'.kept id r1 hb
      obtain rfl := Option.mem_unique hr' hr2
      exact ⟨r0, tr, hc, hid, Relation.ReflTransGen.trans he he2⟩

theorem Operates.sound (h : db.Operates db') (hs : db.Sound) : db'.Sound := by
  intro id r' hr'
  cases hr : db.runs.find? id with
  | none =>
    obtain ⟨r0, tr, hc, -, he⟩ := h.fresh id r' hr hr'
    exact he.sound hc.sound
  | some r =>
    obtain ⟨r1, hr1, he⟩ := h.kept id r hr
    obtain rfl := Option.mem_unique hr' hr1
    exact he.sound (hs id r hr)

theorem Tasks.operates {pending : List PendingClaim} (h : db.Tasks pending) (he : db.Operates db') :
    db'.Tasks pending := by
  intro pc hpc
  obtain ⟨r, s, hr, henv, hs, hk, hn⟩ := h pc hpc
  obtain ⟨r', hr', hev⟩ := he.kept _ r hr
  obtain ⟨s', hs', hn', hk'⟩ := hev.keeps _ s hs
  exact ⟨r', s', hr', (Run.environmentID_of_pinned hev.pinned).trans henv, hs', hk'.trans hk,
    hn'.trans hn⟩

theorem operates_putScope {id : RunID} {r : Run} {c : RunScope} (hr : db.runs.find? id = some r)
    (h : View.Operates ⟨r, db.sys.trace⟩ c.view) : db.Operates (db.putScope id c) where
  kept k r' hk := by
    obtain ⟨vs, hvs⟩ := h.trace
    have hvs : c.sys.trace = db.sys.trace ++ vs := hvs
    rw [find?_putScope, hk]
    by_cases hki : k = id
    · subst hki
      obtain rfl := Option.mem_unique hr hk
      exact ⟨c.run, by simp, h⟩
    · refine ⟨r', by simp [hki], ?_⟩
      rw [sys_putScope, hvs]
      exact View.Operates.idle ⟨r', db.sys.trace⟩ vs
  fresh k r' hn hk := by
    rw [find?_putScope, hn] at hk
    cases hk

end Db

section

variable [Platform]

theorem prepareDisasterRecoveryTx_operates (i : Incident) (stale : List SessionID) (db : Db) :
    Commits (prepareDisasterRecoveryTx i stale) db fun _ db' => db.Operates db' := by
  simp only [prepareDisasterRecoveryTx, dbClock, commits_bind, commits_read,
    commits_write, commits_pure]
  refine commits_forEach (I := fun db' => db.Operates db') ?_ _
    (Db.Evolves.operates (by exact Db.Evolves.of_same rfl rfl))
  intro e _ db' hdb'
  rw [commits_onRun]
  intro r hr
  exact (holdRunTx_holds _ i).mono fun _ _ h => hdb'.trans (Db.operates_putScope hr h.operates)

namespace World

theorem operate_operates {w : World} (hw : w.Sound) (o : Operation) :
    w.db.Operates (w.operate o).db ∧ (w.operate o).Sound := by
  cases o with
  | engine a =>
    have h := follows_step hw a
    exact ⟨h.db.operates, h.sound hw⟩
  | recover i stale =>
    simp only [operate]
    split
    · unfold attempt transact
      split
      · next x db' he =>
        have h := prepareDisasterRecoveryTx_operates i stale w.db x db' he
        exact ⟨h, h.sound hw.db, fun c hc => (hw.claims c hc).operates h⟩
      · exact ⟨.refl _, hw⟩
    · exact ⟨.refl _, hw⟩

end World

/-! ### Runs of the installation -/

theorem exec_engine (w : World) (a : Action) : installation.exec w [.engine a] = w.step a := rfl

theorem installation_operates {w : World} (hw : w.Sound) (os : List Operation) :
    w.db.Operates (installation.exec w os).db ∧ (installation.exec w os).Sound := by
  induction os generalizing w with
  | nil => exact ⟨.refl _, hw⟩
  | cons o os ih =>
    obtain ⟨ho, hs⟩ := World.operate_operates hw o
    obtain ⟨hos, hs'⟩ := ih hs
    exact ⟨ho.trans hos, hs'⟩

variable {fleet : Fleet} {os : List Operation} {id : RunID} {r : Run}

/-- A property of created runs that every change keeps holds of every run of every reachable world,
if every visit of the trace meets the condition. -/
theorem installation_invariant {J : View → Prop} {P : Visit → Prop}
    (hinit : ∀ r tr, r.Created → J ⟨r, tr⟩)
    (hstep : ∀ a b : View, a.run.Sound → J a → (∀ v ∈ b.trace, P v) → a.Change b → J b)
    (hP : ∀ v ∈ (installation.exec (World.initial fleet) os).db.sys.trace, P v)
    (hr : (installation.exec (World.initial fleet) os).db.runs.find? id = some r) :
    r.Sound ∧ r.id = id ∧ J ⟨r, (installation.exec (World.initial fleet) os).db.sys.trace⟩ := by
  obtain ⟨ho, hs⟩ := installation_operates (World.sound_initial fleet) os
  obtain ⟨r0, tr, hc, hid, he⟩ := ho.fresh id r rfl hr
  refine ⟨hs.db id r hr, ?_, he.invariant hstep hc.sound hP (hinit r0 tr hc)⟩
  exact (congrArg Prod.fst he.pinned).trans hid

/-- A property of a run that every change keeps holds of it, if every visit of this run meets the
condition. -/
theorem installation_run_invariant {I : Run → Prop} {P : Visit → Prop}
    (hinit : ∀ r, r.Created → I r) (hstep : ∀ a b : View, a.run.Sound → I a.run →
      (∀ v ∈ b.trace, v.run.id = a.run.id → P v) → a.Change b → I b.run)
    (hP : ∀ v ∈ (installation.exec (World.initial fleet) os).db.sys.trace, v.run.id = id → P v)
    (hr : (installation.exec (World.initial fleet) os).db.runs.find? id = some r) :
    r.Sound ∧ r.id = id ∧ I r := by
  obtain ⟨hs, hid, h⟩ := installation_invariant (J := fun v => v.run.id = id → I v.run)
    (P := fun v => v.run.id = id → P v) (fun r _ h _ => hinit r h)
    (fun a b hs h hP hc hid => by
      have hida : a.run.id = id := (congrArg Prod.fst hc.pinned).symm.trans hid
      exact hstep a b hs (h hida) (by rw [hida]; exact hP) hc) hP hr
  exact ⟨hs, hid, h hid⟩

theorem installation_sound
    (hr : (installation.exec (World.initial fleet) os).db.runs.find? id = some r) :
    r.Sound ∧ r.id = id := by
  obtain ⟨hs, hid, -⟩ := installation_invariant (J := fun _ => True) (P := fun _ => True)
    (fun _ _ _ => trivial) (fun _ _ _ _ _ _ => trivial) (fun _ _ => trivial) hr
  exact ⟨hs, hid⟩

theorem installation_append (ps : List Operation)
    (hr : (installation.exec (World.initial fleet) os).db.runs.find? id = some r) :
    ∃ r', (installation.exec (World.initial fleet) (os ++ ps)).db.runs.find? id = some r' ∧
      View.Operates ⟨r, (installation.exec (World.initial fleet) os).db.sys.trace⟩
        ⟨r', (installation.exec (World.initial fleet) (os ++ ps)).db.sys.trace⟩ := by
  rw [System.exec_append]
  have hs := (installation_operates (World.sound_initial fleet) os).2
  exact (installation_operates hs ps).1.kept id r hr

end

end Deadbolt.Execution

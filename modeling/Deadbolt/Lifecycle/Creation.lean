import Deadbolt.Execution.Creation
import Deadbolt.Lifecycle.Capacity
import Deadbolt.Lifecycle.Terminal

/-!
# Concurrent run creation

The advisory lock of the idempotency identity keeps its record from the lookup to the commit, and
the lock of the admission row keeps the bucket and the runs of the environment from the debit to
the commit. What the other operations of the installation commit meanwhile creates no run and ends
runs at most. Every creation therefore ends as it would alone, from the state that it commits to.
-/

namespace Deadbolt.Execution

open Base Contracts Tx Program

/-! ### Operations beside run creation -/

def RunScope.Passes (c c' : RunScope) : Prop := c.sys.ticks ≤ c'.sys.ticks

instance : Framed true RunScope.Passes where
  refl _ := le_refl _
  trans _ _ _ h h' := le_trans h h'
  tick _ := Nat.le_succ _
  draw _ := le_refl _
  visit _ _ _ := le_refl _
  write _ _ _ := le_refl _

/-- No run is created, and no record and no admission row is written. -/
structure Db.Alike (db db' : Db) : Prop where
  ticks : db.sys.ticks ≤ db'.sys.ticks
  keys : db'.runs.keys = db.runs.keys
  records : db'.records = db.records
  admissions : db'.fleet.admissions = db.fleet.admissions

instance : FramedRuns RunScope.Passes Db.Alike where
  refl _ := ⟨le_rfl, rfl, rfl, rfl⟩
  trans _ _ _ h h' := ⟨h.ticks.trans h'.ticks, h'.keys.trans h.keys, h'.records.trans h.records,
    h'.admissions.trans h.admissions⟩
  elapse _ _ := ⟨Nat.le_add_right _ _, rfl, rfl, rfl⟩
  draw _ := ⟨le_rfl, rfl, rfl, rfl⟩
  staff _ _ _ := ⟨le_rfl, rfl, rfl, rfl⟩
  run _ h := ⟨h, by simp [Db.putScope, Table.keys, Table.modify, Function.comp_def], rfl, rfl⟩

variable [Platform]

namespace World

theorem beside_alike (w : World) (o : Operation) : w.db.Alike (w.beside o).db := by
  have hstep (a : Action) (hcreate : ∀ req, a ≠ .createRun req)
      (hfleet : ∀ fleet, a ≠ .reconfigure fleet) : w.db.Alike (w.step a).db := by
    refine framed_step_runs ?_ ?_ (fun req h => absurd h (hcreate req))
      fun fleet h => absurd h (hfleet fleet)
    · rintro index verified locked ready rfl
      simp only [step, commitClaim]
      split
      · exact refl _
      · refine framed_attempt (w := { w with claims := _ }) (keeps_claimCommitTx _ _ _ _ _
          fun now pc => keeps_onRun (fun c => ?_) _)
        exact (claimCandidateTx_grants _ now _ pc c).mono fun _ _ h => h.1.ticks
    · rintro session attempts rfl
      exact framed_attempt (keeps_heartbeatAll (fun a e c =>
        (heartbeatTx_renews c session a e).mono fun _ _ h => h.1) attempts)
  cases o with
  | recover i stale => exact framed_recover w i stale
  | engine a =>
    cases a with
    | createRun req => exact refl _
    | reconfigure fleet => exact ⟨le_rfl, rfl, rfl, rfl⟩
    | _ => exact hstep _ (by simp) (by simp)

theorem beside_operates {w : World} (hw : w.Sound) (o : Operation) :
    w.db.Operates (w.beside o).db ∧ (w.beside o).Sound := by
  cases o with
  | recover i stale => exact operate_operates hw _
  | engine a =>
    cases a with
    | createRun req => exact ⟨.refl _, hw⟩
    | reconfigure fleet => exact operate_operates hw (.engine (.reconfigure _))
    | _ => exact operate_operates hw (.engine _)

end World

omit [Platform] in
theorem View.Operates.terminal {a b : View} (h : a.Operates b)
    (ht : a.run.status.terminal = true) : b.run.status.terminal = true := by
  induction h with
  | refl => exact ht
  | @tail b c _ hc ih =>
    obtain ⟨vs, hvs⟩ := hc.trace
    rcases hc.verdict hvs ih with hv | ⟨hf, -⟩
    · have hs : c.run.status = b.run.status := congrArg Prod.fst hv
      rw [hs]
      exact ih
    · rw [hf]
      rfl

variable {w w' : World} {now : Time} {r : Run} {held : Set CreationLock}

/-- A run that is there after an operation beside creation was there, with the same columns, and
open if it is open. -/
theorem World.beside_run (hw : w.Sound) (o : Operation) {id : RunID} {r' : Run}
    (hr' : (w.beside o).db.runs.find? id = some r') :
    ∃ r, w.db.runs.find? id = some r ∧ r'.pinned = r.pinned ∧
      (r.status.terminal = true → r'.status.terminal = true) := by
  obtain ⟨r, hr⟩ : ∃ r, w.db.runs.find? id = some r := by
    have hmem : id ∈ w.db.runs.keys := by
      rw [← (w.beside_alike o).keys]
      exact List.mem_map_of_mem (((w.beside o).db.runs.find?_eq_some_iff id r').mp hr')
    obtain ⟨e, he, rfl⟩ := List.mem_map.mp hmem
    exact ⟨e.2, (w.db.runs.find?_eq_some_iff e.1 e.2).mpr he⟩
  obtain ⟨r1, hr1, hop⟩ := (beside_operates hw o).1.kept id r hr
  obtain rfl := Option.mem_unique hr' hr1
  exact ⟨r, hr, hop.pinned, hop.terminal⟩

theorem World.beside_nonterminalRuns (hw : w.Sound) (o : Operation) (env : EnvironmentID) :
    (w.beside o).db.nonterminalRuns env ≤ w.db.nonterminalRuns env := by
  refine Table.length_filter_rows_le
    (p := fun r : Run => r.environmentID == env && !r.status.terminal)
    (q := fun r : Run => r.environmentID == env && !r.status.terminal)
    (w.beside_alike o).keys fun id r' hr' hp => ?_
  obtain ⟨r, hr, hpin, hterm⟩ := World.beside_run hw o hr'
  refine ⟨r, hr, ?_⟩
  simp only [Bool.and_eq_true, beq_iff_eq, Bool.not_eq_true'] at hp ⊢
  refine ⟨(Run.environmentID_of_pinned hpin).symm.trans hp.1, ?_⟩
  by_contra ht
  rw [hterm (by simpa using ht)] at hp
  cases hp.2

/-! ### The inserted run -/

structure Born (req : CreateRunRequest) (id : RunID) (createdAt : Time) (r : Run) : Prop where
  id : r.id = id
  environmentID : r.environmentID = req.environmentID
  idempotencyKey : r.idempotencyKey = req.idempotencyKey
  createdAt : r.createdAt = createdAt
  sound : r.Sound

omit [Platform] in
theorem Born.of_pinned {req : CreateRunRequest} {d : Deployment} {id : RunID}
    {steps : Table StepID Step} (h : r.pinned = (initialRun req d id now steps).pinned)
    (hr : r.Sound) : Born req id now r := by
  simp only [Run.pinned, initialRun, Prod.mk.injEq] at h
  exact ⟨h.1, h.2.1, h.2.2.2.2.2.1, h.2.2.2.2.2.2.1, hr⟩

/-- Readings, draws and visits are added. -/
structure Sys.Before (sys sys' : Sys) : Prop where
  ticks : sys.ticks ≤ sys'.ticks
  draws : sys.draws ≤ sys'.draws
  trace : sys.trace <+: sys'.trace

omit [Platform] in
theorem Sys.Before.refl (sys : Sys) : sys.Before sys := ⟨le_rfl, le_rfl, List.prefix_rfl⟩

omit [Platform] in
theorem Sys.Before.trans {a b c : Sys} (h : a.Before b) (h' : b.Before c) : a.Before c :=
  ⟨h.ticks.trans h'.ticks, h.draws.trans h'.draws, h.trace.trans h'.trace⟩

omit [Platform] in
theorem Sys.before_next (sys : Sys) :
    sys.Before { sys with ticks := sys.ticks + 1, draws := sys.draws + 1 } :=
  ⟨Nat.le_succ _, Nat.le_succ _, List.prefix_rfl⟩

omit [Platform] in
theorem Sys.Before.consume {sys sys' : Sys} (h : sys.Before sys') :
    sys.consume sys sys' = sys' := by
  obtain ⟨vs, hvs⟩ := h.trace
  simp only [Sys.consume, Nat.add_sub_cancel' h.ticks, Nat.add_sub_cancel' h.draws, ← hvs,
    List.drop_left]
  rw [hvs]

def RunScope.Extends (c c' : RunScope) : Prop := c.sys.Before c'.sys

instance : Framed true RunScope.Extends where
  refl c := Sys.Before.refl c.sys
  trans _ _ _ h h' := Sys.Before.trans h h'
  tick _ := ⟨Nat.le_succ _, le_rfl, List.prefix_rfl⟩
  draw _ := ⟨le_rfl, Nat.le_succ _, List.prefix_rfl⟩
  visit _ _ _ := ⟨le_rfl, le_rfl, List.prefix_append _ _⟩
  write c _ _ := Sys.Before.refl c.sys

theorem insertSteps_sys (nodes : List WorkflowNode) (steps : Table StepID Step) (db : Db) :
    Commits (insertSteps nodes steps) db fun _ db' =>
      ∃ sys, db.sys.Before sys ∧ db' = { db with sys := sys } := by
  induction nodes generalizing steps db with
  | nil => simpa [insertSteps] using ⟨db.sys, Sys.Before.refl db.sys, rfl⟩
  | cons node rest ih =>
    simp only [insertSteps, commits_bind, commits_dbNewID, commits_dbClock, commits_require]
    intro _
    split
    · simp
    · next steps1 hi =>
      refine (ih steps1 _).mono ?_
      rintro _ _ ⟨sys, hbefore, rfl⟩
      exact ⟨sys, (Sys.before_next db.sys).trans hbefore, rfl⟩

omit [Platform] in
theorem Statements.insertRow_eq {db : Db} {sys : Sys} (h : db.sys.Before sys) {call : CreateRunCall}
    {id : RunID} {runs : Table RunID Run} (hruns : db.runs.put id r = runs) :
    insertRow call id r db.sys sys db =
      { db with
        runs := runs
        records := db.records ++ [⟨call.req.environmentID, call.keyHash, call.requestHash, id⟩]
        sys := sys } := by
  rw [insertRow, h.consume, hruns]

/-- A creation commits one run, created at the next reading of the clock, and its record. -/
theorem insertRun_spec (req : CreateRunRequest) (db : Db) :
    Commits (insertRun req) db fun id db' => db.runs.find? id = none ∧
      db.sys.ticks < db'.sys.ticks ∧ ∃ r, Born req id (Platform.clock db.sys.ticks) r ∧
        db'.runs.find? id = some r ∧
        Statements.insertRow (req.call 0) id r db.sys db'.sys db = db' := by
  simp only [insertRun, commits_bind, commits_read, id]
  cases db.resolveDeployment req with
  | error err => simp
  | ok d =>
    simp only
    cases hwf : d.manifest.workflow? req.workflowName with
    | none => simp
    | some wf =>
      simp only [commits_bind, commits_require, commits_dbNewID, commits_dbClock]
      intro _ _
      refine ((insertSteps_spec wf.nodes _ _).and (insertSteps_sys wf.nodes _ _)).mono ?_
      rintro steps _ ⟨⟨-, ⟨rows, hrows, hall⟩, hnd⟩, sys, hbefore, rfl⟩
      replace hrows : steps.rows = rows := hrows
      have hticks : db.sys.ticks < sys.ticks := hbefore.ticks
      have hsys : db.sys.Before sys := (Sys.before_next db.sys).trans hbefore
      have hcreated : (initialRun req d (Platform.uuid db.sys.draws) (Platform.clock db.sys.ticks)
          steps).Created :=
        ⟨req, d, _, _, steps, wf, rfl, hwf,
          nodeIDs_of_forall₂ (hrows ▸ hall) ▸ hnd List.nodup_nil, hrows ▸ hall⟩
      simp only [commits_read, id]
      cases hi : db.runs.insert? (Platform.uuid db.sys.draws) (initialRun req d
          (Platform.uuid db.sys.draws) (Platform.clock db.sys.ticks) steps) with
      | none => simp
      | some runs =>
        have hfree := (Table.insert?_eq_some _ _ _ _ hi).1
        have hrow := (Table.find?_insert? hi (Platform.uuid db.sys.draws)).trans (if_pos rfl)
        simp only [commits_bind, commits_write, commits_ite, commits_pure]
        refine ⟨fun _ => ?_, fun _ => ⟨hfree, hticks, _, .of_pinned rfl hcreated.sound, hrow,
          Statements.insertRow_eq hsys (Table.put_of_insert? hi)⟩⟩
        rw [commits_onRun]
        intro r hr
        obtain rfl := Option.mem_unique hrow hr
        refine ((evaluateInitialDAG_leads (by exact hcreated.sound) (by exact hwf)).and
          (keeps_evaluateInitialDAG (R := RunScope.Extends) wf _)).mono ?_
        rintro _ c ⟨hl, hext⟩
        refine ⟨hfree, hticks.trans_le hext.ticks, c.run,
          .of_pinned hl.reaches.pinned (hl.sound hcreated.sound), ?_,
          Statements.insertRow_eq (hsys.trans hext) (Table.modify_of_insert? hi c.run).symm⟩
        rw [Db.find?_putScope, hr, Option.map_some, if_pos rfl]

/-! ### What a session relies on -/

omit [Platform] in
theorem Run.createdAt_of_pinned {r' : Run} (h : r'.pinned = r.pinned) :
    r'.createdAt = r.createdAt := congrArg (fun p => p.2.2.2.2.2.2.1) h

/-- A sound installation without runs from the future. -/
structure World.Timely (w : World) : Prop where
  sound : w.Sound
  past : ∀ id r, w.db.runs.find? id = some r → r.createdAt ≤ Platform.clock w.db.sys.ticks

omit [Platform] in
/-- What other sessions leave alone: the record of a locked identity, the bucket of a locked
admission row, whose environment gets no run and no open run, and the locked free keys. -/
structure Undisturbed (held : Set CreationLock) (w w' : World) : Prop where
  ticks : w.db.sys.ticks ≤ w'.db.sys.ticks
  record : ∀ env keyHash, .idempotency env keyHash ∈ held →
    w'.db.record? env keyHash = w.db.record? env keyHash
  admission : ∀ env a, .admission env ∈ held → w.db.fleet.admissions.find? env = some a →
    w'.db.fleet.admissions.find? env = some a
  room : ∀ env, .admission env ∈ held → w'.db.nonterminalRuns env ≤ w.db.nonterminalRuns env
  runs : ∀ env, .admission env ∈ held → ∀ id r', w'.db.runs.find? id = some r' →
    r'.environmentID = env → ∃ r, w.db.runs.find? id = some r ∧ r'.pinned = r.pinned
  free : ∀ id, .run id ∈ held → w.db.runs.find? id = none → w'.db.runs.find? id = none
  unprovisioned : ∀ env, .provision env ∈ held → w.db.fleet.admissions.find? env = none →
    w'.db.fleet.admissions.find? env = none

omit [Platform] in
theorem Undisturbed.refl (held : Set CreationLock) (w : World) : Undisturbed held w w :=
  ⟨le_rfl, fun _ _ _ => rfl, fun _ _ _ h => h, fun _ _ => le_rfl, fun _ _ _ r h _ => ⟨r, h, rfl⟩,
    fun _ _ h => h, fun _ _ h => h⟩

omit [Platform] in
theorem Undisturbed.trans {w'' : World} (h : Undisturbed held w w') (h' : Undisturbed held w' w'') :
    Undisturbed held w w'' where
  ticks := h.ticks.trans h'.ticks
  record env keyHash hk := (h'.record env keyHash hk).trans (h.record env keyHash hk)
  admission env a hk ha := h'.admission env a hk (h.admission env a hk ha)
  room env hk := (h'.room env hk).trans (h.room env hk)
  runs env hk id r'' hr'' henv := by
    obtain ⟨r', hr', hpin'⟩ := h'.runs env hk id r'' hr'' henv
    obtain ⟨r, hr, hpin⟩ := h.runs env hk id r' hr'
      ((Run.environmentID_of_pinned hpin').symm.trans henv)
    exact ⟨r, hr, hpin'.trans hpin⟩
  free id hk hn := h'.free id hk (h.free id hk hn)
  unprovisioned env hk hn := h'.unprovisioned env hk (h.unprovisioned env hk hn)

def creationRely : Rely CreationLock World where
  Allows held w w' := w.Timely → w'.Timely ∧ Undisturbed held w w'
  refl _ w h := ⟨h, .refl _ w⟩
  trans h h' hw := by
    obtain ⟨hw', hd⟩ := h hw
    obtain ⟨hw'', hd'⟩ := h' hw'
    exact ⟨hw'', hd.trans hd'⟩

/-! ### Admission -/

omit [Platform] in
def World.pass (n : Nat) (w : World) : World :=
  { w with db := { w.db with sys := { w.db.sys with ticks := w.db.sys.ticks + n } } }

omit [Platform] in
def World.admitted (env : EnvironmentID) (now : Time) (w : World) : World :=
  { w with db := Statements.debit env now (w.pass 1).db }

/-- A token may be debited at `now`: the admission row is locked, and the runs of the environment
are older. -/
structure Admits (env : EnvironmentID) (now : Time) (held : Set CreationLock) (w : World) : Prop where
  locked : .admission env ∈ held
  row : ∃ a, w.db.fleet.admissions.find? env = some a ∧ createTokenTime ≤ a.creditAt now
  past : ∀ id r, w.db.runs.find? id = some r → r.environmentID = env → r.createdAt ≤ now
  now : now ≤ Platform.clock w.db.sys.ticks

theorem Admits.stable {env : EnvironmentID} (h : Admits env now held w)
    (hd : Undisturbed held w w') : Admits env now held w' where
  locked := h.locked
  row := by
    obtain ⟨a, ha, hcredit⟩ := h.row
    exact ⟨a, hd.admission env a h.locked ha, hcredit⟩
  past id r' hr' henv := by
    obtain ⟨r, hr, hpin⟩ := hd.runs env h.locked id r' hr' henv
    rw [Run.createdAt_of_pinned hpin]
    exact h.past id r hr ((Run.environmentID_of_pinned hpin).symm.trans henv)
  now := h.now.trans (Platform.clock_mono hd.ticks)

theorem Admits.mono {env : EnvironmentID} {held' : Set CreationLock} (h : Admits env now held w)
    (hs : held ⊆ held') : Admits env now held' w :=
  ⟨hs h.locked, h.row, h.past, h.now⟩

/-- What a call has written when it is refused. -/
inductive Wastes (env : EnvironmentID) (held : Set CreationLock) (w : World) : World → Prop
  | pass (n : Nat) : Wastes env held w (w.pass n)
  | spend (now : Time) (h : Admits env now held w) : Wastes env held w (w.admitted env now)

/-- Where a call stands after the admission gates. -/
def Admission.Ends (env : EnvironmentID) (held : Set CreationLock) (w0 : World)
    (res : Except EngineError Unit) (c : Standing CreationLock World) : Prop :=
  held ⊆ c.held ∧ c.committed.Timely ∧ Undisturbed held w0 c.committed ∧
    match res with
    | .ok () => ∃ now, c.pending = World.admitted env now ∧ Admits env now c.held c.committed ∧
        c.committed.db.nonterminalRuns env < maxNonterminalRuns
    | .error _ => ∀ s, Undisturbed c.held c.committed s → Wastes env c.held s (c.pending s)

omit [Platform] in
theorem Undisturbed.mono {held' : Set CreationLock} (h : Undisturbed held' w w')
    (hs : held ⊆ held') : Undisturbed held w w' :=
  ⟨h.ticks, fun env k hk => h.record env k (hs hk), fun env a hk => h.admission env a (hs hk),
    fun env hk => h.room env (hs hk), fun env hk => h.runs env (hs hk),
    fun id hk => h.free id (hs hk), fun env hk => h.unprovisioned env (hs hk)⟩

namespace Statements

theorem wp_debitToken {env : EnvironmentID} {held : Set CreationLock} {w0 : World}
    (hw0 : w0.Timely) (hlock : .admission env ∈ held) :
    (debitToken env).wp creationRely (fun res c => c.held = held ∧ c.committed.Timely ∧
      Undisturbed held w0 c.committed ∧
      match res with
      | .ok () => ∃ now, c.pending = World.admitted env now ∧ Admits env now held c.committed
      | .error _ => c.pending = World.pass 1) ⟨held, id, w0⟩ := by
  simp only [debitToken, clockTimestamp, modifyDb, bind_eq, pure_eq,
    wp_bind, wp_read, wp_modify, wp_done, wp_require, id]
  intro w1 h1 w2 h2
  obtain ⟨hw1, hd1⟩ := h1 hw0
  obtain ⟨hw2, hd2⟩ := h2 hw1
  refine ⟨fun hcredit => ⟨trivial, hw2, hd1.trans hd2, _, rfl, ?_⟩, fun _ =>
    ⟨trivial, hw2, hd1.trans hd2, rfl⟩⟩
  obtain ⟨c, hc, hle⟩ := (Option.any_eq_true _ _).mp hcredit
  obtain ⟨a, ha, rfl⟩ := Option.map_eq_some_iff.mp hc
  refine ⟨hlock, ⟨a, ha, by simpa using hle⟩, ?_, Platform.clock_mono hd2.ticks⟩
  -- The runs that the debit finds were there when it read the clock.
  intro id r' hr' henv
  obtain ⟨r, hr, hpin⟩ := hd2.runs env hlock id r' hr' henv
  rw [Run.createdAt_of_pinned hpin]
  exact hw1.past id r hr

theorem wp_admitRun {env : EnvironmentID} {held : Set CreationLock} {w0 : World}
    (hw0 : w0.Timely) :
    (admitRun env).wp creationRely (Admission.Ends env held w0) ⟨held, id, w0⟩ := by
  unfold admitRun
  rw [bind_eq, wp_bind, wp_read]
  intro w1 h1
  obtain ⟨hw1, hd1⟩ := h1 hw0
  have hrefuse (e : EngineError) : Admission.Ends env held w0 (.error e) ⟨held, id, w1⟩ :=
    ⟨subset_rfl, hw1, hd1, fun s _ => .pass 0⟩
  dsimp only [id]
  split
  · exact hrefuse _
  · simp only [lockAdmission, bind_eq, wp_bind, wp_require,
      wp_claim, wp_done]
    refine ⟨fun _ w2 h2 => ?_, fun _ => hrefuse _⟩
    obtain ⟨hw2, hd2⟩ := h2 hw1
    refine ⟨fun hfound => ?_, fun hfound => ?_⟩
    · simp only [id] at hfound ⊢
      rw [if_pos hfound]
      refine wp_mono ?_ (wp_debitToken hw2
        (show .admission env ∈ insert (.admission env) held from Set.mem_insert _ _))
      rintro res ⟨held', pending, w3⟩ ⟨rfl, hw3, hd3, hres⟩
      have hd : Undisturbed held w0 w3 := (hd1.trans hd2).trans (hd3.mono (Set.subset_insert _ _))
      cases res with
      | error e =>
        obtain rfl := hres
        exact ⟨Set.subset_insert _ _, hw3, hd, fun s _ => .pass 1⟩
      | ok =>
        obtain ⟨now, rfl, hadmits⟩ := hres
        simp only [wp_read]
        intro w4 h4
        obtain ⟨hw4, hd4⟩ := h4 hw3
        have hd' := hd.trans (hd4.mono (Set.subset_insert _ _))
        refine ⟨fun hroom => ?_, fun _ => ?_⟩
        · exact ⟨Set.subset_insert _ _, hw4, hd', now, rfl, hadmits.stable hd4, hroom⟩
        · exact ⟨Set.subset_insert _ _, hw4, hd',
            fun s hs => .spend now ((hadmits.stable hd4).stable hs)⟩
    · simp only [id] at hfound ⊢
      rw [if_neg hfound]
      exact ⟨subset_rfl, hw2, hd1.trans hd2, fun s _ => .pass 0⟩

end Statements

/-! ### What a call commits -/

omit [Platform] in
def World.inserted (call : CreateRunCall) (now : Time) (id : RunID) (r : Run) (sys sys' : Sys)
    (w : World) : World :=
  { w with
    db := Statements.insertRow call id r sys sys' (w.admitted call.req.environmentID now).db }

/-- A new run of a locked environment under a locked key, created after the debit. -/
structure Inserts (call : CreateRunCall) (id : RunID) (held : Set CreationLock) (w w' : World) :
    Prop where
  key : .run id ∈ held
  free : w.db.runs.find? id = none
  room : w.db.nonterminalRuns call.req.environmentID < maxNonterminalRuns
  row : ∃ now createdAt r sys sys', Admits call.req.environmentID now held w ∧
    Born call.req id createdAt r ∧ now ≤ createdAt ∧
    createdAt ≤ Platform.clock w'.db.sys.ticks ∧ w' = w.inserted call now id r sys sys'

/-- What a call has written that found no record. -/
def Unrecorded (call : CreateRunCall) (res : Except EngineError (RunID × Bool))
    (held : Set CreationLock) (w w' : World) : Prop :=
  match res with
  | .ok (id, replay) => replay = false ∧ Inserts call id held w w'
  | .error _ => Wastes call.req.environmentID held w w'

/-- What `CreateRunInTx` has written when it ends. -/
def Ended (call : CreateRunCall) (res : Except EngineError (RunID × Bool))
    (held : Set CreationLock) (w w' : World) : Prop :=
  .idempotency call.req.environmentID call.keyHash ∈ held ∧
    match w.db.record? call.req.environmentID call.keyHash with
    | some rec => w' = w ∧ res =
        if rec.requestHash = call.requestHash then .ok (rec.runID, true)
        else .error .idempotencyConflict
    | none => Unrecorded call res held w w'

/-- A program's end that settles `P` for whatever is committed until then. -/
def Settled {α : Type} (held : Set CreationLock) (w0 : World)
    (P : Except EngineError α → Set CreationLock → World → World → Prop)
    (res : Except EngineError α) (c : Standing CreationLock World) : Prop :=
  held ⊆ c.held ∧ c.committed.Timely ∧ Undisturbed held w0 c.committed ∧
    ∀ s, Undisturbed c.held c.committed s → P res c.held s (c.pending s)

theorem Settled.since {α : Type} {held0 : Set CreationLock} {w0 : World}
    {P : Except EngineError α → Set CreationLock → World → World → Prop}
    {res : Except EngineError α} {c : Standing CreationLock World} (h : Settled held w P res c)
    (hsub : held0 ⊆ held) (hd : Undisturbed held0 w0 w) : Settled held0 w0 P res c := by
  obtain ⟨hsub', hw, hd', hp⟩ := h
  exact ⟨hsub.trans hsub', hw, hd.trans (hd'.mono hsub), hp⟩

/-- A locked identity without a record has none when the call ends. -/
theorem Settled.ended {call : CreateRunCall} {res : Except EngineError (RunID × Bool)}
    {c : Standing CreationLock World} (h : Settled held w (Unrecorded call) res c)
    (hlock : .idempotency call.req.environmentID call.keyHash ∈ held)
    (hrec : w.db.record? call.req.environmentID call.keyHash = none) :
    Settled held w (Ended call) res c := by
  obtain ⟨hsub, hw, hd, hp⟩ := h
  refine ⟨hsub, hw, hd, fun s hs => ⟨hsub hlock, ?_⟩⟩
  rw [(hs.record _ _ (hsub hlock)).trans ((hd.record _ _ hlock).trans hrec)]
  exact hp s hs

namespace Statements

theorem wp_insertRun (call : CreateRunCall) {now : Time} {held : Set CreationLock} {w0 : World}
    (hw0 : w0.Timely) (hadmits : Admits call.req.environmentID now held w0)
    (hroom : w0.db.nonterminalRuns call.req.environmentID < maxNonterminalRuns) :
    (insertRun call).wp creationRely
      (Settled held w0 fun res held w w' =>
        match res with
        | .ok id => Inserts call id held w w'
        | .error _ => Wastes call.req.environmentID held w w')
      ⟨held, World.admitted call.req.environmentID now, w0⟩ := by
  unfold insertRun
  rw [bind_eq, wp_bind, wp_read]
  intro w1 h1
  obtain ⟨hw1, hd1⟩ := h1 hw0
  dsimp only
  split
  · next e he =>
    exact ⟨subset_rfl, hw1, hd1, fun s hs => .spend now ((hadmits.stable hd1).stable hs)⟩
  · next id db he =>
    split
    · exact ⟨subset_rfl, hw1, hd1, fun s hs => .spend now ((hadmits.stable hd1).stable hs)⟩
    · next r hr =>
      obtain ⟨-, -, r', hborn, hr', -⟩ := insertRun_spec _ _ _ _ he
      obtain rfl := Option.mem_unique hr hr'
      simp only [modifyDb, bind_eq, pure_eq, wp_bind, wp_require,
        wp_claim, wp_done, wp_modify]
      intro w2 h2
      obtain ⟨hw2, hd2⟩ := h2 hw1
      refine ⟨fun hfree => ?_, fun hfree => ?_⟩
      · rw [if_pos hfree]
        refine ⟨Set.subset_insert _ _, hw2, hd1.trans hd2, fun s hs => ?_⟩
        have hd := hd2.trans (hs.mono (Set.subset_insert _ _))
        have hd0 := hd1.trans hd
        refine ⟨Set.mem_insert _ _,
          hs.free id (Set.mem_insert _ _) (Option.isNone_iff_eq_none.mp hfree),
          (hd0.room _ hadmits.locked).trans_lt hroom, now, _, r, _, _,
          (hadmits.stable hd0).mono (Set.subset_insert _ _), hborn, ?_, ?_, rfl⟩
        · exact (hadmits.stable hd1).now.trans (Platform.clock_mono (Nat.le_succ _))
        · exact Platform.clock_mono
            ((Nat.succ_le_succ hd.ticks).trans (Nat.le_add_right _ _))
      · rw [if_neg hfree]
        exact ⟨subset_rfl, hw2, hd1.trans hd2,
          fun s hs => .spend now (((hadmits.stable hd1).stable hd2).stable hs)⟩

theorem wp_createRunInTx (call : CreateRunCall) {held : Set CreationLock} {w0 : World}
    (hw0 : w0.Timely) :
    (createRunInTx call).wp creationRely (Settled held w0 (Ended call)) ⟨held, id, w0⟩ := by
  simp only [createRunInTx, bind_eq, pure_eq, wp_bind, wp_claim,
    wp_done, wp_read, id, if_true]
  intro w1 h1 w2 h2
  obtain ⟨hw1, hd1⟩ := h1 hw0
  obtain ⟨hw2, hd2⟩ := h2 hw1
  -- From here on the identity is locked, and its record stays as it was found.
  have hsub : held ⊆ insert (.idempotency call.req.environmentID call.keyHash) held :=
    Set.subset_insert _ _
  have hlock : CreationLock.idempotency call.req.environmentID call.keyHash ∈
      insert (.idempotency call.req.environmentID call.keyHash) held := Set.mem_insert _ _
  have hd0 := hd1.trans (hd2.mono hsub)
  split
  · next rec hrec =>
    simp only [wp_bind, wp_require, wp_done]
    have hfound (s : World) (hs : Undisturbed
        (insert (.idempotency call.req.environmentID call.keyHash) held) w2 s) :
        s.db.record? call.req.environmentID call.keyHash = some rec :=
      (hs.record _ _ hlock).trans hrec
    refine ⟨fun hhash => ?_, fun hhash => ?_⟩
    · exact ⟨hsub, hw2, hd0, fun s hs => ⟨hlock, by simp [hfound s hs, hhash]⟩⟩
    · exact ⟨hsub, hw2, hd0, fun s hs => ⟨hlock, by simp [hfound s hs, hhash]⟩⟩
  · next hrec =>
    refine wp_mono (fun res c h => (Settled.ended h hlock hrec).since hsub hd0) ?_
    refine (wp_bind _ _ _).mpr (wp_mono ?_ (wp_admitRun hw2))
    rintro res ⟨held3, pending, w3⟩ ⟨hsub3, hw3, hd3, hres⟩
    cases res with
    | error e => exact ⟨hsub3, hw3, hd3, hres⟩
    | ok =>
      obtain ⟨now, rfl, hadmits, hroom⟩ := hres
      refine (wp_bind _ _ _).mpr (wp_mono ?_ (wp_insertRun call hw3 hadmits hroom))
      intro res c h
      cases res with
      | error e => exact h.since hsub3 hd3
      | ok id =>
        obtain ⟨hsub4, hw4, hd4, hp⟩ := h
        exact Settled.since (w := w3) ⟨hsub4, hw4, hd4, fun s hs => ⟨rfl, hp s hs⟩⟩ hsub3 hd3

end Statements

/-! ### Commits are within the rely of the other sessions -/

/-- A commit that keeps the installation timely and leaves alone what other sessions lock. -/
def Unobtrusive (held : Set CreationLock) (w w' : World) : Prop :=
  w'.Timely ∧ ∀ held', Disjoint held' held → Undisturbed held' w w'

theorem Unobtrusive.refl (hw : w.Timely) : Unobtrusive held w w := ⟨hw, fun held' _ => .refl held' w⟩

theorem Unobtrusive.trans {w'' : World} (h : Unobtrusive held w w') (h' : Unobtrusive held w' w'') :
    Unobtrusive held w w'' :=
  ⟨h'.1, fun held' hd => (h.2 held' hd).trans (h'.2 held' hd)⟩

omit [Platform] in
def World.withAdmissions (w : World) (rows : Table EnvironmentID Admission) : World :=
  { w with db := { w.db with fleet := { w.db.fleet with admissions := rows } } }

namespace World.Timely

variable {w w' : World} {held : Set CreationLock} {env : EnvironmentID} {call : CreateRunCall}

theorem later (hw : w.Timely) (hsound : w'.Sound) (hticks : w.db.sys.ticks ≤ w'.db.sys.ticks)
    (hruns : ∀ id r', w'.db.runs.find? id = some r' →
      ∃ r, w.db.runs.find? id = some r ∧ r'.pinned = r.pinned) : w'.Timely where
  sound := hsound
  past id r' hr' := by
    obtain ⟨r, hr, hpin⟩ := hruns id r' hr'
    rw [Run.createdAt_of_pinned hpin]
    exact (hw.past id r hr).trans (Platform.clock_mono hticks)

theorem beside (hw : w.Timely) (held : Set CreationLock) (o : Operation) :
    Unobtrusive held w (w.beside o) := by
  have halike := w.beside_alike o
  have hruns (id : RunID) (r' : Run) (hr' : (w.beside o).db.runs.find? id = some r') :
      ∃ r, w.db.runs.find? id = some r ∧ r'.pinned = r.pinned := by
    obtain ⟨r, hr, hpin, -⟩ := World.beside_run hw.sound o hr'
    exact ⟨r, hr, hpin⟩
  refine ⟨hw.later (World.beside_operates hw.sound o).2 halike.ticks hruns, fun held' _ => ?_⟩
  exact
    { ticks := halike.ticks
      record := fun env keyHash _ => by simp only [Db.record?, halike.records]
      admission := fun env a _ ha => by rwa [halike.admissions]
      room := fun env _ => World.beside_nonterminalRuns hw.sound o env
      runs := fun env _ id r' hr' _ => hruns id r' hr'
      free := fun id _ hn => by
        cases hr : (w.beside o).db.runs.find? id with
        | none => rfl
        | some r' =>
          obtain ⟨r, hr, -⟩ := hruns id r' hr
          rw [hn] at hr
          cases hr
      unprovisioned := fun env _ hn => by rwa [halike.admissions] }

theorem pass (hw : w.Timely) (held : Set CreationLock) (n : Nat) :
    Unobtrusive held w (w.pass n) := by
  refine ⟨hw.later ⟨hw.sound.db, hw.sound.claims⟩ (Nat.le_add_right _ _)
    (fun _ r hr => ⟨r, hr, rfl⟩), fun held' _ => ?_⟩
  exact ⟨Nat.le_add_right _ _, fun _ _ _ => rfl, fun _ _ _ h => h, fun _ _ => le_rfl,
    fun _ _ _ r h _ => ⟨r, h, rfl⟩, fun _ _ h => h, fun _ _ h => h⟩

theorem withAdmissions (hw : w.Timely) {rows : Table EnvironmentID Admission}
    (hkept : ∀ env a, .admission env ∉ held → w.db.fleet.admissions.find? env = some a →
      rows.find? env = some a)
    (hnew : ∀ env, .provision env ∉ held → w.db.fleet.admissions.find? env = none →
      rows.find? env = none) : Unobtrusive held w (w.withAdmissions rows) := by
  refine ⟨⟨⟨hw.sound.db, hw.sound.claims⟩, hw.past⟩, fun held' hdisj => ?_⟩
  have hout {k : CreationLock} (hk : k ∈ held') : k ∉ held := Set.disjoint_left.mp hdisj hk
  exact ⟨le_rfl, fun _ _ _ => rfl, fun env a hk => hkept env a (hout hk), fun _ _ => le_rfl,
    fun _ _ _ r h _ => ⟨r, h, rfl⟩, fun _ _ h => h, fun env hk => hnew env (hout hk)⟩

theorem admitted (hw : w.Timely) {now : Time} (h : Admits env now held w) :
    Unobtrusive held w (w.admitted env now) := by
  have hp := hw.pass held 1
  refine hp.trans (hp.1.withAdmissions (fun env' a hk ha => ?_) fun env' _ hn => ?_)
  · have hne : env' ≠ env := fun he => hk (he ▸ h.locked)
    simp [Table.find?_modify, ha, hne]
  · simp [Table.find?_modify, hn]

theorem provisioned (hw : w.Timely) {maxConcurrency : Int} {now : Time}
    (hlock : .provision env ∈ held) (hfree : w.db.fleet.admissions.find? env = none) :
    Unobtrusive held w
      { w.pass 1 with db := Statements.provisioned env maxConcurrency now (w.pass 1).db } := by
  have hp := hw.pass held 1
  have hfree' : (w.pass 1).db.fleet.admissions.find? env = none := hfree
  refine hp.trans (hp.1.withAdmissions (fun env' a _ ha => ?_) fun env' hk hn => ?_)
  · have hne : env' ≠ env := by
      rintro rfl
      rw [hfree'] at ha
      cases ha
    rw [Table.find?_put hfree', if_neg hne, ha]
  · have hne : env' ≠ env := fun he => hk (he ▸ hlock)
    rw [Table.find?_put hfree', if_neg hne, hn]

theorem insertRow (hw : w.Timely) {id : RunID} {r : Run} {createdAt : Time} {sys sys' : Sys}
    (hidentity : .idempotency call.req.environmentID call.keyHash ∈ held)
    (hadmission : .admission call.req.environmentID ∈ held) (hkey : .run id ∈ held)
    (hfree : w.db.runs.find? id = none) (hborn : Born call.req id createdAt r)
    (hcreated : createdAt ≤ Platform.clock (w.db.sys.consume sys sys').ticks) :
    Unobtrusive held w { w with db := Statements.insertRow call id r sys sys' w.db } := by
  have hfind (id' : RunID) : (Statements.insertRow call id r sys sys' w.db).runs.find? id' =
      if id' = id then some r else w.db.runs.find? id' := Table.find?_put hfree r id'
  have hticks : w.db.sys.ticks ≤ (w.db.sys.consume sys sys').ticks := Nat.le_add_right _ _
  refine ⟨⟨⟨fun id' r' hr' => ?_, fun c hc pc hpc => ?_⟩, fun id' r' hr' => ?_⟩,
    fun held' hdisj => ?_⟩
  · rw [hfind] at hr'
    split at hr'
    · exact Option.some.inj hr' ▸ hborn.sound
    · exact hw.sound.db id' r' hr'
  · obtain ⟨r', s, hr', hrest⟩ := hw.sound.claims c hc pc hpc
    refine ⟨r', s, (hfind _).trans (Eq.trans (if_neg fun he => ?_) hr'), hrest⟩
    rw [he, hfree] at hr'
    cases hr'
  · rw [hfind] at hr'
    split at hr'
    · obtain rfl := Option.some.inj hr'
      exact hborn.createdAt ▸ hcreated
    · exact (hw.past id' r' hr').trans (Platform.clock_mono hticks)
  · have hout {k : CreationLock} (hk : k ∈ held') (hk' : k ∈ held) : False :=
      Set.disjoint_left.mp hdisj hk hk'
    refine ⟨hticks, fun env keyHash hk => ?_, fun _ _ _ h => h, fun env hk => ?_,
      fun env hk id' r' hr' henv => ?_, fun id' hk hn => ?_, fun _ _ h => h⟩
    · have hne : ¬(call.req.environmentID = env ∧ call.keyHash = keyHash) := by
        rintro ⟨rfl, rfl⟩
        exact hout hk hidentity
      simp [Db.record?, Statements.insertRow, List.find?_append, hne]
    · have hne : call.req.environmentID ≠ env := by
        rintro rfl
        exact hout hk hadmission
      simp [Db.nonterminalRuns, Statements.insertRow, Table.rows_put hfree, hborn.environmentID,
        hne]
    · rw [hfind] at hr'
      split at hr'
      · obtain rfl := Option.some.inj hr'
        rw [hborn.environmentID] at henv
        exact (hout (henv ▸ hk) hadmission).elim
      · exact ⟨r', hr', rfl⟩
    · have hne : id' ≠ id := fun he => hout hk (he ▸ hkey)
      exact (hfind id').trans ((if_neg hne).trans hn)

theorem inserted (hw : w.Timely) {id : RunID}
    (hidentity : .idempotency call.req.environmentID call.keyHash ∈ held)
    (h : Inserts call id held w w') : Unobtrusive held w w' := by
  obtain ⟨now, createdAt, r, sys, sys', hadmits, hborn, -, hcreated, rfl⟩ := h.row
  have ha := hw.admitted hadmits
  exact ha.trans (ha.1.insertRow hidentity hadmits.locked h.key h.free hborn hcreated)

theorem wasted (hw : w.Timely) (h : Wastes env held w w') : Unobtrusive held w w' := by
  cases h with
  | pass n => exact hw.pass held n
  | spend now h => exact hw.admitted h

theorem ended (hw : w.Timely) {res : Except EngineError (RunID × Bool)}
    (h : Ended call res held w w') : Unobtrusive held w w' := by
  obtain ⟨hlock, h⟩ := h
  split at h
  · obtain ⟨rfl, -⟩ := h
    exact .refl hw
  · match res with
    | .ok (id, replay) => exact hw.inserted hlock h.2
    | .error e => exact hw.wasted h

end World.Timely

/-! ### Every session keeps the discipline -/

/-- What a session has done when it ends: the refusal of a request or the end of its call, rolled
back if it failed; the outcome of an occurrence; one operation; or a new admission row. -/
def ScheduledRequest.Post (held : Set CreationLock) (res : Except CreateRunError CreationResult)
    (w w' : World) : ScheduledRequest → Prop
  | request (.createRun req skipped) =>
    match req.refusal with
    | some e => res = .error e ∧ w' = w
    | none => ∃ txres written, Ended (req.call skipped) txres held w written ∧
        match txres with
        | .ok (id, replay) => res = .ok (.run id replay) ∧ w' = written
        | .error e => res = .error (.transaction e) ∧ w' = w
  | request (.operate o) => res = .ok .done ∧ w' = w.beside o
  | request (.provision env maxConcurrency) =>
    match res with
    | .ok _ => .provision env ∈ held ∧ w.db.fleet.admissions.find? env = none ∧ ∃ now,
        w' = { w.pass 1 with db := Statements.provisioned env maxConcurrency now (w.pass 1).db }
    | .error _ => w' = w
  | occurrence o skipped => ∃ txres written, Ended (o.call skipped) txres held w written ∧
      if res.isOk then w' = written else w' = w

theorem ScheduledRequest.Post.unobtrusive {r : ScheduledRequest}
    {res : Except CreateRunError CreationResult} (hw : w.Timely) (h : r.Post held res w w') :
    Unobtrusive held w w' := by
  match r with
  | request (.createRun req skipped) =>
    simp only [Post] at h
    split at h
    · obtain ⟨-, rfl⟩ := h
      exact .refl hw
    · obtain ⟨txres, written, hended, h⟩ := h
      split at h
      · obtain ⟨-, rfl⟩ := h
        exact hw.ended hended
      · obtain ⟨-, rfl⟩ := h
        exact .refl hw
  | request (.operate o) =>
    obtain ⟨-, rfl⟩ := h
    exact hw.beside held o
  | request (.provision env maxConcurrency) =>
    simp only [Post] at h
    split at h
    · obtain ⟨hlock, hfree, now, rfl⟩ := h
      exact hw.provisioned hlock hfree
    · obtain rfl := h
      exact .refl hw
  | occurrence o skipped =>
    obtain ⟨txres, written, hended, h⟩ := h
    split at h
    · obtain rfl := h
      exact hw.ended hended
    · obtain rfl := h
      exact .refl hw

theorem CreationRequest.meets_createRun (req : CreateRunRequest) (skipped : Nat) (hw : w.Timely) :
    (Statements.createRun req skipped).wp creationRely
      (fun res c => ∀ s, creationRely.Allows c.held c.committed s →
        (ScheduledRequest.request (.createRun req skipped)).Post c.held res s
          (if res.isOk then c.pending s else s)) ⟨∅, id, w⟩ := by
  cases he : req.refusal with
  | some e =>
    simp only [Statements.createRun, he, ScheduledRequest.Post, wp_fail]
    exact fun s _ => ⟨trivial, rfl⟩
  | none =>
    simp only [Statements.createRun, he, ScheduledRequest.Post, bind_eq, wp_bind,
      wp_attempt]
    refine wp_mono ?_ (Statements.wp_createRunInTx (req.call skipped) hw)
    rintro res c ⟨-, hc, -, hended⟩
    cases res with
    | ok run => exact fun s hs => ⟨_, _, hended s (hs hc).2, rfl, rfl⟩
    | error e => exact fun s hs => ⟨_, _, hended s (hs hc).2, rfl, rfl⟩

theorem CreationRequest.meets_provision (env : EnvironmentID) (maxConcurrency : Int)
    (hw : w.Timely) : (Statements.provision env maxConcurrency).wp creationRely
      (fun res c => ∀ s, creationRely.Allows c.held c.committed s →
        (ScheduledRequest.request (.provision env maxConcurrency)).Post c.held res s
          (if res.isOk then c.pending s else s)) ⟨∅, id, w⟩ := by
  simp only [Statements.provision, Statements.clockTimestamp, modifyDb, bind_eq,
    pure_eq, wp_bind, wp_claim, wp_done, wp_require,
    wp_read, wp_modify, id]
  intro w1 h1
  obtain ⟨hw1, -⟩ := h1 hw
  refine ⟨fun hfree w2 h2 s hs => ?_, fun _ s _ => rfl⟩
  rw [if_pos hfree] at h2 hs ⊢
  obtain ⟨hw2, hd2⟩ := h2 hw1
  obtain ⟨-, hd⟩ := hs hw2
  have hlock : CreationLock.provision env ∈ insert (.provision env) (∅ : Set CreationLock) :=
    Set.mem_insert _ _
  exact ⟨hlock, hd.unprovisioned env hlock
    (hd2.unprovisioned env hlock (Option.isNone_iff_eq_none.mp hfree)), _, rfl⟩

theorem ScheduledRequest.meets_occurrence (o : Occurrence) (skipped : Nat) (hw : w.Timely) :
    (Statements.evaluateOne o skipped).wp creationRely
      (fun res c => ∀ s, creationRely.Allows c.held c.committed s →
        (occurrence o skipped).Post c.held res s
          (if res.isOk then c.pending s else s)) ⟨∅, id, w⟩ := by
  simp only [Statements.evaluateOne, bind_eq, wp_bind, wp_claim,
    wp_done, wp_attempt]
  intro w1 h1
  obtain ⟨hw1, -⟩ := h1 hw
  refine wp_mono ?_ (Statements.wp_createRunInTx (o.call skipped) hw1)
  rintro res c ⟨-, hc, -, hended⟩
  cases res with
  | ok run => exact fun s hs => ⟨_, _, hended s (hs hc).2, rfl⟩
  | error e =>
    dsimp only
    split
    · exact fun s hs => ⟨_, _, hended s (hs hc).2, rfl⟩
    · split
      · exact fun s hs => ⟨_, _, hended s (hs hc).2, rfl⟩
      · exact fun s hs => ⟨_, _, hended s (hs hc).2, rfl⟩

/-- Sessions that create runs, operate the installation and provision environments. -/
def creation : Discipline ScheduledRequest.program where
  inv := World.Timely
  rely := creationRely
  post r held res w w' := r.Post held res w w'
  meets r w hw := by
    match r with
    | .request (.createRun req skipped) => exact CreationRequest.meets_createRun req skipped hw
    | .request (.operate o) => exact fun s _ => ⟨rfl, rfl⟩
    | .request (.provision env maxConcurrency) =>
      exact CreationRequest.meets_provision env maxConcurrency hw
    | .occurrence o skipped => exact ScheduledRequest.meets_occurrence o skipped hw
  keeps hw h := (h.unobtrusive hw).1
  apart hw hdisj h hw' := ⟨(h.unobtrusive hw').1, (h.unobtrusive hw').2 _ hdisj⟩

theorem World.timely_initial (fleet : Fleet) : (World.initial fleet).Timely :=
  ⟨World.sound_initial fleet, fun _ _ h => (nomatch h)⟩

/-! ### A call alone -/

omit [Platform] in
/-- A result on the database as one on the installation. -/
def World.lift {α : Type} (w : World) :
    Except EngineError (α × Db) → Except EngineError (α × World)
  | .ok (a, db) => .ok (a, { w with db := db })
  | .error e => .error e

theorem run_insertRun (req : CreateRunRequest) (w : World) :
    (Statements.insertRun (req.call 0)).run w = w.lift (insertRun req w.db) := by
  have hsnapshot : insertRun (req.call 0).req (Statements.snapshot (req.call 0) w) =
    insertRun req w.db := rfl
  unfold Statements.insertRun
  rw [bind_eq, run_bind, run_read]
  dsimp only
  rw [hsnapshot]
  cases hrun : insertRun req w.db with
  | error e => rfl
  | ok x =>
    obtain ⟨id, db⟩ := x
    obtain ⟨hfree, -, r, -, hr, hrow⟩ := insertRun_spec req w.db id db hrun
    simp only [hr, modifyDb, Program.require, hfree, bind_eq, pure_eq,
      run_bind, run_claim, run_done, run_modify,
      Option.isNone_none, if_true, World.lift, hrow]

theorem run_admitRun (env : EnvironmentID) (w : World) :
    (Statements.admitRun env).run w = w.lift (admitRun env w.db) := by
  have hclock : dbClock w.db = .ok (Platform.clock w.db.sys.ticks, (w.pass 1).db) := rfl
  unfold Statements.admitRun admitRun
  rw [bind_eq, run_bind, run_read, bind_apply]
  simp only [Tx.read, id]
  cases w.db.fleet.controls with
  | none => rfl
  | some controls =>
    by_cases hopen : controls.admissionEnabled = true ∧ controls.mode.closed = false
    · cases hrow : w.db.fleet.admissions.find? env with
      | none =>
        simp [Statements.lockAdmission, Program.require, hopen, hrow, run_bind,
          bind_apply, require_apply, Tx.fail, World.lift]
      | some a =>
        by_cases hcredit : createTokenTime ≤ a.creditAt (Platform.clock w.db.sys.ticks)
        · by_cases hroom : w.db.nonterminalRuns env < maxNonterminalRuns
          all_goals
            unfold Db.nonterminalRuns at hroom
            simp [Statements.lockAdmission, Statements.debitToken, Statements.clockTimestamp,
              Statements.debit, Program.require, modifyDb, hopen, hrow, run_bind, hcredit,
              Db.nonterminalRuns, hroom, bind_apply, require_apply, Tx.write, hclock,
              World.lift, World.pass]
        · simp [Statements.lockAdmission, Statements.debitToken, Statements.clockTimestamp,
              Program.require, modifyDb, hopen, hrow, run_bind, hcredit,
              bind_apply, require_apply, hclock, World.lift]
    · simp [Program.require, hopen, run_bind, bind_apply, require_apply, World.lift]

omit [Platform] in
theorem World.lift_bind {α β : Type} (w : World) (x : DbTx α) (f : α → DbTx β) :
    w.lift ((x >>= f) w.db) = match w.lift (x w.db) with
      | .ok (a, w') => w'.lift (f a w'.db)
      | .error e => .error e := by
  rw [bind_apply]
  cases x w.db <;> rfl

/-- Without competition a call is the transaction of the engine. -/
theorem run_createRunInTx (req : CreateRunRequest) (w : World) :
    (Statements.createRunInTx (req.call 0)).run w = w.lift (createRunInTx req w.db) := by
  have hread : w.lift (Tx.read (ε := EngineError) id w.db) = .ok (w.db, w) := rfl
  unfold Statements.createRunInTx createRunInTx
  rw [bind_eq, run_bind, run_claim, run_done, World.lift_bind, hread]
  simp only [bind_eq, run_bind, run_read, Db.record?]
  change (match w.db.records.find? fun rec =>
    rec.environmentID == req.environmentID && rec.keyHash == req.keyHash with
    | some rec => _
    | none => _ : CreationProgram _).run w = _
  generalize (w.db.records.find? fun rec =>
    rec.environmentID == req.environmentID && rec.keyHash == req.keyHash) = found
  cases found with
  | some rec =>
    have hhash : (req.call 0).requestHash = req.requestHash := rfl
    simp only [run_bind, hhash, World.lift_bind, Program.require, Tx.require]
    by_cases h : rec.requestHash = req.requestHash
    · rw [if_pos h, if_pos h]
      rfl
    · rw [if_neg h, if_neg h]
      rfl
  | none =>
    have henv : (req.call 0).req.environmentID = req.environmentID := rfl
    simp only [run_bind, henv, run_admitRun, World.lift_bind]
    cases w.lift (admitRun req.environmentID w.db) with
    | error e => rfl
    | ok x =>
      simp only [run_insertRun]
      cases x.2.lift (insertRun req x.2.db) <;> rfl

end Deadbolt.Execution

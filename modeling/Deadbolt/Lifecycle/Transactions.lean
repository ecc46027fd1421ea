import Deadbolt.Lifecycle.Database

/-!
# Creation, claims, fencing and sweeps as moves

The transactions of `Execution/Transactions.lean` evolve every sound database. Two of them
act on rows they selected earlier in the same transaction: the lease sweep on its handoffs
and session fencing on the attempts of a worker. Their loops keep what they selected until its
turn comes, because each turn leaves the steps of the others alone.
-/

namespace Deadbolt.Execution

open Base Contracts Tx

variable [Platform]

/-! ### The clock and new ids -/

@[simp] theorem commits_dbClock (db : Db) (Q : Time → Db → Prop) :
    Commits dbClock db Q ↔ Q (Platform.clock db.sys.ticks)
      { db with sys := { db.sys with ticks := db.sys.ticks + 1 } } := by
  simp [dbClock]

@[simp] theorem commits_dbNewID (db : Db) (Q : Nat → Db → Prop) :
    Commits dbNewID db Q ↔ Q (Platform.uuid db.sys.draws)
      { db with sys := { db.sys with draws := db.sys.draws + 1 } } := by
  simp [dbNewID]

theorem Refines.dbClock : Refines dbClock := .of_same fun _ => by simp

theorem Refines.dbNewID : Refines dbNewID := .of_same fun _ => by simp

omit [Platform] in
theorem Refines.write_fleet (f : Db → Fleet) :
    Refines (Tx.write fun db => { db with fleet := f db } : DbTx Unit) := .of_same fun _ => by simp

/-! ### Creation -/

theorem insertSteps_spec (nodes : List WorkflowNode) (steps : Table StepID Step) (db : Db) :
    Commits (insertSteps nodes steps) db fun steps' db' =>
      (db'.runs = db.runs ∧ db'.sys.trace = db.sys.trace) ∧
        (∃ rows, steps'.rows = steps.rows ++ rows ∧
          List.Forall₂ (fun n e => ∃ t, e.2 = initialStep n t) nodes rows) ∧
        ((steps.rows.map fun e => e.2.nodeID).Nodup →
          (steps'.rows.map fun e => e.2.nodeID).Nodup) := by
  induction nodes generalizing steps db with
  | nil => simp [insertSteps]
  | cons node rest ih =>
    simp only [insertSteps, commits_bind, commits_dbNewID, commits_dbClock, commits_require]
    intro hfresh
    cases hi : steps.insert? (Platform.uuid db.sys.draws)
        (initialStep node (Platform.clock db.sys.ticks)) with
    | none => simp
    | some steps1 =>
      obtain ⟨-, hrows⟩ := Table.insert?_eq_some _ _ _ _ hi
      refine (ih steps1 _).mono ?_
      rintro steps' db' ⟨hsame, ⟨rows, hr, hall⟩, hnd⟩
      refine ⟨hsame, ⟨_ :: rows, by rw [hr, hrows, List.append_assoc]; rfl, .cons ⟨_, rfl⟩ hall⟩,
        fun h => hnd ?_⟩
      rw [hrows, List.map_append, List.nodup_append]
      refine ⟨h, by simp, ?_⟩
      intro x hx y hy he
      obtain ⟨e, he', rfl⟩ := List.mem_map.mp hx
      obtain rfl : y = node.id := by simpa [initialStep] using hy
      have := (Table.any_eq_false ..).mp hfresh e he'
      simp [he] at this

omit [Platform] in
theorem nodeIDs_of_forall₂ {nodes : List WorkflowNode} {rows : List (StepID × Step)}
    (h : List.Forall₂ (fun n e => ∃ t, e.2 = initialStep n t) nodes rows) :
    (rows.map fun e => e.2.nodeID) = nodes.map WorkflowNode.id := by
  induction h with
  | nil => rfl
  | cons he _ ih =>
    obtain ⟨t, ht⟩ := he
    simp [ih, ht, initialStep]

variable {db : Db} {r : Run} {pending : List PendingClaim}

omit [Platform] in
theorem Db.evolves_insert {db' : Db} {id : RunID} (hi : db.runs.insert? id r = some db'.runs)
    (ht : db'.sys.trace = db.sys.trace) (hc : r.Created) (hid : r.id = id) : db.Evolves db' where
  trace := ⟨[], by simp [ht]⟩
  kept k r' hk := by
    refine ⟨r', ?_, by rw [ht]; exact View.Evolves.refl _⟩
    rw [Table.find?_insert? hi, if_neg, hk]
    rintro rfl
    rw [(Table.insert?_eq_some _ _ _ _ hi).1] at hk
    cases hk
  fresh k r' hn hk := by
    rw [Table.find?_insert? hi] at hk
    split at hk
    · cases hk
      exact ⟨r, _, hc, by simp_all, View.Evolves.refl _⟩
    · rw [hn] at hk
      cases hk

theorem Refines.admitRun (env : EnvironmentID) : Refines (admitRun env) := by
  refine .bind (.read _) fun db => ?_
  cases db.fleet.controls with
  | none => exact .fail _
  | some controls =>
    refine .bind (.require _ _) fun _ => ?_
    cases db.fleet.admissions.find? env with
    | none => exact .fail _
    | some a =>
      exact .bind .dbClock fun _ => .bind (.require _ _) fun _ =>
        .bind (.write_fleet _) fun _ => .require _ _

theorem Refines.insertRun (req : CreateRunRequest) : Refines (insertRun req) := by
  intro db hdb
  simp only [Execution.insertRun, commits_bind, commits_read, id]
  cases db.resolveDeployment req with
  | error err => simp
  | ok d =>
    simp only
    cases hwf : d.manifest.workflow? req.workflowName with
    | none => simp
    | some wf =>
      simp only [commits_bind, commits_require, commits_dbNewID, commits_dbClock]
      intro _ _
      refine (insertSteps_spec wf.nodes _ _).mono ?_
      rintro steps db1 ⟨⟨hruns, htr⟩, ⟨rows, hrows, hall⟩, hnd⟩
      replace hrows : steps.rows = rows := hrows
      have hcreated (id : RunID) (now : Time) : (initialRun req d id now steps).Created :=
        ⟨req, d, id, now, steps, wf, rfl, hwf,
          nodeIDs_of_forall₂ (hrows ▸ hall) ▸ hnd List.nodup_nil, hrows ▸ hall⟩
      simp only [commits_read, id]
      cases hi : db1.runs.insert? (Platform.uuid db.sys.draws) (initialRun req d
          (Platform.uuid db.sys.draws) (Platform.clock db.sys.ticks) steps) with
      | none => simp
      | some runs =>
        simp only [commits_bind, commits_write, commits_ite, commits_pure]
        have he (records : List IdempotencyRecord) :
            db.Evolves { db1 with runs := runs, records := records } :=
          Db.evolves_insert (by rw [← hruns]; exact hi) htr (hcreated _ _) rfl
        refine ⟨fun _ => ?_, fun _ => he _⟩
        rw [commits_onRun]
        intro r hr
        have hr0 := hr
        rw [Table.find?_insert? hi, if_pos rfl] at hr0
        obtain rfl := Option.some.inj hr0
        exact Commits.mono (evaluateInitialDAG_leads (by exact (hcreated _ _).sound)
          (by exact hwf)) fun _ _ hl => (he _).trans (Db.evolves_putScope hr hl.transacts)

theorem Refines.createRunInTx (req : CreateRunRequest) : Refines (createRunInTx req) := by
  refine .bind (.read _) fun db => ?_
  split
  · exact .bind (.require _ _) fun _ => .pure _
  · exact .bind (.admitRun _) fun _ => .bind (.insertRun _) fun _ => .pure _

/-! ### Timers, overdue runs, cancellation, approvals and repair -/

theorem Refines.fireDueRetryTimersTx : Refines fireDueRetryTimersTx := by
  refine .bind .dbClock fun queried => .bind (.read _) fun db => .ite (.pure _) (.bind .dbClock
    fun now => .foldEach (fun c _ fired => .bind (.onRun_leads fun _ _ => ?_) fun _ => .pure _) _)
  exact fireRetryTimerTx_leads _ _ _ _

theorem Refines.fireDueDelayTimers : Refines fireDueDelayTimers := by
  refine .bind .dbClock fun queried => .bind (.read _) fun db => .bind .dbClock fun now =>
    .foldEach (fun c _ fired => .bind (.onRun_leads fun _ hr => ?_) fun _ => .pure _) _
  exact fireDelayTimerTx_leads hr _ _ _

theorem Refines.failOverdueRunsTx : Refines failOverdueRunsTx := by
  refine .bind .dbClock fun now => .bind (.read _) fun db => .forEach fun id _ =>
    .onRun_leads fun _ _ => ?_
  exact failOverdueRunTx_leads _

theorem Refines.settleCancellingRunsTx : Refines settleCancellingRunsTx := by
  refine .bind (.read _) fun db => .forEach fun id _ => .bind (.onRun_leads fun _ _ => ?_)
    fun _ => .pure _
  exact settleCancellingRunTx_leads _

theorem Refines.sweepExpiredApprovals : Refines sweepExpiredApprovals := by
  refine .bind .dbClock fun now => .bind (.read _) fun db => .forEach fun d _ =>
    .onRun_leads fun _ _ => ?_
  exact expireApprovalTx_leads _ _ _ _

theorem Refines.reconcileReadyWork (locked : List RunID) : Refines (reconcileReadyWork locked) := by
  refine .bind (.read _) fun db => .forEach fun id _ => .onRun_leads fun _ hr => ?_
  exact reconcileReadyRunTx_leads hr

/-! ### Lost attempts and recovery handoffs -/

omit [Platform] in
theorem RunStatus.sweepSkips_of_closing {s : RunStatus} (h : s.closing = true) :
    s.sweepSkips = true := by
  cases s <;> first | rfl | cases h

namespace Db

/-- The step is in a handoff, or its run has left the lease sweep. -/
def HandsOff (db : Db) (h : RunID × StepID) : Prop :=
  ∀ r, db.runs.find? h.1 = some r → r.status.sweepSkips = true ∨
    ∃ s, r.steps.find? h.2 = some s ∧ s.waitsFor "RECOVERY_HANDOFF" = true

omit [Platform] in
/-- A turn of the lease sweep on another step leaves a handoff alone. -/
theorem HandsOff.putScope {db : Db} {h : RunID × StepID} (hh : db.HandsOff h) {id : RunID}
    {r : Run} {c : RunScope} {k : StepID} (hr : db.runs.find? id = some r)
    (hc : c.run = r ∨ r.status.sweepSkips = false ∧ Run.Focused k r c.run)
    (hne : h.1 = id → r.status.sweepSkips = false → h.2 ≠ k) : (db.putScope id c).HandsOff h := by
  intro r' hr'
  rw [find?_putScope] at hr'
  by_cases hid : h.1 = id
  · rw [hid, hr] at hr'
    obtain rfl : c.run = r' := by simpa using hr'
    rcases hc with hc | ⟨hskips, hc⟩
    · exact hc ▸ hh r (hid ▸ hr)
    · obtain ⟨s, hs, hw⟩ := (hh r (hid ▸ hr)).resolve_left (by simp [hskips])
      rcases hc with hc | hc
      · exact .inl (RunStatus.sweepSkips_of_closing hc)
      · exact .inr ⟨s, by rw [hc h.2 (hne hid hskips), hs], hw⟩
  · simp only [hid, if_false, Option.map_id'] at hr'
    exact hh r' hr'

omit [Platform] in
theorem mem_runsByID {db : Db} {e : RunID × Run} (h : e ∈ db.runsByID) :
    db.runs.find? e.1 = some e.2 :=
  (db.runs.find?_eq_some_iff e.1 e.2).mpr ((List.perm_insertionSort ..).mem_iff.mp h)

omit [Platform] in
theorem pairwise_runsByID (db : Db) : db.runsByID.Pairwise fun a b => a.1 ≠ b.1 :=
  (List.perm_insertionSort ..).symm.pairwise db.runs.pairwise_keys Ne.symm

end Db

namespace Run

omit [Platform] in
theorem mem_stepsByID {r : Run} {e : StepID × Step} (h : e ∈ r.stepsByID) :
    r.steps.find? e.1 = some e.2 :=
  (r.steps.find?_eq_some_iff e.1 e.2).mpr ((List.perm_insertionSort ..).mem_iff.mp h)

omit [Platform] in
theorem pairwise_stepsByID (r : Run) : r.stepsByID.Pairwise fun a b => a.1 ≠ b.1 :=
  (List.perm_insertionSort ..).symm.pairwise r.steps.pairwise_keys Ne.symm

end Run

namespace Db

omit [Platform] in
theorem handsOff_of_mem {db : Db} {locked : List RunID} {h : RunID × StepID}
    (hm : h ∈ db.handoffSteps locked) : db.HandsOff h := by
  obtain ⟨e, he, hm⟩ := List.mem_flatMap.mp hm
  split at hm
  · cases hm
  · obtain ⟨k, hk, rfl⟩ := List.mem_map.mp hm
    unfold Run.handoffSteps at hk
    split at hk
    · obtain ⟨s, hs, rfl⟩ := List.mem_map.mp hk
      obtain ⟨hs, hw⟩ := List.mem_filter.mp hs
      intro r hr
      obtain rfl := Option.mem_unique (mem_runsByID he) hr
      exact .inr ⟨s.2, Run.mem_stepsByID hs, hw⟩
    · cases hk

omit [Platform] in
theorem nodup_handoffSteps (db : Db) (locked : List RunID) : (db.handoffSteps locked).Nodup := by
  refine List.pairwise_flatMap.mpr ⟨fun e _ => ?_, db.pairwise_runsByID.imp fun hne x hx y hy => ?_⟩
  · split
    · exact List.Pairwise.nil
    · refine List.Nodup.map (fun _ _ h => (Prod.mk.inj h).2) ?_
      unfold Run.handoffSteps
      split
      · exact List.pairwise_map.mpr (e.2.pairwise_stepsByID.filter _)
      · exact List.Pairwise.nil
  · split at hx <;> split at hy <;> simp only [List.not_mem_nil, List.mem_map] at hx hy
    obtain ⟨_, -, rfl⟩ := hx
    obtain ⟨_, -, rfl⟩ := hy
    exact fun h => hne (Prod.mk.inj h).1

end Db

theorem loseAttemptTx_handsOff (hdb : db.Sound) (id : RunID) (k : StepID) (attempt : AttemptID)
    (now : Time) :
    Commits (onRun id (loseAttemptTx k attempt now)) db fun _ db' =>
      db.Evolves db' ∧ ∀ h, db.HandsOff h → db'.HandsOff h := by
  rw [commits_onRun]
  intro r hr
  refine (loseAttemptTx_leads (c := ⟨id, r, db.sys⟩) (hdb id r hr) k attempt now).mono ?_
  rintro _ c ⟨hl, hc⟩
  refine ⟨Db.evolves_putScope hr hl.transacts, fun h hh => ?_⟩
  rcases hc with hc | ⟨⟨s, hs, hlive⟩, hskips, hc⟩
  · exact hh.putScope (k := h.2 + 1) hr (.inl hc) fun _ _ => by simp
  · refine hh.putScope hr (.inr ⟨hskips, hc⟩) ?_
    rintro hid - rfl
    obtain ⟨s', hs', hw⟩ := (hh r (hid ▸ hr)).resolve_left (by simp at hskips; simp [hskips])
    obtain rfl := Option.mem_unique hs hs'
    have := ((hdb id r hr).steps.find hs).handoff hw
    rw [hlive] at this
    cases this

theorem handoffTx_handsOff {h : RunID × StepID} (hh : db.HandsOff h) (now : Time) :
    Commits (onRun h.1 (handoffTx h.2 now)) db fun _ db' =>
      db.Evolves db' ∧ ∀ h', h ≠ h' → db.HandsOff h' → db'.HandsOff h' := by
  rw [commits_onRun]
  intro r hr
  refine (handoffTx_leads (hh r hr) now).mono ?_
  rintro _ c ⟨hl, hc⟩
  refine ⟨Db.evolves_putScope hr hl.transacts, fun h' hne hh' => hh'.putScope hr hc ?_⟩
  rintro hid - he
  exact hne (Prod.ext hid.symm he.symm)

theorem Refines.reconcileExpiredLeasesTx (locked : List RunID) :
    Refines (reconcileExpiredLeasesTx locked) := by
  intro db hdb
  simp only [Execution.reconcileExpiredLeasesTx, commits_bind, commits_dbClock, commits_read,
    id, commits_ite, commits_pure]
  refine ⟨fun _ => .of_same rfl rfl, fun _ => ?_⟩
  refine (commits_foldEach (I := fun _ db' => (db.Evolves db' ∧ db'.Sound) ∧
    ∀ h ∈ (db.handoffSteps locked).take sweepLimit, db'.HandsOff h) ?_ _ _
      ⟨⟨.of_same (by rfl) (by rfl), by exact hdb⟩, fun h hm => ?_⟩).mono ?_
  · rintro x - lost db1 ⟨⟨he, hs⟩, hh⟩
    refine (loseAttemptTx_handsOff hs _ _ _ _).bind ?_
    rintro hit db2 ⟨he2, hh2⟩
    simp only [commits_pure]
    exact ⟨⟨he.trans he2, he2.sound hs⟩, fun h hm => hh2 h (hh h hm)⟩
  · exact Db.handsOff_of_mem (List.mem_of_mem_take hm)
  rintro lost db1 ⟨hes, hh⟩
  -- The handoffs still to come stay selected: they are different steps.
  refine (commits_foldEach_rest (I := fun hs _ db' => (db.Evolves db' ∧ db'.Sound) ∧ hs.Nodup ∧
    ∀ h ∈ hs, db'.HandsOff h) ?_ _ _ _ ⟨hes, (db.nodup_handoffSteps locked).sublist
      (List.take_sublist ..), hh⟩).mono ?_
  · rintro h hs acc db2 ⟨⟨he, hsound⟩, hnd, hh⟩
    obtain ⟨hne, hnd⟩ := List.nodup_cons.mp hnd
    refine (handoffTx_handsOff (hh h List.mem_cons_self) _).bind ?_
    rintro hit db3 ⟨he3, hh3⟩
    simp only [commits_pure]
    refine ⟨⟨he.trans he3, he3.sound hsound⟩, hnd, fun h' hm => hh3 h' ?_ (hh h' (.tail _ hm))⟩
    rintro rfl
    exact hne hm
  rintro reclaimed db2 ⟨⟨he, hs⟩, -⟩
  refine (Refines.forEach (fun id _ => .onRun_leads fun _ _ => ?_) db2 hs).mono fun _ _ h => he.trans h
  exact settlePauseIgnoringError_leads _

theorem Refines.reconcileExpiredLeases (locked : List RunID) :
    Refines (reconcileExpiredLeases locked) :=
  .bind (.reconcileExpiredLeasesTx locked) fun _ => .bind .fireDueRetryTimersTx fun _ =>
    .bind .failOverdueRunsTx fun _ => .settleCancellingRunsTx

/-! ### Session fencing -/

omit [Platform] in
theorem Step.Sound.pairwise_live {s : Step} (h : s.Sound) :
    (s.attempts.filter fun a => a.status.live).Pairwise fun _ _ => False := by
  have hids := (List.pairwise_map.mp h.ids).filter fun a : Attempt => a.status.live
  refine hids.imp_of_mem fun ha hb hne => ?_
  obtain ⟨ha, hla⟩ := List.mem_filter.mp ha
  obtain ⟨hb, hlb⟩ := List.mem_filter.mp hb
  obtain ⟨l, hl, hid⟩ := h.owner _ ha hla
  obtain ⟨l', hl', hid'⟩ := h.owner _ hb hlb
  obtain rfl := Option.mem_unique hl hl'
  exact hne (hid.symm.trans hid')

omit [Platform] in
theorem Run.mem_liveAttempts {x : StepID × Attempt} (h : x ∈ r.liveAttempts) :
    ∃ s, r.steps.find? x.1 = some s ∧ x.2 ∈ s.attempts ∧ x.2.status.live = true := by
  obtain ⟨e, he, hx⟩ := List.mem_flatMap.mp h
  obtain ⟨a, ha, rfl⟩ := List.mem_map.mp hx
  obtain ⟨ha, hl⟩ := List.mem_filter.mp ((List.perm_insertionSort ..).mem_iff.mp ha)
  exact ⟨e.2, mem_stepsByID he, ha, hl⟩

omit [Platform] in
theorem Run.Sound.pairwise_liveAttempts (h : r.Sound) :
    r.liveAttempts.Pairwise fun a b => a.1 ≠ b.1 := by
  refine List.pairwise_flatMap.mpr ⟨fun e he => ?_, r.pairwise_stepsByID.imp fun hne x hx y hy => ?_⟩
  · refine List.pairwise_map.mpr (((List.perm_insertionSort ..).symm.pairwise
      (h.steps.find (mem_stepsByID he)).pairwise_live ?_).imp ?_) <;> exact False.elim
  · obtain ⟨_, -, rfl⟩ := List.mem_map.mp hx
    obtain ⟨_, -, rfl⟩ := List.mem_map.mp hy
    exact hne

namespace Db

def Fences (db : Db) (x : RunID × StepID × Attempt) : Prop :=
  ∀ r, db.runs.find? x.1 = some r →
    ∃ s, r.steps.find? x.2.1 = some s ∧ x.2.2 ∈ s.attempts ∧ x.2.2.status.live = true

omit [Platform] in
theorem fences_of_mem {db : Db} {id : WorkerID} {x : RunID × StepID × Attempt}
    (hm : x ∈ db.attemptsOfWorker id) : db.Fences x := by
  obtain ⟨e, he, hm⟩ := List.mem_flatMap.mp hm
  obtain ⟨y, hy, rfl⟩ := List.mem_map.mp hm
  intro r hr
  obtain rfl := Option.mem_unique (mem_runsByID he) hr
  exact Run.mem_liveAttempts (List.mem_filter.mp hy).1

omit [Platform] in
theorem Sound.pairwise_attemptsOfWorker {db : Db} (h : db.Sound) (id : WorkerID) :
    (db.attemptsOfWorker id).Pairwise fun x y => x.1 = y.1 → y.2.1 ≠ x.2.1 := by
  refine List.pairwise_flatMap.mpr ⟨fun e he => ?_, db.pairwise_runsByID.imp fun hne x hx y hy => ?_⟩
  · exact List.pairwise_map.mpr (((h _ _ (mem_runsByID he)).pairwise_liveAttempts.filter _).imp
      fun hne _ => hne.symm)
  · obtain ⟨_, -, rfl⟩ := List.mem_map.mp hx
    obtain ⟨_, -, rfl⟩ := List.mem_map.mp hy
    exact fun hid => absurd hid hne

end Db

theorem fenceAttemptTx_fences {x : RunID × StepID × Attempt} (hx : db.Fences x) (reason : String) :
    Commits (onRun x.1 (fenceAttemptTx x.2.1 x.2.2.id x.2.2.epoch reason)) db fun _ db' =>
      db.Evolves db' ∧ ∀ y, (x.1 = y.1 → y.2.1 ≠ x.2.1) → db.Fences y → db'.Fences y := by
  rw [commits_onRun]
  intro r hr
  obtain ⟨s, hs, ha, hlive⟩ := hx r hr
  refine Commits.mono (fenceAttemptTx_leads (c := ⟨x.1, r, db.sys⟩) hs ha hlive reason) ?_
  rintro _ c ⟨hl, hrest⟩
  refine ⟨Db.evolves_putScope hr hl.transacts, fun y hne hy r' hr' => ?_⟩
  rw [Db.find?_putScope] at hr'
  by_cases hid : y.1 = x.1
  · rw [hid, hr] at hr'
    obtain rfl : c.run = r' := by simpa using hr'
    obtain ⟨s', hs', h'⟩ := hy r (hid ▸ hr)
    exact ⟨s', by rw [hrest _ (hne hid.symm)]; exact hs', h'⟩
  · simp only [hid, if_false, Option.map_id'] at hr'
    exact hy r' hr'

theorem Refines.fenceWorkerSessions (workerID : WorkerID) (reason : String) :
    Refines (fenceWorkerSessions workerID reason) := by
  intro db hdb
  simp only [Execution.fenceWorkerSessions, commits_bind, commits_read, id]
  cases db.fleet.workers.find? workerID with
  | none => simp
  | some w =>
    simp only
    refine (commits_forEach_rest (I := fun xs db' => (db.Evolves db' ∧ db'.Sound) ∧
      xs.Pairwise (fun x y => x.1 = y.1 → y.2.1 ≠ x.2.1) ∧ ∀ x ∈ xs, db'.Fences x) ?_ _ db
        ⟨⟨.refl db, hdb⟩, hdb.pairwise_attemptsOfWorker workerID, fun x => Db.fences_of_mem⟩).mono
          fun _ _ h => h.1.1
    rintro x xs db1 ⟨⟨he, hs⟩, hpw, hf⟩
    obtain ⟨hne, hpw⟩ := List.pairwise_cons.mp hpw
    refine (fenceAttemptTx_fences (hf x List.mem_cons_self) reason).mono ?_
    rintro _ db2 ⟨he2, hf2⟩
    exact ⟨⟨he.trans he2, he2.sound hs⟩, hpw, fun y hy => hf2 y (hne y hy) (hf y (.tail _ hy))⟩

omit [Platform] in
theorem Refines.revokeSessions (id : WorkerID) (p : Session → Bool) (now : Time) :
    Refines (revokeSessions id p now) := .write_fleet _

theorem Refines.openSessionTx (id : WorkerID) : Refines (openSessionTx id) := by
  refine .bind (.read _) fun db => ?_
  cases db.fleet.workers.find? id with
  | none => exact .fail _
  | some w =>
    refine .bind (.fenceWorkerSessions _ _) fun _ => .bind .dbClock fun now =>
      .bind (.revokeSessions _ _ _) fun _ => .bind (.read _) fun db => .bind (.require _ _) fun _ =>
        .bind .dbNewID fun session => ?_
    split
    · exact .fail _
    · exact .bind (.write_fleet _) fun _ => .pure _

theorem Refines.revokeWorkerTx (id : WorkerID) : Refines (revokeWorkerTx id) :=
  .bind (.fenceWorkerSessions _ _) fun _ => .bind .dbClock fun _ => .bind (.write_fleet _) fun _ =>
    .revokeSessions _ _ _

/-! ### Claim -/

/-- Every pending claim is of a task of a run in its environment. -/
def Db.Tasks (db : Db) (pending : List PendingClaim) : Prop :=
  ∀ pc ∈ pending, ∃ r s, db.runs.find? pc.runID = some r ∧ r.environmentID = pc.environmentID ∧
    r.steps.find? pc.stepID = some s ∧ s.kind = .task ∧ s.nodeID = pc.nodeID

omit [Platform] in
theorem Db.Tasks.evolves {db' : Db} (h : db.Tasks pending) (he : db.Evolves db') :
    db'.Tasks pending := by
  intro pc hpc
  obtain ⟨r, s, hr, henv, hs, hk, hn⟩ := h pc hpc
  obtain ⟨r', hr', hev⟩ := he.kept _ r hr
  obtain ⟨s', hs', hn', hk'⟩ := hev.reaches.keeps _ s hs
  exact ⟨r', s', hr', (Run.environmentID_of_pinned hev.reaches.pinned).trans henv, hs',
    hk'.trans hk, hn'.trans hn⟩

omit [Platform] in
theorem Db.kind_of_mem_claimCandidates {session : WorkerSession} {now : Time} {locked : List RunID}
    {c : RunID × StepID × Step} (hm : c ∈ db.claimCandidates session now locked) :
    ∃ r, db.runs.find? c.1 = some r ∧
      r.steps.find? c.2.1 = some c.2.2 ∧ c.2.2.kind = .task := by
  unfold claimCandidates at hm
  split at hm
  · cases hm
  · obtain ⟨e, he, hm⟩ := List.mem_flatMap.mp ((List.perm_insertionSort ..).mem_iff.mp hm)
    split at hm
    · obtain ⟨x, hx, rfl⟩ := List.mem_map.mp hm
      obtain ⟨hx, hp⟩ := List.mem_filter.mp hx
      simp only [Bool.and_eq_true, beq_iff_eq] at hp
      exact ⟨e.2, (db.runs.find?_eq_some_iff e.1 e.2).mpr he,
        (e.2.steps.find?_eq_some_iff x.1 x.2).mpr hx, hp.1.1⟩
    · cases hm

omit [Platform] in
/-- The results of a loop that did not fail come from its inputs. -/
theorem mem_of_mapM_ok {α β ε : Type} {f : α → Except ε β} {xs : List α} {ys : List β}
    (h : xs.mapM f = .ok ys) {y : β} (hy : y ∈ ys) : ∃ x ∈ xs, f x = .ok y := by
  induction xs generalizing ys with
  | nil =>
    cases h
    cases hy
  | cons x xs ih =>
    rw [List.mapM_cons] at h
    cases hx : f x with
    | error e => simp [hx, bind, Except.bind] at h
    | ok b =>
      cases hxs : xs.mapM f with
      | error e => simp [hx, hxs, bind, Except.bind] at h
      | ok bs =>
        simp only [hx, hxs, bind, Except.bind, pure, Except.pure, Except.ok.injEq] at h
        subst h
        rcases List.mem_cons.mp hy with rfl | hy
        · exact ⟨x, List.mem_cons_self, hx⟩
        · obtain ⟨x', hx', hf⟩ := ih hxs hy
          exact ⟨x', .tail _ hx', hf⟩

theorem claimSnapshotTx_tasks (session : WorkerSession) (slots : Nat) (locked : List RunID)
    (db : Db) : Commits (claimSnapshotTx session slots locked) db fun pending db' =>
      db.Evolves db' ∧ db'.Tasks pending := by
  simp only [claimSnapshotTx, commits_bind, commits_dbClock, commits_read, id]
  split
  · simp
  · next pending hp =>
    simp only [commits_pure]
    refine ⟨.of_same rfl rfl, fun pc hpc => ?_⟩
    obtain ⟨c, hc, hpc⟩ := mem_of_mapM_ok hp hpc
    obtain ⟨r, hr, hs, hk⟩ := Db.kind_of_mem_claimCandidates (List.mem_of_mem_take hc)
    simp only [pendingClaim, hr] at hpc
    cases hi : assignmentInput r c.2.2.nodeID with
    | error e => simp [hi, bind, Except.bind] at hpc
    | ok input =>
      simp only [hi, bind, Except.bind, pure, Except.pure, Except.ok.injEq] at hpc
      subst hpc
      exact ⟨r, c.2.2, hr, rfl, hs, hk, rfl⟩

theorem Refines.claimLimit (session : WorkerSession) (slots : Nat) (maxConcurrency : Int) :
    Refines (claimLimit session slots maxConcurrency) :=
  .bind .dbClock fun _ => .bind (.read _) fun _ => .bind .dbClock fun _ => .bind (.read _)
    fun _ => .pure _

theorem claimWithinCapacity_evolves (hdb : db.Sound) (hp : db.Tasks pending)
    (session : WorkerSession) (slots : Nat) (maxConcurrency : Int) (now : Time)
    (ready : List String) :
    Commits (claimWithinCapacity session slots maxConcurrency pending now ready) db fun _ db' =>
      db.Evolves db' := by
  unfold claimWithinCapacity
  refine (Refines.claimLimit session slots maxConcurrency db hdb).bind fun limit db1 he => ?_
  rw [commits_ite]
  refine ⟨fun _ => ?_, fun _ => ?_⟩
  · refine Commits.mono (Refines.bind .dbClock (fun parked => .bind (.read _) fun ids =>
      .forEach fun id _ => .onRun_leads fun _ _ => ?_) db1 (he.sound hdb)) fun _ _ h => he.trans h
    exact parkOnQuota_leads _ _
  · refine (commits_forEach (I := fun db' => db.Evolves db') ?_ db1 he)
    intro pc hpc db2 he2
    rw [commits_onRun]
    intro r hr
    obtain ⟨r', s, hr', -, hs, hk, hn⟩ := (hp.evolves he2) pc (List.mem_of_mem_take hpc)
    obtain rfl := Option.mem_unique hr hr'
    exact Commits.mono (claimCandidateTx_leads (c := ⟨pc.runID, r, db2.sys⟩)
      (he2.sound hdb _ r hr) session now ready hs hk hn)
        fun _ _ hl => he2.trans (Db.evolves_putScope hr hl.transacts)

theorem claimCommitTx_evolves (hdb : db.Sound) (hp : db.Tasks pending) (session : WorkerSession)
    (slots : Nat) (locked : List RunID) (ready : List String) :
    Commits (claimCommitTx session slots pending locked ready) db fun _ db' =>
      db.Evolves db' := by
  simp only [claimCommitTx, commits_bind, commits_read, id]
  split
  · simp only [commits_bind, commits_require, commits_dbClock, commits_ite, commits_pure]
    intro _ _ _ _
    refine ⟨fun _ => ?_, fun _ => .of_same rfl rfl⟩
    split
    · simp
    · rw [commits_bind]
      have he0 : db.Evolves { db with sys := { db.sys with ticks := db.sys.ticks + 1 } } :=
        .of_same rfl rfl
      refine (Refines.reconcileExpiredLeasesTx locked _ (he0.sound hdb)).mono fun _ db1 he1 => ?_
      have he1 := he0.trans he1
      refine (Refines.fireDueRetryTimersTx db1 (he1.sound hdb)).bind fun _ db2 he2 => ?_
      have he2 := he1.trans he2
      exact (claimWithinCapacity_evolves (he2.sound hdb) (hp.evolves he2) session slots _ _
        ready).mono fun _ _ h => he2.trans h
  · simp

end Deadbolt.Execution

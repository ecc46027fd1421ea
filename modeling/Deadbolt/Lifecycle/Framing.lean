import Deadbolt.Lifecycle.Recovery

/-!
# What an operation leaves alone

A relation on databases that follows a framed relation run by run is kept by every operation of an
installation but two: the commit of a claim, which creates attempts, and a heartbeat, which extends
leases. A relation that new runs or the rows of other services break leaves these to be looked at as
well.
-/

namespace Deadbolt.Execution

open Base Contracts Tx

/-- A preorder on databases that a transaction on one run keeps if the run keeps `R`, and that
readings and draws keep. -/
class FramedTx (R : outParam (RunScope → RunScope → Prop)) (D : Db → Db → Prop) : Prop
    extends Std.Refl D, IsTrans Db D where
  elapse : ∀ db n, D db { db with sys := { db.sys with ticks := db.sys.ticks + n } }
  draw : ∀ db, D db { db with sys := { db.sys with draws := db.sys.draws + 1 } }
  run : ∀ {db : Db} {id r c}, db.runs.find? id = some r → R ⟨id, r, db.sys⟩ c →
    D db (db.putScope id c)

/-- Such a preorder that workers and sessions keep. -/
class FramedRuns (R : outParam (RunScope → RunScope → Prop)) (D : Db → Db → Prop) : Prop
    extends FramedTx R D where
  staff : ∀ db workers sessions,
    D db { db with fleet := { db.fleet with workers := workers, sessions := sessions } }

/-- Such a preorder that admissions and created runs keep. -/
class FramedCreation (R : outParam (RunScope → RunScope → Prop)) (D : Db → Db → Prop) : Prop
    extends FramedTx R D where
  admissions : ∀ db admissions, D db { db with fleet := { db.fleet with admissions := admissions } }
  insert : ∀ {db : Db} {runs id r} records, db.runs.insert? id r = some runs → r.Created →
    D db { db with runs := runs, records := records }

/-- Such a preorder that all rows of other services and created runs keep. -/
class FramedDb (R : outParam (RunScope → RunScope → Prop)) (D : Db → Db → Prop) : Prop
    extends FramedRuns R D, FramedCreation R D where
  fleet : ∀ db fleet, D db { db with fleet := fleet }
  staff db _ _ := fleet db _
  admissions := fun db _ => fleet db _

section

variable {R : RunScope → RunScope → Prop} {D : Db → Db → Prop}

@[simp] theorem keeps_write_sessions [framedDb : FramedRuns R D] (f : Db → Table SessionID Session) :
    Keeps D (Tx.write fun db =>
      { db with fleet := { db.fleet with sessions := f db } } : DbTx Unit) :=
  (keeps_write _).mpr fun db => framedDb.staff db _ _

@[simp] theorem keeps_write_workers [framedDb : FramedRuns R D] (f : Db → Table WorkerID Worker) :
    Keeps D (Tx.write fun db =>
      { db with fleet := { db.fleet with workers := f db } } : DbTx Unit) :=
  (keeps_write _).mpr fun db => framedDb.staff db _ _

@[simp] theorem keeps_revokeSessions [FramedRuns R D] (id : WorkerID) (p : Session → Bool)
    (now : Time) : Keeps D (revokeSessions id p now) := keeps_write_sessions _

variable [framedDb : FramedTx R D]

include framedDb

@[simp] theorem keeps_onRun {α : Type} {x : RunTx α} (hx : Keeps R x) (id : RunID) :
    Keeps D (onRun id x) := by
  intro db
  rw [commits_onRun]
  intro r hr
  exact (hx _).mono fun _ _ h => framedDb.run hr h

variable [Platform]

@[simp] theorem keeps_dbClock : Keeps D dbClock := by
  intro db
  simpa using framedDb.elapse db 1

@[simp] theorem keeps_dbNewID : Keeps D dbNewID := by
  intro db
  simpa using framedDb.draw db

/-! ### Creation -/

theorem keeps_insertSteps (nodes : List WorkflowNode) (steps : Table StepID Step) :
    Keeps D (insertSteps nodes steps) := by
  induction nodes generalizing steps with
  | nil => simp [insertSteps]
  | cons node rest ih =>
    unfold insertSteps
    repeat' with_reducible refine keeps_bind ?_ fun _ => ?_
    all_goals try simp
    split
    · simp
    · exact ih _

end

section

variable {R : RunScope → RunScope → Prop} {D : Db → Db → Prop} [framedDb : FramedCreation R D]
variable [Platform]

include framedDb

@[simp] theorem keeps_admitRun (env : EnvironmentID) : Keeps D (admitRun env) := by
  unfold admitRun
  refine keeps_bind (by simp) fun db => ?_
  split
  · simp
  · refine keeps_bind (by simp) fun _ => ?_
    split
    · simp
    · repeat' with_reducible refine keeps_bind ?_ fun _ => ?_
      all_goals simp [framedDb.admissions]

variable [framed : Framed true R]

include framed

@[simp] theorem keeps_insertRun (req : CreateRunRequest) : Keeps D (insertRun req) := by
  intro db
  simp only [insertRun, commits_bind, commits_read, id]
  cases db.resolveDeployment req with
  | error err => simp
  | ok d =>
    simp only
    cases hwf : d.manifest.workflow? req.workflowName with
    | none => simp
    | some wf =>
      simp only [commits_bind, commits_require]
      intro _ _
      have hid : Keeps D dbNewID := keeps_dbNewID
      have hclock : Keeps D dbClock := keeps_dbClock
      refine (hid db).mono fun runID db1 h1 => (hclock db1).mono fun now db2 h2 => ?_
      refine ((insertSteps_spec wf.nodes Table.empty db2).and
        (keeps_insertSteps (D := D) wf.nodes Table.empty db2)).mono ?_
      rintro steps db3 ⟨⟨-, ⟨rows, hrows, hall⟩, hnd⟩, h3⟩
      replace hrows : steps.rows = rows := hrows
      have hcreated : (initialRun req d runID now steps).Created :=
        ⟨req, d, runID, now, steps, wf, rfl, hwf,
          nodeIDs_of_forall₂ (hrows ▸ hall) ▸ hnd List.nodup_nil, hrows ▸ hall⟩
      have h3 : D db db3 := framedDb.trans _ _ _ h1 (framedDb.trans _ _ _ h2 h3)
      simp only [commits_read, id]
      cases hi : db3.runs.insert? runID (initialRun req d runID now steps) with
      | none => simp
      | some runs =>
        simp only [commits_bind, commits_write, commits_ite, commits_pure]
        have h4 (records : List IdempotencyRecord) :
            D db { db3 with runs := runs, records := records } :=
          framedDb.trans _ _ _ h3 (framedDb.insert records hi hcreated)
        refine ⟨fun _ => ?_, fun _ => h4 _⟩
        refine Commits.mono (keeps_onRun (D := D) (keeps_evaluateInitialDAG wf) runID _)
          fun _ _ h => framedDb.trans _ _ _ (h4 _) h

@[simp] theorem keeps_createRunInTx (req : CreateRunRequest) :
    Keeps D (createRunInTx req) := by
  unfold createRunInTx
  refine keeps_bind (by simp) fun db => ?_
  split
  · simp
  · refine keeps_bind (by simp) fun _ => keeps_bind (by simp) fun _ => by simp

end

section

variable {R : RunScope → RunScope → Prop} {D : Db → Db → Prop} [framedDb : FramedTx R D]
variable [Platform] [framed : Framed true R]

include framedDb framed

/-! ### Sweeps -/

@[simp] theorem keeps_reconcileExpiredLeasesTx (locked : List RunID) :
    Keeps D (reconcileExpiredLeasesTx locked) := by
  unfold reconcileExpiredLeasesTx
  refine keeps_bind (by simp) fun queried => keeps_bind (by simp) fun db => ?_
  refine keeps_ite (fun _ => by simp) fun _ => keeps_bind (by simp) fun now => ?_
  refine keeps_bind (keeps_foldEach fun acc c => ?_) fun lost =>
    keeps_bind (keeps_foldEach fun acc h => ?_) fun reclaimed => ?_
  · exact keeps_bind (keeps_onRun (by simp) _) fun hit => by simp
  · exact keeps_bind (keeps_onRun (by simp) _) fun hit => by simp
  · exact keeps_forEach fun id => keeps_onRun (by simp) _

@[simp] theorem keeps_fireDueRetryTimersTx : Keeps D fireDueRetryTimersTx := by
  unfold fireDueRetryTimersTx
  refine keeps_bind (by simp) fun queried => keeps_bind (by simp) fun db => ?_
  refine keeps_ite (fun _ => by simp) fun _ => keeps_bind (by simp) fun now => ?_
  exact keeps_foldEach fun fired c => keeps_bind (keeps_onRun (by simp) _) fun hit => by simp

@[simp] theorem keeps_fireDueDelayTimers : Keeps D fireDueDelayTimers := by
  unfold fireDueDelayTimers
  refine keeps_bind (by simp) fun queried => keeps_bind (by simp) fun db => ?_
  refine keeps_bind (by simp) fun now => keeps_foldEach fun fired c => ?_
  exact keeps_bind (keeps_onRun (by simp) _) fun hit => by simp

@[simp] theorem keeps_failOverdueRunsTx : Keeps D failOverdueRunsTx := by
  unfold failOverdueRunsTx
  refine keeps_bind (by simp) fun now => keeps_bind (by simp) fun db => ?_
  exact keeps_forEach fun id => keeps_onRun (by simp) _

@[simp] theorem keeps_settleCancellingRunsTx : Keeps D settleCancellingRunsTx := by
  unfold settleCancellingRunsTx
  refine keeps_bind (by simp) fun db => keeps_forEach fun id => ?_
  exact keeps_bind (keeps_onRun (by simp) _) fun _ => by simp

@[simp] theorem keeps_reconcileExpiredLeases (locked : List RunID) :
    Keeps D (reconcileExpiredLeases locked) := by
  unfold reconcileExpiredLeases
  repeat' with_reducible refine keeps_bind ?_ fun _ => ?_
  all_goals simp

@[simp] theorem keeps_sweepExpiredApprovals : Keeps D sweepExpiredApprovals := by
  unfold sweepExpiredApprovals
  refine keeps_bind (by simp) fun now => keeps_bind (by simp) fun db => ?_
  exact keeps_forEach fun d => keeps_onRun (by simp) _

@[simp] theorem keeps_reconcileReadyWork (locked : List RunID) :
    Keeps D (reconcileReadyWork locked) := by
  unfold reconcileReadyWork
  refine keeps_bind (by simp) fun db => ?_
  exact keeps_forEach fun id => keeps_onRun (by simp) _

/-! ### Claims and sessions -/

omit framed in
@[simp] theorem keeps_claimSnapshotTx (session : WorkerSession) (slots : Nat)
    (locked : List RunID) : Keeps D (claimSnapshotTx session slots locked) := by
  unfold claimSnapshotTx
  refine keeps_bind (by simp) fun now => keeps_bind (by simp) fun db => ?_
  split <;> simp

omit framed in
@[simp] theorem keeps_claimLimit (session : WorkerSession) (slots : Nat) (maxConcurrency : Int) :
    Keeps D (claimLimit session slots maxConcurrency) := by
  unfold claimLimit
  repeat' with_reducible refine keeps_bind ?_ fun _ => ?_
  all_goals simp

/-- The commit of a claim keeps what each of its candidates keeps. -/
theorem keeps_claimCommitTx (session : WorkerSession) (slots : Nat) (pending : List PendingClaim)
    (locked : List RunID) (ready : List String)
    (h : ∀ now pc, Keeps D (onRun pc.runID (claimCandidateTx session now ready pc))) :
    Keeps D (claimCommitTx session slots pending locked ready) := by
  unfold claimCommitTx
  refine keeps_bind (by simp) fun db => ?_
  split
  · repeat' with_reducible refine keeps_bind ?_ fun _ => ?_
    all_goals try simp
    refine keeps_ite (fun _ => ?_) fun _ => by simp
    split
    · simp
    · refine keeps_bind (by simp) fun _ => keeps_bind (by simp) fun _ => ?_
      unfold claimWithinCapacity
      refine keeps_bind (by simp) fun limit => keeps_ite (fun _ => ?_) fun _ => ?_
      · refine keeps_bind (by simp) fun parked => keeps_bind (by simp) fun ids => ?_
        exact keeps_forEach fun id => keeps_onRun (by simp) _
      · exact keeps_forEach fun pc => h _ pc
  · simp

@[simp] theorem keeps_fenceWorkerSessions (id : WorkerID) (reason : String) :
    Keeps D (fenceWorkerSessions id reason) := by
  unfold fenceWorkerSessions
  refine keeps_bind (by simp) fun db => ?_
  split
  · simp
  · exact keeps_forEach fun x => keeps_onRun (by simp) _

end

section

variable {R : RunScope → RunScope → Prop} {D : Db → Db → Prop} [framedDb : FramedRuns R D]
variable [Platform] [framed : Framed true R]

include framedDb framed

@[simp] theorem keeps_openSessionTx (id : WorkerID) : Keeps D (openSessionTx id) := by
  unfold openSessionTx
  refine keeps_bind (by simp) fun db => ?_
  split
  · simp
  · repeat' with_reducible refine keeps_bind ?_ fun _ => ?_
    all_goals try simp
    split
    · simp
    · exact keeps_map (keeps_write_sessions _)

@[simp] theorem keeps_revokeWorkerTx (id : WorkerID) : Keeps D (revokeWorkerTx id) := by
  unfold revokeWorkerTx
  refine keeps_bind (by simp) fun _ => keeps_bind (by simp) fun now => ?_
  exact keeps_bind (keeps_write_workers _) fun _ => by simp

@[simp] theorem keeps_prepareDisasterRecoveryTx (i : Incident) (stale : List SessionID) :
    Keeps D (prepareDisasterRecoveryTx i stale) := by
  unfold prepareDisasterRecoveryTx
  refine keeps_bind (by simp) fun now => keeps_bind (keeps_write_sessions _) fun _ => ?_
  refine keeps_bind (by simp) fun db => keeps_forEach fun e => keeps_onRun (by simp) _

end

/-! ### Operations -/

section

variable {R : RunScope → RunScope → Prop} {D : Db → Db → Prop} [framedDb : FramedTx R D]

include framedDb

namespace World

variable {α : Type} {w : World}

theorem framed_transact {x : DbTx α} {failed : EngineError → World} (hx : Keeps D x)
    (hf : ∀ e, (failed e).db = w.db) : D w.db (w.transact x failed).db := by
  unfold transact
  split
  · next a db' he => exact hx w.db a db' he
  · next e he =>
    rw [hf]
    exact framedDb.refl _

theorem framed_attempt {x : DbTx α} (hx : Keeps D x) :
    D w.db (w.attempt x).db := framed_transact hx fun _ => rfl

theorem framed_attemptOn (id : Option RunID) {x : RunTx α} {failed : RunID → EngineError → World}
    (hx : Keeps R x) (hf : ∀ id e, (failed id e).db = w.db) :
    D w.db (w.attemptOn id x failed).db := by
  unfold attemptOn
  split
  · exact framedDb.refl _
  · exact framed_transact (keeps_onRun hx _) (hf _)

omit framedDb in
theorem db_onHistoryLimit (w : World) (id : RunID) (e : EngineError) :
    (w.onHistoryLimit id e).db = w.db := by
  unfold onHistoryLimit
  split <;> rfl

omit framedDb in
theorem db_onOverdue (w : World) (id : RunID) (e : EngineError) :
    (w.onOverdue id e).db = w.db := by
  unfold onOverdue
  split <;> rfl

variable [Platform] [framed : Framed true R]

include framed

omit framed in
theorem keeps_heartbeatAll {session : WorkerSession}
    (hbeat : ∀ a e, Keeps R (heartbeatTx session a e)) (attempts : List (AttemptID × Int)) :
    Keeps D (heartbeatAll session attempts) := by
  unfold heartbeatAll
  refine keeps_forEach fun item => keeps_bind (by simp) fun id => ?_
  split
  · simp
  · exact keeps_bind (keeps_onRun (hbeat _ _) _) fun _ => by simp

/-- An action of the engine keeps what the commit of a claim, a heartbeat, a run creation, the
transactions of sessions and the changes of other services keep. -/
theorem framed_step_tx {a : Action}
    (hclaim : ∀ index verified locked ready, a = .claimCommit index verified locked ready →
      D w.db (w.step a).db)
    (hbeat : ∀ session attempts, a = .heartbeat session attempts → D w.db (w.step a).db)
    (hcreate : ∀ req, a = .createRun req → D w.db (w.step a).db)
    (hopen : ∀ id, a = .openSession id → D w.db (w.step a).db)
    (hrevoke : ∀ id, a = .revokeWorker id → D w.db (w.step a).db)
    (hfleet : ∀ fleet, a = .reconfigure fleet → D w.db (w.step a).db) : D w.db (w.step a).db := by
  cases a with
  | claimCommit index verified locked ready => exact hclaim _ _ _ _ rfl
  | heartbeat session attempts => exact hbeat _ _ rfl
  | createRun req => exact hcreate _ rfl
  | reconfigure fleet => exact hfleet _ rfl
  | claimSnapshot session slots locked =>
    simp only [step, snapshot]
    split
    · split
      · next pending db' he => exact keeps_claimSnapshotTx session slots locked w.db pending db' he
      · exact framedDb.refl _
    · exact framedDb.refl _
  | start session attemptID epoch => exact framed_attemptOn _ (by simp) w.db_onHistoryLimit
  | complete session req lookup =>
    simp only [step]
    split
    · exact framed_attemptOn _ (by simp) w.db_onHistoryLimit
    · exact framedDb.refl _
  | stopAck session attemptID epoch stopped => exact framed_attemptOn _ (by simp) fun _ _ => rfl
  | pauseRun id revision => exact framed_attemptOn _ (by simp) w.db_onOverdue
  | resumeRun id revision => exact framed_attemptOn _ (by simp) w.db_onOverdue
  | cancelRun id revision actor => exact framed_attempt (keeps_onRun (by simp) _)
  | resolveCase caseID req =>
    simp only [step, resolve]
    split
    · exact framed_attempt (keeps_onRun (by simp) _)
    · exact framedDb.refl _
  | decideApproval approvalID req =>
    simp only [step, World.decide]
    split
    · exact framedDb.refl _
    · refine framed_transact (keeps_onRun (by simp) _) fun e => ?_
      split <;> rfl
  | settleExpiredApproval index =>
    simp only [step]
    split
    · exact framedDb.refl _
    · exact framed_attempt (w := { w with expiredApprovals := _ }) (keeps_onRun (by simp) _)
  | settleOverdueControl index =>
    simp only [step]
    split
    · exact framedDb.refl _
    · exact framed_attempt (w := { w with overdueControls := _ }) (keeps_onRun (by simp) _)
  | terminalizeHistory index =>
    simp only [step]
    split
    · exact framedDb.refl _
    · exact framed_attempt (w := { w with exhausted := _ }) (keeps_onRun (by simp) _)
  | openSession workerID => exact hopen _ rfl
  | revokeWorker workerID => exact hrevoke _ rfl
  | reconcileExpiredLeases locked => exact framed_attempt (by simp)
  | fireDueRetryTimers => exact framed_attempt (by simp)
  | fireDueDelayTimers => exact framed_attempt (by simp)
  | sweepExpiredApprovals => exact framed_attempt (by simp)
  | reconcileReadyWork locked => exact framed_attempt (by simp)
  | elapse ticks => exact framedDb.elapse _ _

end World

end

namespace World

section

variable {R : RunScope → RunScope → Prop} {D : Db → Db → Prop} [framedDb : FramedRuns R D]
variable [Platform] [framed : Framed true R]

include framedDb framed

theorem framed_step_runs {w : World} {a : Action}
    (hclaim : ∀ index verified locked ready, a = .claimCommit index verified locked ready →
      D w.db (w.step a).db)
    (hbeat : ∀ session attempts, a = .heartbeat session attempts → D w.db (w.step a).db)
    (hcreate : ∀ req, a = .createRun req → D w.db (w.step a).db)
    (hfleet : ∀ fleet, a = .reconfigure fleet → D w.db (w.step a).db) :
    D w.db (w.step a).db := by
  refine framed_step_tx hclaim hbeat hcreate ?_ ?_ hfleet
  · rintro id rfl
    exact framed_attempt (by simp)
  · rintro id rfl
    exact framed_attempt (by simp)

theorem framed_recover (w : World) (i : Incident) (stale : List SessionID) :
    D w.db (w.operate (.recover i stale)).db := by
  simp only [operate]
  split
  · exact framed_attempt (by simp)
  · exact framedDb.refl _

end

variable {R : RunScope → RunScope → Prop} {D : Db → Db → Prop} [framedDb : FramedDb R D]
variable [Platform] [framed : Framed true R] {w : World}

include framedDb framed

/-- A relation that new runs and the rows of other services keep as well. -/
theorem framed_step {a : Action}
    (hclaim : ∀ index verified locked ready, a = .claimCommit index verified locked ready →
      D w.db (w.step a).db)
    (hbeat : ∀ session attempts, a = .heartbeat session attempts → D w.db (w.step a).db) :
    D w.db (w.step a).db := by
  refine framed_step_runs hclaim hbeat ?_ ?_
  · rintro req rfl
    simp only [step]
    split
    · exact framed_attempt (by simp)
    · exact framedDb.refl _
  · rintro fleet rfl
    exact framedDb.fleet _ _

theorem framed_operate {o : Operation}
    (hclaim : ∀ index verified locked ready, o = .engine (.claimCommit index verified locked ready) →
      D w.db (w.operate o).db)
    (hbeat : ∀ session attempts, o = .engine (.heartbeat session attempts) →
      D w.db (w.operate o).db) : D w.db (w.operate o).db := by
  cases o with
  | engine a =>
    exact framed_step (fun i v l r h => hclaim i v l r (by rw [h])) fun s as h => hbeat s as (by rw [h])
  | recover i stale => exact framed_recover w i stale

end World

end Deadbolt.Execution

import Deadbolt.Lifecycle.Capacity
import Deadbolt.Worker.Credentials

/-!
# Revoked workers

`FenceWorkerSessions` deletes the leases of the worker's unrevoked sessions in the transaction that
revokes them, and a claim locks the worker and looks at its status, so a lease is always of an
unrevoked session of a worker that is not revoked. What can come back is the status itself, which
`DrainWorker` overwrites, and a session, whose creation looks at the status in a statement of its
own. Without the two a revocation is for good.
-/

namespace Deadbolt.Execution

open Base Contracts Tx

/-! ### Workers and sessions -/

def RunScope.Any (_ _ : RunScope) : Prop := True

instance : Framed true RunScope.Any where
  refl _ := trivial
  trans _ _ _ _ _ := trivial
  tick _ := trivial
  draw _ := trivial
  visit _ _ _ := trivial
  write _ _ _ := trivial

/-- No row of a worker or a session is written. -/
structure Db.SameStaff (db db' : Db) : Prop where
  workers : db'.fleet.workers = db.fleet.workers
  sessions : db'.fleet.sessions = db.fleet.sessions

instance : FramedCreation RunScope.Any Db.SameStaff where
  refl _ := ⟨rfl, rfl⟩
  trans _ _ _ h h' := ⟨h'.workers.trans h.workers, h'.sessions.trans h.sessions⟩
  elapse _ _ := ⟨rfl, rfl⟩
  draw _ := ⟨rfl, rfl⟩
  run _ _ := ⟨rfl, rfl⟩
  admissions _ _ := ⟨rfl, rfl⟩
  insert _ _ _ := ⟨rfl, rfl⟩

theorem keeps_any {α : Type} (x : RunTx α) : Keeps RunScope.Any x := fun _ _ _ _ => trivial

theorem World.sameStaff_step [Platform] (w : World) {a : Action} (hopen : ∀ id, a ≠ .openSession id)
    (hrevoke : ∀ id, a ≠ .revokeWorker id) (hfleet : ∀ fleet, a ≠ .reconfigure fleet) :
    w.db.SameStaff (w.step a).db := by
  refine framed_step_tx ?_ ?_ ?_ (fun id h => absurd h (hopen id)) (fun id h => absurd h (hrevoke id))
    fun fleet h => absurd h (hfleet fleet)
  · rintro index verified locked ready rfl
    simp only [step, commitClaim]
    split
    · exact refl _
    · exact framed_attempt (w := { w with claims := _ })
        (keeps_claimCommitTx _ _ _ _ _ fun _ _ => keeps_onRun (keeps_any _) _)
  · rintro session attempts rfl
    exact framed_attempt (keeps_heartbeatAll (fun _ _ => keeps_any _) attempts)
  · rintro req rfl
    simp only [step]
    split
    · exact framed_attempt (by simp)
    · exact refl _

/-! ### Leases -/

def Db.Leased (db : Db) (id : SessionID) : Prop :=
  ∃ k r j s l, db.runs.find? k = some r ∧ r.steps.find? j = some s ∧ s.lease = some l ∧
    l.sessionID = id

def heldBy (id : SessionID) (_ : EnvironmentID) (l : Lease) : Bool := l.sessionID == id

variable {db : Db} {id : SessionID}

theorem Db.leased_iff : db.Leased id ↔ db.leaseCount (heldBy id) ≠ 0 := by
  unfold leaseCount
  rw [ne_eq, Table.weigh_eq_zero]
  constructor
  · rintro ⟨k, r, j, s, l, hr, hs, hl, rfl⟩ h
    have hzero := Table.weigh_eq_zero.mp (h k r hr) j s hs
    simp [Step.leaseCount, hl, heldBy] at hzero
  · intro h
    by_contra hnone
    refine h fun k r hr => Table.weigh_eq_zero.mpr fun j s hs => ?_
    unfold Step.leaseCount
    rw [if_neg]
    rintro hany
    obtain ⟨l, hl, hid⟩ := (Option.any_eq_true _ _).mp hany
    exact hnone ⟨k, r, j, s, l, hr, hs, hl, beq_iff_eq.mp hid⟩

theorem Db.Leased.of_le {db' : Db} (h : db'.Leased id)
    (hle : db'.leaseCount (heldBy id) ≤ db.leaseCount (heldBy id)) : db.Leased id := by
  rw [Db.leased_iff] at h ⊢
  omega

theorem Db.Dwindles.leased {db' : Db} (h : db.Dwindles db') (hl : db'.Leased id) : db.Leased id :=
    hl.of_le (h.leases _)

section

variable [Platform]

variable {db : Db} {r : Run}

theorem heartbeatTx_leased {k : RunID} (hr : db.runs.find? k = some r) (session : WorkerSession)
    (attempt : AttemptID) (epoch : Int) :
    Commits (heartbeatTx session attempt epoch) ⟨k, r, db.sys⟩ fun _ c =>
      ∀ id, (db.putScope k c).Leased id → db.Leased id := by
  refine (heartbeatTx_renews _ session attempt epoch).mono ?_
  rintro _ c ⟨-, hc⟩ id hl
  refine hl.of_le (Db.leaseCount_putScope (n := 0) hr (fun _ _ h => h) ?_)
  rcases hc with hc | ⟨j, s, a, l, t, hs, -, -, -, -, hlease, hid, -, hc⟩
  · rw [hc]
    exact le_rfl
  · rw [hc]
    refine Table.weigh_mapRows_mono fun j' s' hm => Step.leaseCount_le fun l' hl' hp => ?_
    split at hl'
    · next hj =>
      subst hj
      obtain rfl := Option.mem_unique ((r.steps.find?_eq_some_iff j' s').mpr hm) hs
      simp only [Step.renewLease, hlease, hid, Option.map_some, if_true, Option.some.injEq] at hl'
      subst hl'
      exact ⟨l, hlease, hp⟩
    · exact ⟨l', hl', hp⟩

theorem World.heartbeat_leased (w : World) (session : WorkerSession)
    (attempts : List (AttemptID × Int)) {id : SessionID}
    (h : (w.step (.heartbeat session attempts)).db.Leased id) : w.db.Leased id := by
  have hall : Commits (heartbeatAll session attempts) w.db fun _ db' =>
      ∀ id, db'.Leased id → w.db.Leased id := by
    refine commits_forEach (I := fun db' => ∀ id, db'.Leased id → w.db.Leased id)
      (fun item _ db hdb => ?_) w.db fun _ h => h
    simp only [commits_bind, commits_read]
    cases db.runOfAttempt? item.1 with
    | none => exact (commits_pure ..).mpr hdb
    | some k =>
      simp only [commits_bind, commits_pure]
      rw [commits_onRun]
      intro r hr
      exact (heartbeatTx_leased hr session item.1 item.2).mono fun _ _ h id hl => hdb id (h id hl)
  simp only [step, attempt, transact] at h
  split at h
  · next a db' he => exact hall a db' he id h
  · exact h

/-- What the commit of a claim found of its worker and session. -/
structure Db.Employs (db : Db) (session : WorkerSession) : Prop where
  row : ∃ w ws, db.fleet.workers.find? session.workerID = some w ∧
    db.fleet.sessions.find? session.sessionID = some ws ∧ ws.workerID = session.workerID ∧
    ws.revokedAt = none ∧ w.status ≠ .revoked

/-- A claim of a revoked worker or session fails. -/
theorem claimCommitTx_employs (session : WorkerSession) (slots : Nat) (pending : List PendingClaim)
    (locked : List RunID) (ready : List String) (db : Db) :
    Commits (claimCommitTx session slots pending locked ready) db fun _ _ =>
      db.Employs session := by
  simp only [claimCommitTx, commits_bind, commits_read, id]
  split
  · next w ws hw hws =>
    simp only [commits_bind, commits_require, commits_dbClock]
    intro hworker hrevoked _ hstatus
    exact fun _ _ _ => ⟨w, ws, hw, hws, hworker, hrevoked, hstatus⟩
  · simp

/-- A claim gives a lease to its own session only, and only if it may. -/
theorem World.commitClaim_leased {w : World} (hw : w.Sound) (index : Nat) (verified : List Bool)
    (locked : List RunID) (ready : List String) {id : SessionID}
    (h : (w.commitClaim index verified locked ready).db.Leased id) :
    w.db.Leased id ∨ ∃ session : WorkerSession, session.sessionID = id ∧ w.db.Employs session := by
  rcases commitClaim_fills hw index verified locked ready with
    hd | ⟨claim, a, hclaim, -, hd | ⟨db1, n, hd, -, -, -, hg⟩⟩
  · exact .inl (hd.leased h)
  · exact .inl (hd.leased h)
  · by_cases hid : claim.session.sessionID = id
    · by_cases hchanged : (w.commitClaim index verified locked ready).db = w.db
      · exact .inl (hchanged ▸ h)
      · refine .inr ⟨claim.session, hid, ?_⟩
        unfold commitClaim at hchanged
        rw [hclaim] at hchanged
        simp only [attempt, transact] at hchanged
        split at hchanged
        · next x db' he => exact claimCommitTx_employs _ _ _ _ _ _ x db' he
        · exact absurd rfl hchanged
    · refine .inl (hd.leased (h.of_le (hg.others _ fun l hl => ?_)))
      simp [heldBy, hl, hid]

/-! ### Fences -/

theorem fenceAttemptTx_deletes (c : RunScope) (id : StepID) (attempt : AttemptID) (epoch : Int)
    (reason : String) : Commits (fenceAttemptTx id attempt epoch reason) c fun _ c' =>
      ∀ j s' l, c'.run.steps.find? j = some s' → s'.lease = some l →
        (∃ s, c.run.steps.find? j = some s ∧ s.lease = some l) ∧ (j = id → l.attemptID ≠ attempt) := by
  simp only [fenceAttemptTx, commits_bind, RunTx.commits_note, RunTx.commits_clockTimestamp,
    RunTx.commits_updateStep, RunTx.commits_modifyRun, commits_appendRunEvent, RunScope.run_withRun,
    RunScope.run_tick, RunScope.run_visit]
  intro _ j s' l hs' hl
  rw [Run.steps_pushEvent] at hs'
  replace hs' := (congrArg (fun t => t.find? j) (StatusMove.handoff.steps_apply _)).symm.trans hs'
  simp only [Run.updateStep, Run.mapSteps, Table.find?_mapRows] at hs'
  obtain ⟨s, hs, rfl⟩ := Option.map_eq_some_iff.mp hs'
  split at hl
  · next hj =>
    have hlease (error : Json) (now : Time) :
        (s.fence attempt epoch error now).lease = s.lease.filter fun l => l.attemptID != attempt := by
      unfold Step.fence
      split <;> rfl
    rw [hlease, Option.filter_eq_some_iff] at hl
    exact ⟨⟨s, hs, hl.1⟩, fun _ => by simpa using hl.2⟩
  · next hj => exact ⟨⟨s, hs, hl⟩, fun he => absurd ⟨he, trivial⟩ hj⟩

omit [Platform] in
theorem Run.mem_liveAttempts_of {k : StepID} {s : Step} {a : Attempt}
    (hs : r.steps.find? k = some s) (ha : a ∈ s.attempts) (hlive : a.status.live = true) :
    (k, a) ∈ r.liveAttempts := by
  refine List.mem_flatMap.mpr ⟨(k, s), ?_, List.mem_map.mpr ⟨a, ?_, rfl⟩⟩
  · exact (List.perm_insertionSort ..).mem_iff.mpr ((r.steps.find?_eq_some_iff k s).mp hs)
  · exact (List.perm_insertionSort ..).mem_iff.mpr (List.mem_filter.mpr ⟨ha, hlive⟩)

/-- The lease of an unrevoked session of the worker is of an attempt that is fenced. -/
theorem Db.mem_attemptsOfWorker {id : WorkerID} {k : RunID} {j : StepID} {s : Step} {l : Lease}
    {ws : Session} (hr : db.runs.find? k = some r) (hsound : r.Sound ∧ r.Ordered)
    (hs : r.steps.find? j = some s) (hl : s.lease = some l)
    (hws : db.fleet.sessions.find? l.sessionID = some ws) (hid : ws.workerID = id)
    (hrevoked : ws.revokedAt = none) :
    ∃ a, (k, j, a) ∈ db.attemptsOfWorker id ∧ a.id = l.attemptID := by
  have hstep : s.Sound := hsound.1.steps.find hs
  obtain ⟨-, a, ha, haid, -, hsession⟩ := (hsound.2 j s hs).lease l hl
  obtain ⟨b, hb, hbid, hlive⟩ := hstep.leased l hl
  obtain rfl : a = b := hstep.eq_of_id ha hb (haid.trans hbid.symm)
  refine ⟨a, List.mem_flatMap.mpr ⟨(k, r), ?_, List.mem_map.mpr ⟨(j, a), ?_, rfl⟩⟩, haid⟩
  · exact (List.perm_insertionSort ..).mem_iff.mpr ((db.runs.find?_eq_some_iff k r).mp hr)
  · refine List.mem_filter.mpr ⟨Run.mem_liveAttempts_of hs ha hlive, ?_⟩
    simp [hsession, hws, hid, hrevoked]

theorem fenceWorkerSessions_frees (hdb : ∀ k r, db.runs.find? k = some r → r.Sound ∧ r.Ordered)
    (worker : WorkerID) (reason : String) :
    Commits (fenceWorkerSessions worker reason) db fun _ db' =>
      ∀ sid ws, db.fleet.sessions.find? sid = some ws → ws.workerID = worker → ws.revokedAt = none →
        ¬ db'.Leased sid := by
  simp only [fenceWorkerSessions, commits_bind, commits_read, id]
  cases db.fleet.workers.find? worker with
  | none => simp
  | some w =>
    -- A lease that is left is of an attempt that is still to be fenced.
    refine (commits_forEach_rest (I := fun xs db' => ∀ sid ws,
      db.fleet.sessions.find? sid = some ws → ws.workerID = worker → ws.revokedAt = none →
      ∀ k r j s l, db'.runs.find? k = some r → r.steps.find? j = some s → s.lease = some l →
        l.sessionID = sid → ∃ a, (k, j, a) ∈ xs ∧ a.id = l.attemptID) ?_ _ db ?_).mono ?_
    · intro x xs db1 h
      rw [commits_onRun]
      intro r hr
      refine (fenceAttemptTx_deletes ⟨x.1, r, db1.sys⟩ x.2.1 x.2.2.id x.2.2.epoch reason).mono ?_
      intro _ c hc sid ws hws hid hrev k r' j s' l hr' hs' hl hsid
      rw [Db.find?_putScope] at hr'
      obtain ⟨r1, hr1, rfl⟩ := Option.map_eq_some_iff.mp hr'
      split at hs'
      · next hk =>
        subst hk
        obtain rfl := Option.mem_unique hr hr1
        obtain ⟨⟨s, hs, hl0⟩, hne⟩ := hc j s' l hs' hl
        obtain ⟨a, ha, haid⟩ := h sid ws hws hid hrev x.1 r j s l hr hs hl0 hsid
        rcases List.mem_cons.mp ha with hx | ha
        · rw [← hx] at hne
          exact absurd haid.symm (hne rfl)
        · exact ⟨a, ha, haid⟩
      · next hk =>
        obtain ⟨a, ha, haid⟩ := h sid ws hws hid hrev k r1 j s' l hr1 hs' hl hsid
        rcases List.mem_cons.mp ha with hx | ha
        · rw [← hx] at hk
          exact absurd rfl hk
        · exact ⟨a, ha, haid⟩
    · intro sid ws hws hid hrev k r j s l hr hs hl hsid
      exact Db.mem_attemptsOfWorker hr (hdb k r hr) hs hl (hsid ▸ hws) hid hrev
    · rintro _ db' h sid ws hws hid hrev ⟨k, r, j, s, l, hr, hs, hl, hsid⟩
      obtain ⟨a, ha, -⟩ := h sid ws hws hid hrev k r j s l hr hs hl hsid
      exact absurd ha List.not_mem_nil

/-- What a transaction that fences a worker does to sessions and leases: the sessions of others are
as they were, and no lease is left of a session of the worker that was not revoked. -/
structure Db.Cuts (worker : WorkerID) (db db' : Db) : Prop where
  kept : ∀ k ws, db.fleet.sessions.find? k = some ws → ∃ ws', db'.fleet.sessions.find? k = some ws' ∧
    ws'.workerID = ws.workerID ∧ (ws.workerID ≠ worker → ws'.revokedAt = ws.revokedAt)
  origin : ∀ k ws', db'.fleet.sessions.find? k = some ws' → ws'.workerID ≠ worker →
    ∃ ws, db.fleet.sessions.find? k = some ws ∧ ws.workerID = ws'.workerID
  leases : ∀ k, db'.Leased k → db.Leased k ∧ ∀ ws, db.fleet.sessions.find? k = some ws →
    ws.workerID = worker → ws.revokedAt ≠ none

theorem fenceWorkerSessions_spec (hdb : ∀ k r, db.runs.find? k = some r → r.Sound ∧ r.Ordered)
    (worker : WorkerID) (reason : String) :
    Commits (fenceWorkerSessions worker reason) db fun _ db' =>
      db.SameStaff db' ∧ ∀ k, db'.Leased k → db.Leased k ∧ ∀ ws,
        db.fleet.sessions.find? k = some ws → ws.workerID = worker → ws.revokedAt ≠ none := by
  refine (((keeps_fenceWorkerSessions (D := Db.Dwindles) worker reason db).and
    (keeps_fenceWorkerSessions (D := Db.SameStaff) worker reason db)).and
      (fenceWorkerSessions_frees hdb worker reason)).mono ?_
  rintro _ db' ⟨⟨hd, hstaff⟩, hfrees⟩
  exact ⟨hstaff, fun k hk => ⟨hd.leased hk, fun ws hws hid hrev => hfrees k ws hws hid hrev hk⟩⟩

/-- A session after those of the worker that meet a condition are revoked. -/
def revokeIf (worker : WorkerID) (p : Session → Bool) (now : Time) (ws : Session) : Session :=
  if ws.workerID = worker ∧ p ws = true then { ws with revokedAt := some now } else ws

omit [Platform] in
theorem workerID_revokeIf (worker : WorkerID) (p : Session → Bool) (now : Time) (ws : Session) :
    (revokeIf worker p now ws).workerID = ws.workerID := by
  unfold revokeIf
  split <;> rfl

omit [Platform] in
theorem revokedAt_revokeIf {worker : WorkerID} (p : Session → Bool) (now : Time) {ws : Session}
    (h : ws.workerID ≠ worker) : (revokeIf worker p now ws).revokedAt = ws.revokedAt := by
  unfold revokeIf
  rw [if_neg fun hc => h hc.1]

omit [Platform] in
theorem commits_revokeSessions (worker : WorkerID) (p : Session → Bool) (now : Time) (db : Db)
    (Q : Unit → Db → Prop) : Commits (revokeSessions worker p now) db Q ↔
      Q () { db with fleet := { db.fleet with
        sessions := db.fleet.sessions.mapRows fun _ ws => revokeIf worker p now ws } } :=
  commits_write ..

theorem revokeWorkerTx_spec (hdb : ∀ k r, db.runs.find? k = some r → r.Sound ∧ r.Ordered)
    (worker : WorkerID) :
    Commits (revokeWorkerTx worker) db fun _ db' =>
      db.Cuts worker db' ∧
      db'.fleet.workers = db.fleet.workers.modify worker (fun w => { w with status := .revoked }) ∧
      ∃ now, db'.fleet.sessions = db.fleet.sessions.mapRows fun _ ws =>
        revokeIf worker (fun _ => true) now ws := by
  simp only [revokeWorkerTx, commits_bind]
  refine (fenceWorkerSessions_spec hdb worker "REVOKED").mono ?_
  rintro _ db1 ⟨hstaff, hleases⟩
  simp only [commits_dbClock, commits_revokeSessions, commits_write]
  refine ⟨⟨fun k ws hws => ?_, fun k ws' hws' _ => ?_, hleases⟩, by rw [hstaff.workers],
    Platform.clock db1.sys.ticks, by rw [hstaff.sessions]⟩
  · refine ⟨revokeIf worker (fun _ => true) (Platform.clock db1.sys.ticks) ws, ?_,
      workerID_revokeIf .., revokedAt_revokeIf _ _⟩
    simp only [Table.find?_mapRows, hstaff.sessions, hws, Option.map_some]
  · simp only [Table.find?_mapRows, hstaff.sessions] at hws'
    obtain ⟨ws, hws, rfl⟩ := Option.map_eq_some_iff.mp hws'
    exact ⟨ws, hws, (workerID_revokeIf worker (fun _ => true) (Platform.clock db1.sys.ticks) ws).symm⟩

theorem openSessionTx_spec (hdb : ∀ k r, db.runs.find? k = some r → r.Sound ∧ r.Ordered)
    (worker : WorkerID) :
    Commits (openSessionTx worker) db fun _ db' =>
      db.Cuts worker db' ∧ db'.fleet.workers = db.fleet.workers := by
  simp only [openSessionTx, commits_bind, commits_read, id]
  cases db.fleet.workers.find? worker with
  | none => simp
  | some w =>
    simp only [commits_bind]
    refine (fenceWorkerSessions_spec hdb worker "RECONNECT").mono ?_
    rintro _ db1 ⟨hstaff, hleases⟩
    simp only [commits_dbClock, commits_revokeSessions, commits_read, id, commits_require,
      commits_dbNewID]
    intro _
    split
    · simp
    · next sessions hinsert =>
      simp only [commits_bind, commits_write, commits_pure]
      refine ⟨⟨fun k ws hws => ?_, fun k ws' hws' hne => ?_, hleases⟩, hstaff.workers⟩
      · have hold : (db1.fleet.sessions.mapRows fun _ ws => revokeIf worker
            (fun ws => ws.revokedAt.isNone) (Platform.clock db1.sys.ticks) ws).find? k =
            some (revokeIf worker (fun ws => ws.revokedAt.isNone) (Platform.clock db1.sys.ticks) ws) := by
          rw [Table.find?_mapRows, hstaff.sessions, hws, Option.map_some]
        refine ⟨_, ?_, workerID_revokeIf worker (fun ws => ws.revokedAt.isNone)
          (Platform.clock db1.sys.ticks) ws, revokedAt_revokeIf _ _⟩
        rw [Table.find?_insert? hinsert, if_neg]
        · exact hold
        · rintro rfl
          have hfree := (Table.insert?_eq_some _ _ _ _ hinsert).1
          exact absurd (hfree.symm.trans hold) (by simp)
      · rw [Table.find?_insert? hinsert] at hws'
        split at hws'
        · cases hws'
          exact absurd rfl hne
        · simp only [Table.find?_mapRows, hstaff.sessions] at hws'
          obtain ⟨ws, hws, rfl⟩ := Option.map_eq_some_iff.mp hws'
          exact ⟨ws, hws, (workerID_revokeIf worker (fun ws => ws.revokedAt.isNone)
            (Platform.clock db1.sys.ticks) ws).symm⟩

/-- A lease is of an unrevoked session of a worker that is not revoked. -/
def Db.Staffed (db : Db) : Prop :=
  ∀ k, db.Leased k → ∃ ws w, db.fleet.sessions.find? k = some ws ∧ ws.revokedAt = none ∧
    db.fleet.workers.find? ws.workerID = some w ∧ w.status ≠ .revoked

omit [Platform] in
theorem Db.Operates.ordered {db0 : Db} (h : db0.Operates db) (h0 : db0.runs = Table.empty)
    {id : RunID} (hr : db.runs.find? id = some r) : r.Sound ∧ r.Ordered := by
  obtain ⟨r0, tr, hc, -, he⟩ := h.fresh id r (by rw [h0]; rfl) hr
  have hordered := he.invariant (J := fun v => v.run.Ordered) (P := fun _ => True)
    (fun _ _ ha hJ _ hc => hc.ordered ha hJ) hc.sound (fun _ _ => trivial) hc.ordered
  exact ⟨he.sound hc.sound, hordered⟩

omit [Platform] in
theorem Db.Staffed.of_same {db' : Db} (h : db.Staffed) (hstaff : db.SameStaff db')
    (hleases : ∀ k, db'.Leased k → db.Leased k) : db'.Staffed := by
  intro k hk
  rw [hstaff.sessions, hstaff.workers]
  exact h k (hleases k hk)

omit [Platform] in
theorem Db.Staffed.cuts {worker : WorkerID} {db' : Db} (h : db.Staffed) (hcuts : db.Cuts worker db')
    (hworkers : ∀ id w, id ≠ worker → db.fleet.workers.find? id = some w →
      db'.fleet.workers.find? id = some w) : db'.Staffed := by
  intro k hk
  obtain ⟨hold, hfenced⟩ := hcuts.leases k hk
  obtain ⟨ws, w, hws, hrevoked, hw, hstatus⟩ := h k hold
  have hne : ws.workerID ≠ worker := fun he => hfenced ws hws he hrevoked
  obtain ⟨ws', hws', hid, hrev⟩ := hcuts.kept k ws hws
  refine ⟨ws', w, hws', (hrev hne).trans hrevoked, ?_, hstatus⟩
  rw [hid]
  exact hworkers _ w hne hw

namespace World

/-- The actions of the engine keep every lease with a session and a worker that may have it. -/
theorem staffed_step {w : World} (hw : w.Sound)
    (hruns : ∀ k r, w.db.runs.find? k = some r → r.Sound ∧ r.Ordered) (h : w.db.Staffed)
    {a : Action} (hfleet : ∀ fleet, a ≠ .reconfigure fleet) : (w.step a).db.Staffed := by
  by_cases hopen : ∃ id, a = .openSession id
  · obtain ⟨id, rfl⟩ := hopen
    simp only [step, attempt, transact]
    split
    · next x db' he =>
      obtain ⟨hcuts, hworkers⟩ := openSessionTx_spec hruns id x db' he
      exact h.cuts hcuts fun k w' _ hw' => by rw [hworkers]; exact hw'
    · exact h
  by_cases hrevoke : ∃ id, a = .revokeWorker id
  · obtain ⟨id, rfl⟩ := hrevoke
    simp only [step, attempt, transact]
    split
    · next x db' he =>
      obtain ⟨hcuts, hworkers, -⟩ := revokeWorkerTx_spec hruns id x db' he
      refine h.cuts hcuts fun k w' hne hw' => ?_
      rw [hworkers, Table.find?_modify, hw', Option.map_some, if_neg hne]
    · exact h
  have hstaff : w.db.SameStaff (w.step a).db :=
    w.sameStaff_step (fun id he => hopen ⟨id, he⟩) (fun id he => hrevoke ⟨id, he⟩) hfleet
  by_cases hclaim : ∃ index verified locked ready, a = .claimCommit index verified locked ready
  · obtain ⟨index, verified, locked, ready, rfl⟩ := hclaim
    intro k hk
    rw [hstaff.sessions, hstaff.workers]
    rcases commitClaim_leased hw index verified locked ready hk with hold | ⟨session, rfl, hemploys⟩
    · exact h k hold
    · obtain ⟨w', ws, hw', hws, hid, hrevoked, hstatus⟩ := hemploys.row
      exact ⟨ws, w', hws, hrevoked, by rw [hid]; exact hw', hstatus⟩
  by_cases hbeat : ∃ session attempts, a = .heartbeat session attempts
  · obtain ⟨session, attempts, rfl⟩ := hbeat
    exact h.of_same hstaff fun k hk => w.heartbeat_leased session attempts hk
  have hd : w.db.Dwindles (w.step a).db :=
    framed_step (fun i v l r he => absurd ⟨i, v, l, r, he⟩ hclaim)
      fun s as he => absurd ⟨s, as, he⟩ hbeat
  exact h.of_same hstaff fun k hk => hd.leased hk

end World

end

end Deadbolt.Execution

namespace Deadbolt.Worker

open Base Tx Execution

variable [Platform] [SignatureScheme]

/-- What a step of the service does to the database. -/
inductive Registry.Turns (s : Registry) : ServiceStep → World → Prop
  | stay (a : ServiceStep) : Turns s a s.world
  | act (a : ServiceStep) (action : Action) (hopen : ∀ id, action ≠ .openSession id)
    (hrevoke : ∀ id, action ≠ .revokeWorker id) (hfleet : ∀ fleet, action ≠ .reconfigure fleet) :
    Turns s a (s.world.step action)
  | issue (a : ServiceStep) {worker : WorkerID} (h : worker ∈ s.issuing) :
    Turns s a (s.world.step (.openSession worker))
  | revoke (a : ServiceStep) (worker : WorkerID) : Turns s a (s.world.step (.revokeWorker worker))
  | drain (worker : WorkerID) : Turns s (.drainWorker worker) (s.drainWorker worker).world
  | advertise (a : ServiceStep) (index : Nat) (digests : List String) :
    Turns s a (s.advertise index digests).world
  | configure (a : ServiceStep) (f : Fleet → Fleet) (hw : ∀ x, (f x).workers = x.workers)
    (hs : ∀ x, (f x).sessions = x.sessions) : Turns s a (s.withFleet f).world
  | enroll (a : ServiceStep) {env : EnvironmentID} {pool : String} {x : WorkerID × SessionID}
    {db : Db} (h : enrollTx env pool s.world.db = .ok (x, db)) :
    Turns s a { s.world with db := db }

namespace Registry

variable {s : Registry}

theorem turns_tick (s : Registry) (a : ServiceStep) : s.Turns a s.tick.world :=
  .act a (.elapse 1) (by simp) (by simp) (by simp)

theorem turns_consumeChallenge {nonce : Nonce} {c : Challenge} {s' : Registry}
    (h : s.consumeChallenge nonce = some (c, s')) (a : ServiceStep) : s.Turns a s'.world := by
  unfold consumeChallenge at h
  split at h
  · cases h
  · split at h
    · cases h
      exact s.turns_tick a
    · cases h

theorem turns_step (s : Registry) (a : ServiceStep) : s.Turns a (service.step s a).world := by
  cases a with
  | createChallenge nonce workerID publicKey =>
    simp only [service, createChallenge]
    split
    · exact .stay _
    · exact s.turns_tick _
  | createEnrollment token env pool => exact s.turns_tick _
  | reconnect req =>
    simp only [service, reconnect]
    split
    · exact .stay _
    · next c s' h =>
      split <;> exact turns_consumeChallenge h _
  | lookupWorker index =>
    simp only [service, lookupWorker]
    split
    · exact .stay _
    · split
      · split <;> exact .stay _
      · exact .stay _
  | issueSession index =>
    simp only [service, issueSession]
    split
    · exact .stay _
    · next h => exact .issue _ (List.mem_of_getElem? h)
  | proveKey req =>
    simp only [service, proveKey]
    split
    · exact .stay _
    · next c s' h =>
      split
      · split <;> exact turns_consumeChallenge h _
      · exact turns_consumeChallenge h _
  | consumeToken index =>
    simp only [service, consumeToken]
    split
    · exact .stay _
    · split
      · exact .stay _
      · split
        · exact s.turns_tick _
        · exact .stay _
  | insertWorker index =>
    simp only [service, insertWorker]
    split
    · exact .stay _
    · split
      · exact .stay _
      · next h => exact .enroll _ h
  | authenticate token =>
    simp only [service, authenticate]
    split <;> exact s.turns_tick _
  | request index caller req =>
    simp only [service, request]
    split
    · exact .stay _
    · split
      · refine .act _ (req.action _) ?_ ?_ ?_ <;> cases req <;> simp [WorkerRequest.action]
      · exact .stay _
  | poll index caller pool slots =>
    simp only [service, poll]
    split
    · exact .stay _
    · split <;> exact .stay _
  | advertise index digests => exact .advertise _ index digests
  | claimSnapshot index locked =>
    simp only [service, claimSnapshot]
    split
    · exact .stay _
    · split
      · exact .act _ (.claimSnapshot ..) (by simp) (by simp) (by simp)
      · exact .stay _
  | claimCommit index verified locked ready =>
    exact .act _ (.claimCommit index verified locked ready) (by simp) (by simp) (by simp)
  | endPoll index => exact .stay _
  | revokeWorker worker => exact .revoke _ worker
  | drainWorker worker => exact .drain worker
  | operate action =>
    simp only [service]
    split
    · next h =>
      refine .act _ action ?_ ?_ ?_
      all_goals
        rintro x rfl
        cases h
    · exact .stay _
  | configure admissions deployments channels controls =>
    exact .configure _ _ (fun _ => rfl) fun _ => rfl

omit [SignatureScheme] in
theorem enrollTx_spec (env : EnvironmentID) (pool : String) (db : Db) :
    Commits (enrollTx env pool) db fun x db' =>
      db'.runs = db.runs ∧ db'.sys.trace = db.sys.trace ∧
      db.fleet.workers.insert? x.1 ⟨env, pool, .active⟩ = some db'.fleet.workers ∧
      ∃ ws, ws.workerID = x.1 ∧ db.fleet.sessions.insert? x.2 ws = some db'.fleet.sessions := by
  simp only [enrollTx, commits_bind, commits_read, id]
  split
  · simp
  · simp only [commits_bind, commits_dbClock, commits_require, commits_dbNewID]
    intro _
    split
    · simp
    · next workers hworkers =>
      simp only [commits_bind, commits_dbClock, commits_dbNewID]
      split
      · simp
      · next sessions hsessions =>
        simp only [commits_bind, commits_write, commits_pure]
        exact ⟨trivial, trivial, hworkers, _, rfl, hsessions⟩

variable {a : ServiceStep} {w : World} {id : WorkerID}

theorem Turns.follows (h : s.Turns a w) (hs : s.world.Sound) : s.world.Follows w := by
  cases h with
  | stay => exact .refl _
  | act => exact World.follows_step hs _
  | issue => exact World.follows_step hs _
  | revoke => exact World.follows_step hs _
  | drain worker => exact World.follows_step hs (.reconfigure _)
  | advertise a index digests =>
    unfold Registry.advertise
    split
    · exact .refl _
    · exact World.follows_step hs (.reconfigure _)
  | configure => exact World.follows_step hs (.reconfigure _)
  | enroll _ h =>
    obtain ⟨hruns, htrace, -⟩ := enrollTx_spec _ _ _ _ _ h
    exact .of_same hruns htrace fun _ hc => hc

/-- What every step of the service keeps. -/
structure Sound (s : Registry) : Prop where
  origin : ∃ db0 : Db, db0.runs = Table.empty ∧ db0.Operates s.world.db
  world : s.world.Sound
  staffed : s.world.db.Staffed

theorem Sound.runs (h : s.Sound) (k : RunID) (r : Run) (hr : s.world.db.runs.find? k = some r) :
    r.Sound ∧ r.Ordered := by
  obtain ⟨db0, hempty, ho⟩ := h.origin
  exact ho.ordered hempty hr

omit [Platform] [SignatureScheme] in
theorem staffed_of_kept {db db' : Db} (h : db.Staffed) (hruns : db'.runs = db.runs)
    (hsessions : ∀ k ws, db.fleet.sessions.find? k = some ws → ∃ ws',
      db'.fleet.sessions.find? k = some ws' ∧ ws'.workerID = ws.workerID ∧
        ws'.revokedAt = ws.revokedAt)
    (hworkers : ∀ k w, db.fleet.workers.find? k = some w → w.status ≠ .revoked → ∃ w',
      db'.fleet.workers.find? k = some w' ∧ w'.status ≠ .revoked) : db'.Staffed := by
  intro k hk
  simp only [Db.Leased, hruns] at hk
  obtain ⟨ws, w, hws, hrevoked, hw, hstatus⟩ := h k hk
  obtain ⟨ws', hws', hid, hrev⟩ := hsessions k ws hws
  obtain ⟨w', hw', hstatus'⟩ := hworkers _ w hw hstatus
  exact ⟨ws', w', hws', hrev.trans hrevoked, hid ▸ hw', hstatus'⟩

theorem Turns.staffed (h : s.Turns a w) (hs : s.Sound) : w.db.Staffed := by
  have hstep {action : Action} (hfleet : ∀ fleet, action ≠ .reconfigure fleet) :
      (s.world.step action).db.Staffed :=
    World.staffed_step hs.world hs.runs hs.staffed hfleet
  cases h with
  | stay => exact hs.staffed
  | act _ _ _ _ hfleet => exact hstep hfleet
  | issue => exact hstep (by simp)
  | revoke => exact hstep (by simp)
  | drain worker =>
    refine staffed_of_kept hs.staffed rfl (fun k ws hws => ⟨ws, hws, rfl, rfl⟩) fun k w hw hne => ?_
    simp only [drainWorker, withFleet, World.step, Table.find?_modify, hw, Option.map_some]
    split
    · exact ⟨_, rfl, by simp⟩
    · exact ⟨_, rfl, hne⟩
  | advertise a index digests =>
    unfold Registry.advertise
    split
    · exact hs.staffed
    · refine staffed_of_kept hs.staffed rfl (fun k ws hws => ?_) fun k w hw hne => ⟨w, hw, hne⟩
      simp only [withFleet, World.step, Table.find?_modify, hws, Option.map_some]
      split <;> exact ⟨_, rfl, rfl, rfl⟩
  | configure _ f hw hsessions =>
    refine staffed_of_kept hs.staffed rfl (fun k ws hws => ⟨ws, ?_, rfl, rfl⟩)
      fun k w hk hne => ⟨w, ?_, hne⟩
    · simp only [withFleet, World.step, hsessions, hws]
    · simp only [withFleet, World.step, hw, hk]
  | enroll _ h =>
    obtain ⟨hruns, -, hworkers, ws, -, hsessions⟩ := enrollTx_spec _ _ _ _ _ h
    exact staffed_of_kept hs.staffed hruns
      (fun k ws hws => ⟨ws, Table.find?_of_insert? hsessions hws, rfl, rfl⟩)
      fun k w hw hne => ⟨w, Table.find?_of_insert? hworkers hw, hne⟩

theorem Sound.step (h : s.Sound) (a : ServiceStep) : (service.step s a).Sound where
  origin := by
    obtain ⟨db0, hempty, ho⟩ := h.origin
    exact ⟨db0, hempty, ho.trans ((s.turns_step a).follows h.world).db.operates⟩
  world := ((s.turns_step a).follows h.world).sound h.world
  staffed := (s.turns_step a).staffed h

omit [SignatureScheme] in
theorem sound_initial (admissions : Table EnvironmentID Admission)
    (deployments : Table DeploymentID Deployment)
    (channels : List ((EnvironmentID × String) × DeploymentID)) (controls : Option Controls) :
    (initial admissions deployments channels controls).Sound where
  origin := ⟨_, rfl, .refl _⟩
  world := World.sound_initial _
  staffed := by
    rintro k ⟨_, r, _, _, _, hr, -⟩
    exact absurd hr (by simp [initial, World.initial, Table.find?, Table.empty])

def Revoked (s : Registry) (id : WorkerID) : Prop :=
  ∃ w, s.world.db.fleet.workers.find? id = some w ∧ w.status = .revoked

instance (s : Registry) (id : WorkerID) : Decidable (s.Revoked id) :=
  decidable_of_iff ((s.world.db.fleet.workers.find? id).map (fun w => w.status) = some .revoked)
    Option.map_eq_some_iff

def HasSession (s : Registry) (id : WorkerID) (k : SessionID) : Prop :=
  ∃ ws, s.world.db.fleet.sessions.find? k = some ws ∧ ws.workerID = id

instance (s : Registry) (id : WorkerID) (k : SessionID) : Decidable (s.HasSession id k) :=
  decidable_of_iff ((s.world.db.fleet.sessions.find? k).map (fun ws => ws.workerID) = some id)
    Option.map_eq_some_iff

/-- A step keeps the revocation of a worker that has no session creation past its check, and adds
no session of it. -/
theorem Turns.revoked (h : s.Turns a w) (hs : s.Sound) (hrevoked : s.Revoked id)
    (hissuing : id ∉ s.issuing) (hdrain : a ≠ .drainWorker id) :
    (∃ x, w.db.fleet.workers.find? id = some x ∧ x.status = .revoked) ∧
    ∀ k ws', w.db.fleet.sessions.find? k = some ws' → ws'.workerID = id →
      ∃ ws, s.world.db.fleet.sessions.find? k = some ws ∧ ws.workerID = id := by
  obtain ⟨x, hx, hstatus⟩ := hrevoked
  have hstay : (∃ x, s.world.db.fleet.workers.find? id = some x ∧ x.status = .revoked) ∧
      ∀ k ws', s.world.db.fleet.sessions.find? k = some ws' → ws'.workerID = id →
        ∃ ws, s.world.db.fleet.sessions.find? k = some ws ∧ ws.workerID = id :=
    ⟨⟨x, hx, hstatus⟩, fun k ws' hws' hid => ⟨ws', hws', hid⟩⟩
  cases h with
  | stay => exact hstay
  | act _ action hopen hrevoke hfleet =>
    have hstaff := s.world.sameStaff_step hopen hrevoke hfleet
    rw [hstaff.workers, hstaff.sessions]
    exact hstay
  | @issue _ worker hmem =>
    have hne : id ≠ worker := fun he => hissuing (he ▸ hmem)
    simp only [World.step, World.attempt, World.transact]
    split
    · next y db' he =>
      obtain ⟨hcuts, hworkers⟩ := openSessionTx_spec hs.runs worker y db' he
      refine ⟨⟨x, hworkers ▸ hx, hstatus⟩, fun k ws' hws' hid => ?_⟩
      obtain ⟨ws, hws, hsame⟩ := hcuts.origin k ws' hws' (hid ▸ hne)
      exact ⟨ws, hws, hsame.trans hid⟩
    · exact hstay
  | revoke _ worker =>
    simp only [World.step, World.attempt, World.transact]
    split
    · next y db' he =>
      obtain ⟨-, hworkers, now, hsessions⟩ := revokeWorkerTx_spec hs.runs worker y db' he
      refine ⟨?_, fun k ws' hws' hid => ?_⟩
      · rw [hworkers, Table.find?_modify, hx, Option.map_some]
        split
        · exact ⟨_, rfl, rfl⟩
        · exact ⟨_, rfl, hstatus⟩
      · rw [hsessions, Table.find?_mapRows] at hws'
        obtain ⟨ws, hws, rfl⟩ := Option.map_eq_some_iff.mp hws'
        exact ⟨ws, hws, (workerID_revokeIf worker _ now ws).symm.trans hid⟩
    · exact hstay
  | drain worker =>
    have hne : id ≠ worker := fun he => hdrain (he ▸ rfl)
    refine ⟨⟨x, ?_, hstatus⟩, hstay.2⟩
    simp only [drainWorker, withFleet, World.step, Table.find?_modify, hx, Option.map_some,
      if_neg hne]
  | advertise a index digests =>
    unfold Registry.advertise
    split
    · exact hstay
    · refine ⟨hstay.1, fun k ws' hws' hid => ?_⟩
      simp only [withFleet, World.step, Table.find?_modify] at hws'
      obtain ⟨ws, hws, rfl⟩ := Option.map_eq_some_iff.mp hws'
      split at hid <;> exact ⟨ws, hws, hid⟩
  | configure _ f hw hsessions =>
    simp only [withFleet, World.step, hsessions, hw]
    exact hstay
  | enroll _ h =>
    obtain ⟨-, -, hworkers, ws0, hid0, hsessions⟩ := enrollTx_spec _ _ _ _ _ h
    refine ⟨⟨x, Table.find?_of_insert? hworkers hx, hstatus⟩, fun k ws' hws' hid => ?_⟩
    rw [Table.find?_insert? hsessions] at hws'
    split at hws'
    · cases hws'
      have hfree := (Table.insert?_eq_some _ _ _ _ hworkers).1
      rw [← hid0, hid] at hfree
      exact absurd (hfree.symm.trans hx) (by simp)
    · exact ⟨ws', hws', hid⟩

/-- A session creation passes its check only while the worker is not revoked. -/
theorem issuing_step (s : Registry) (a : ServiceStep) (h : id ∈ (service.step s a).issuing) :
    id ∈ s.issuing ∨ ¬ s.Revoked id := by
  cases a with
  | lookupWorker index =>
    simp only [service, lookupWorker] at h
    split at h
    · exact .inl h
    · split at h
      · next w key hw hkey =>
        split at h
        · next hc =>
          rcases List.mem_append.mp h with h | h
          · exact .inl h
          · obtain rfl := List.mem_singleton.mp h
            refine .inr ?_
            rintro ⟨w', hw', hstatus⟩
            obtain rfl := Option.mem_unique hw hw'
            exact hc.1 hstatus
        · exact .inl h
      · exact .inl h
  | issueSession index =>
    simp only [service, issueSession] at h
    split at h
    · exact .inl h
    · exact .inl (List.mem_of_mem_eraseIdx h)
  | reconnect req =>
    simp only [service, reconnect, consumeChallenge] at h
    grind [tick]
  | proveKey req =>
    simp only [service, proveKey, consumeChallenge] at h
    grind [tick]
  | createChallenge =>
    simp only [service, createChallenge] at h
    grind [tick]
  | consumeToken =>
    simp only [service, consumeToken] at h
    grind [tick]
  | insertWorker =>
    simp only [service, insertWorker] at h
    grind
  | authenticate =>
    simp only [service, authenticate] at h
    grind [tick]
  | request =>
    simp only [service, request] at h
    grind
  | poll =>
    simp only [service, poll] at h
    grind
  | advertise =>
    simp only [service, advertise] at h
    grind [withFleet]
  | claimSnapshot =>
    simp only [service, claimSnapshot] at h
    grind
  | operate =>
    simp only [service] at h
    grind
  | createEnrollment => exact .inl h
  | claimCommit => exact .inl h
  | endPoll => exact .inl h
  | revokeWorker => exact .inl h
  | drainWorker => exact .inl h
  | configure => exact .inl h

/-- A revoked worker whose session creations are over: a step keeps it so. -/
theorem Sound.dismissed (h : s.Sound) (hrevoked : s.Revoked id) (hissuing : id ∉ s.issuing)
    (hdrain : a ≠ .drainWorker id) :
    (service.step s a).Revoked id ∧ id ∉ (service.step s a).issuing ∧
      ∀ k, (service.step s a).HasSession id k → s.HasSession id k := by
  obtain ⟨hstatus, hsessions⟩ := (s.turns_step a).revoked h hrevoked hissuing hdrain
  refine ⟨hstatus, fun hmem => ?_, fun k ⟨ws', hws', hid⟩ => hsessions k ws' hws' hid⟩
  exact (s.issuing_step a hmem).elim hissuing fun hn => hn hrevoked

theorem Sound.dismissed_exec (h : s.Sound) (hrevoked : s.Revoked id) (hissuing : id ∉ s.issuing)
    {bs : List ServiceStep} (hdrain : .drainWorker id ∉ bs) :
    (service.exec s bs).Sound ∧ (service.exec s bs).Revoked id ∧
      ∀ k, (service.exec s bs).HasSession id k → s.HasSession id k := by
  induction bs generalizing s with
  | nil => exact ⟨h, hrevoked, fun _ hk => hk⟩
  | cons b bs ih =>
    obtain ⟨hb, hbs⟩ := not_or.mp (mt List.mem_cons.mpr hdrain)
    obtain ⟨hrev, hiss, hses⟩ := h.dismissed hrevoked hissuing fun he => hb he.symm
    obtain ⟨hs, hr, hk⟩ := ih (h.step b) hrev hiss hbs
    exact ⟨hs, hr, fun k hsk => hses k (hk k hsk)⟩

omit [SignatureScheme] in
theorem Revoked.authenticate (h : s.Revoked id) {token : SessionID} {session : WorkerSession}
    (ha : s.world.authenticate token = some session) : session.workerID ≠ id := by
  rintro rfl
  obtain ⟨w, hw, hstatus⟩ := h
  simp only [World.authenticate, Option.bind_eq_some_iff] at ha
  obtain ⟨ws, -, w', hw', ha⟩ := ha
  split at ha
  · cases ha
  · next hc =>
    cases ha
    obtain rfl := Option.mem_unique hw hw'
    exact hc (.inl hstatus)

omit [SignatureScheme] in
theorem Revoked.claim {session : WorkerSession} (h : s.Revoked session.workerID) (slots : Nat)
    (pending : List PendingClaim) (locked : List RunID) (ready : List String) :
    ∃ e, claimCommitTx session slots pending locked ready s.world.db = .error e := by
  cases he : claimCommitTx session slots pending locked ready s.world.db with
  | error e => exact ⟨e, rfl⟩
  | ok x =>
    obtain ⟨w, hw, hstatus⟩ := h
    obtain ⟨⟨w', -, hw', -, -, -, hne⟩⟩ := claimCommitTx_employs _ _ _ _ _ _ x.1 x.2 he
    obtain rfl := Option.mem_unique hw hw'
    exact absurd hstatus hne

theorem Sound.unleased (h : s.Sound) (hrevoked : s.Revoked id) {k : SessionID}
    (hk : s.HasSession id k) : ¬ s.world.db.Leased k := by
  intro hl
  obtain ⟨ws, hws, hid⟩ := hk
  obtain ⟨w, hw, hstatus⟩ := hrevoked
  obtain ⟨ws', w', hws', -, hw', hne⟩ := h.staffed k hl
  obtain rfl := Option.mem_unique hws hws'
  rw [hid] at hw'
  obtain rfl := Option.mem_unique hw hw'
  exact hne hstatus

end Registry

/-- A committed revocation is for good if no later request drains the worker and no session creation
of the worker is past its check of the status: the worker stays revoked, does not authenticate,
gets no session, claims no attempt and has no lease to renew. -/
theorem revocation_lasts (admissions : Table EnvironmentID Admission)
    (deployments : Table DeploymentID Deployment)
    (channels : List ((EnvironmentID × String) × DeploymentID)) (controls : Option Controls)
    (as bs : List ServiceStep) (id : WorkerID) :
    let s := service.exec (Registry.initial admissions deployments channels controls) as
    let s' := service.exec s bs
    s.Revoked id → id ∉ s.issuing → .drainWorker id ∉ bs →
      s'.Revoked id ∧
      (∀ token session, s'.world.authenticate token = some session → session.workerID ≠ id) ∧
      (∀ k, s'.HasSession id k → s.HasSession id k) ∧
      (∀ session slots pending locked ready, session.workerID = id →
        ∃ e, claimCommitTx session slots pending locked ready s'.world.db = .error e) ∧
      ∀ k, s'.HasSession id k → ¬ s'.world.db.Leased k := by
  intro s s' hrevoked hissuing hdrain
  have hs : s.Sound := service.invariant_of_step (fun _ a h => h.step a)
    (Registry.sound_initial admissions deployments channels controls) as
  obtain ⟨hs', hrevoked', hsessions⟩ := hs.dismissed_exec hrevoked hissuing hdrain
  refine ⟨hrevoked', fun _ _ h => hrevoked'.authenticate h, hsessions, ?_,
    fun _ hk => hs'.unleased hrevoked' hk⟩
  rintro session slots pending locked ready rfl
  exact hrevoked'.claim slots pending locked ready

namespace Sample

open Execution.Sample

@[reducible] def scheme : SignatureScheme where
  verify key nonce signature := signature == key + nonce

/-- A worker with the key 7 enrolls; it is the worker 0 with the session 1. -/
def enrolled : List ServiceStep :=
  [.createEnrollment 5 1 "default", .createChallenge 1 none (some 7),
    .proveKey ⟨5, some 7, 1, 8⟩, .consumeToken 0, .insertWorker 0]

/-- The worker asks for a challenge, signs it and is looked up. -/
def lookedUp : List ServiceStep :=
  [.createChallenge 2 (some 0) none, .reconnect ⟨0, 2, 9⟩, .lookupWorker 0]

def serve (as : List ServiceStep) : Registry :=
  (@service platform scheme).exec
    (Registry.initial (table [(1, ⟨10, 2000000, 0⟩)]) Table.empty [] (some ⟨true, true, .active⟩)) as

end Sample

section

open Execution.Sample Sample

/-- A worker is revoked and asks for a session. -/
theorem revocation_lasts_reconnect :
    let s := serve (enrolled ++ [.revokeWorker 0])
    let s' := serve (enrolled ++ [.revokeWorker 0] ++ (lookedUp ++ [.issueSession 0]))
    (s.Revoked 0 ∧ 0 ∉ s.issuing ∧ s'.HasSession 0 1) ∧
      s'.Revoked 0 ∧ (∀ k, s'.HasSession 0 k → s.HasSession 0 k) ∧
      ∀ k, s'.HasSession 0 k → ¬ s'.world.db.Leased k := by
  have hdrain : ServiceStep.drainWorker 0 ∉ lookedUp ++ [.issueSession 0] := by simp [lookedUp]
  have h := @revocation_lasts platform scheme (table [(1, ⟨10, 2000000, 0⟩)]) Table.empty
    [] (some ⟨true, true, .active⟩) (enrolled ++ [.revokeWorker 0]) (lookedUp ++ [.issueSession 0]) 0
    (by decide +kernel) (by decide +kernel) hdrain
  rw [← System.exec_append] at h
  exact ⟨by decide +kernel, h.1, h.2.2.1, h.2.2.2.2⟩

omit [Platform] [SignatureScheme] in
/-- A drain takes the status of a revoked worker away, and the worker gets a session and
authenticates. Without a drain, a session creation that looked at the status before the revocation
inserts its session after it. -/
theorem revoked_worker_returns :
    (serve (enrolled ++ [.revokeWorker 0])).Revoked 0 ∧
    (let s := serve (enrolled ++ [.revokeWorker 0, .drainWorker 0] ++ lookedUp ++ [.issueSession 0])
    ¬ s.Revoked 0 ∧
      (@World.authenticate platform s.world 2).map (fun session => session.workerID) = some 0) ∧
    (let s := serve (enrolled ++ lookedUp ++ [.revokeWorker 0])
    let s' := serve (enrolled ++ lookedUp ++ [.revokeWorker 0, .issueSession 0])
    s.Revoked 0 ∧ ¬ s.HasSession 0 2 ∧ s'.HasSession 0 2) := by
  decide +kernel

end

end Deadbolt.Worker

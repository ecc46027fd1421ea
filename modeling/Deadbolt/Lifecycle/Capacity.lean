import Deadbolt.Lifecycle.Fencing
import Deadbolt.Lifecycle.Framing

/-!
# Leases within their limits

A claim counts the unexpired leases of its environment and grants no more attempts than fit under
the limit of the environment, and no other operation adds a lease. The leases of a session have no
such limit: the slots of a poll bound one claim, and a session keeps what earlier claims gave it.
-/

namespace Deadbolt.Execution

open Base Contracts Tx RunTx

namespace Sample

def quartet : Fleet :=
  fleet (["a", "b", "c", "d"].map fun name => taskManifest name "safe" none)
    [workflow "w" (["a", "b", "c", "d"].map fun name => taskNode name [])]

def poll : List Operation :=
  [.engine (.claimSnapshot session 2 []), .engine (.claimCommit 0 [true, true] [] [])]

def created (os : List Operation) : World :=
  (@installation platform).exec (World.initial quartet) (.engine (.createRun request) :: os)

end Sample

/-! ### Counting -/

/-- One for a step with a lease that satisfies `p`. -/
def Step.leaseCount (p : Lease → Bool) (s : Step) : Nat := if s.lease.any p = true then 1 else 0

/-- The steps of a run with a lease that satisfies `p`. -/
def Run.leaseCount (p : Lease → Bool) (r : Run) : Nat := r.steps.weigh (Step.leaseCount p)

namespace Db

/-- The leases selected by the environment of their run and their own columns. -/
def leaseCount (sel : EnvironmentID → Lease → Bool) (db : Db) : Nat :=
  db.runs.weigh fun r => r.leaseCount (sel r.environmentID)

def sessionLeases (db : Db) (id : SessionID) (now : Time) : List Lease :=
  db.runs.rows.flatMap fun e => (e.2.unexpiredLeases now).filter fun l => l.sessionID == id

end Db

def ofEnvironment (env : EnvironmentID) (now : Time) (e : EnvironmentID) (l : Lease) : Bool :=
  e == env && decide (now < l.expiresAt)

def ofSession (id : SessionID) (now : Time) (_ : EnvironmentID) (l : Lease) : Bool :=
  decide (now < l.expiresAt) && l.sessionID == id

namespace Step

/-- A step counts where another one does, if every lease it counts for has a counted one there. -/
theorem leaseCount_le {s s' : Step} {p q : Lease → Bool}
    (h : ∀ l, s'.lease = some l → p l = true → ∃ l0, s.lease = some l0 ∧ q l0 = true) :
    s'.leaseCount p ≤ s.leaseCount q := by
  unfold leaseCount
  by_cases hp : s'.lease.any p = true
  · obtain ⟨l, hl, hpl⟩ := (Option.any_eq_true _ _).mp hp
    rw [if_pos hp, if_pos ((Option.any_eq_true _ _).mpr (h l hl hpl))]
  · rw [if_neg hp]
    exact Nat.zero_le _

theorem leaseCount_le_one (s : Step) (p : Lease → Bool) : s.leaseCount p ≤ 1 := by
  unfold leaseCount
  split <;> omega

end Step

namespace Run

theorem length_filterMap_lease (r : Run) (p : Lease → Bool) :
    (r.steps.rows.filterMap fun e => e.2.lease.filter p).length = r.leaseCount p := by
  unfold leaseCount Table.weigh
  induction r.steps.rows with
  | nil => rfl
  | cons e rest ih =>
    rw [List.map_cons, List.sum_cons, ← ih, List.filterMap_cons, Step.leaseCount]
    cases e.2.lease with
    | none => simp
    | some l => by_cases hp : p l = true <;> simp [hp, Option.filter, Nat.add_comm]

theorem leaseCount_mono {p q : Lease → Bool} (h : ∀ l, p l = true → q l = true) (r : Run) :
    r.leaseCount p ≤ r.leaseCount q :=
  Table.weigh_le_weigh fun e _ => Step.leaseCount_le fun l hl hp => ⟨l, hl, h l hp⟩

variable {r : Run}

theorem leaseCount_eq_zero {p : Lease → Bool}
    (h : ∀ k s l, r.steps.find? k = some s → s.lease = some l → p l = false) :
    r.leaseCount p = 0 := by
  refine List.sum_eq_zero fun n hn => ?_
  obtain ⟨e, he, rfl⟩ := List.mem_map.mp hn
  refine if_neg fun hany => ?_
  obtain ⟨l, hl, hp⟩ := (Option.any_eq_true _ _).mp hany
  rw [h e.1 e.2 l ((r.steps.find?_eq_some_iff e.1 e.2).mpr he) hl] at hp
  cases hp

theorem Sheds.leaseCount {holds : Bool} {r' : Run} (h : r.Sheds holds r') (p : Lease → Bool) :
    r'.leaseCount p ≤ r.leaseCount p := by
  obtain ⟨f, hf, hs⟩ := h.steps
  rw [Run.leaseCount, hf]
  exact Table.weigh_mapRows_mono fun k s _ =>
    Step.leaseCount_le fun l hl hp => ⟨l, (hs k s).lease l hl, hp⟩

theorem Created.leaseCount (h : r.Created) (p : Lease → Bool) : r.leaseCount p = 0 := by
  refine leaseCount_eq_zero fun k s l hs hl => ?_
  obtain ⟨n, t, rfl⟩ := h.step hs
  cases hl

end Run

namespace Db

theorem length_environmentLeases (db : Db) (env : EnvironmentID) (now : Time) :
    (db.environmentLeases env now).length = db.leaseCount (ofEnvironment env now) := by
  rw [environmentLeases, List.length_flatMap, leaseCount, Table.weigh]
  congr 1
  refine List.map_congr_left fun e _ => ?_
  split
  · next he =>
    rw [Run.unexpiredLeases, Run.length_filterMap_lease, he]
    unfold ofEnvironment
    simp
  · next he =>
    rw [Run.leaseCount_eq_zero fun _ _ l _ _ => by simp [ofEnvironment, he]]
    rfl

theorem length_sessionLeases (db : Db) (id : SessionID) (now : Time) :
    (db.sessionLeases id now).length = db.leaseCount (ofSession id now) := by
  rw [sessionLeases, List.length_flatMap, leaseCount, Table.weigh]
  congr 1
  refine List.map_congr_left fun e _ => ?_
  rw [← Run.length_filterMap_lease, Run.unexpiredLeases, List.filter_filterMap]
  simp only [Option.filter_filter]
  rfl

theorem leaseCount_mono {sel sel' : EnvironmentID → Lease → Bool}
    (h : ∀ e l, sel e l = true → sel' e l = true) (db : Db) :
    db.leaseCount sel ≤ db.leaseCount sel' :=
  Table.weigh_le_weigh fun e _ => Run.leaseCount_mono (h e.2.environmentID) e.2

/-- A transaction that adds at most `n` leases to its run adds at most `n` leases. -/
theorem leaseCount_putScope {db : Db} {id : RunID} {r : Run} {c : RunScope} {n : Nat}
    {sel sel' : EnvironmentID → Lease → Bool} (hr : db.runs.find? id = some r)
    (hle : ∀ e l, sel e l = true → sel' e l = true)
    (h : c.run.leaseCount (sel c.run.environmentID) ≤ r.leaseCount (sel' r.environmentID) + n) :
    (db.putScope id c).leaseCount sel ≤ db.leaseCount sel' + n := by
  simp only [leaseCount, putScope, Table.modify]
  refine Table.weigh_mapRows_le id fun k r' hm => ?_
  by_cases hk : k = id
  · subst hk
    obtain rfl := Option.mem_unique ((db.runs.find?_eq_some_iff k r').mpr hm) hr
    simpa using h
  · simpa [hk] using Run.leaseCount_mono (hle r'.environmentID) r'

end Db

/-! ### Transactions that grant nothing -/

/-- No lease is added, and time does not go back. -/
structure RunScope.Dwindles (c c' : RunScope) : Prop where
  pinned : c'.run.pinned = c.run.pinned
  ticks : c.sys.ticks ≤ c'.sys.ticks
  leases : ∀ p, c'.run.leaseCount p ≤ c.run.leaseCount p

instance : Framed true RunScope.Dwindles where
  refl _ := ⟨rfl, le_rfl, fun _ => le_rfl⟩
  trans _ _ _ h h' := ⟨h'.pinned.trans h.pinned, h.ticks.trans h'.ticks,
    fun p => (h'.leases p).trans (h.leases p)⟩
  tick _ := ⟨rfl, Nat.le_succ _, fun _ => le_rfl⟩
  draw _ := ⟨rfl, le_rfl, fun _ => le_rfl⟩
  visit _ _ _ := ⟨rfl, le_rfl, fun _ => le_rfl⟩
  write _ _ hs := ⟨hs.pinned, le_rfl, hs.leaseCount⟩

structure Db.Dwindles (db db' : Db) : Prop where
  ticks : db.sys.ticks ≤ db'.sys.ticks
  leases : ∀ sel, db'.leaseCount sel ≤ db.leaseCount sel

theorem Db.Dwindles.trans {db1 db2 db3 : Db} (h : db1.Dwindles db2) (h' : db2.Dwindles db3) :
    db1.Dwindles db3 :=
  ⟨h.ticks.trans h'.ticks, fun sel => (h'.leases sel).trans (h.leases sel)⟩

instance : FramedDb RunScope.Dwindles Db.Dwindles where
  refl _ := ⟨le_rfl, fun _ => le_rfl⟩
  trans _ _ _ h h' := h.trans h'
  elapse _ _ := ⟨Nat.le_add_right _ _, fun _ => le_rfl⟩
  draw _ := ⟨le_rfl, fun _ => le_rfl⟩
  fleet _ _ := ⟨le_rfl, fun _ => le_rfl⟩
  insert _ hi hc := ⟨le_rfl, fun sel => by
    rw [Db.leaseCount, Table.weigh_insert? hi, hc.leaseCount, Nat.add_zero, Db.leaseCount]⟩
  run hr h := ⟨h.ticks, fun sel => by
    refine Db.leaseCount_putScope (n := 0) hr (fun _ _ hs => hs) ?_
    rw [Run.environmentID_of_pinned h.pinned]
    exact h.leases _⟩

/-! ### Claims -/

/-- At most `n` leases are added, all of one session and in one environment. -/
structure Db.Grants (env : EnvironmentID) (id : SessionID) (n : Nat) (db db' : Db) : Prop where
  ticks : db.sys.ticks ≤ db'.sys.ticks
  leases : ∀ sel, db'.leaseCount sel ≤ db.leaseCount sel + n
  others : ∀ sel, (∀ l : Lease, l.sessionID = id → sel env l = false) →
    db'.leaseCount sel ≤ db.leaseCount sel

/-- At most one lease is added, and it is of the session. -/
structure RunScope.Grants (id : SessionID) (c c' : RunScope) : Prop where
  pinned : c'.run.pinned = c.run.pinned
  ticks : c.sys.ticks ≤ c'.sys.ticks
  leases : ∀ p, c'.run.leaseCount p ≤ c.run.leaseCount p + 1
  others : ∀ p, (∀ l : Lease, l.sessionID = id → p l = false) →
    c'.run.leaseCount p ≤ c.run.leaseCount p

namespace RunScope

variable {id : SessionID} {c c1 c' : RunScope}

theorem Dwindles.grants (h : c.Dwindles c') : c.Grants id c' :=
  ⟨h.pinned, h.ticks, fun p => (h.leases p).trans (Nat.le_succ _), fun p _ => h.leases p⟩

theorem Dwindles.trans_grants (h : c.Dwindles c1) (h' : c1.Grants id c') : c.Grants id c' :=
  ⟨h'.pinned.trans h.pinned, h.ticks.trans h'.ticks,
    fun p => (h'.leases p).trans (Nat.add_le_add_right (h.leases p) 1),
    fun p hp => (h'.others p hp).trans (h.leases p)⟩

theorem grants_of_steps {k : StepID} {a : Attempt} {l : Lease}
    (hp : c'.run.pinned = c.run.pinned) (ht : c.sys.ticks ≤ c'.sys.ticks) (hl : l.sessionID = id)
    (hs : c'.run.steps = (c.run.updateStep k (fun s => s.state == .ready) fun s => s.grant a l).steps) :
    c.Grants id c' := by
  refine ⟨hp, ht, fun p => ?_, fun p hfree => ?_⟩
  · rw [Run.leaseCount, hs]
    refine Table.weigh_mapRows_le k fun k' s _ => ?_
    split
    · next hk =>
      rw [if_pos hk.1]
      exact (Step.leaseCount_le_one _ p).trans (Nat.le_add_left 1 _)
    · exact Nat.le_add_right _ _
  · rw [Run.leaseCount, hs]
    refine Table.weigh_mapRows_mono fun k' s _ => Step.leaseCount_le fun l' hl' hp' => ?_
    split at hl'
    · obtain rfl : l = l' := Option.some.inj hl'
      rw [hfree l hl] at hp'
      cases hp'
    · exact ⟨l', hl', hp'⟩

end RunScope

section

variable [Platform]

theorem grantAttempt_grants (session : WorkerSession) (id : StepID) (timeoutMs : Int)
    (c : RunScope) : Commits (grantAttempt session id timeoutMs) c fun _ c' =>
      c.Grants session.sessionID c' := by
  have hstay : c.Grants session.sessionID c := RunScope.Dwindles.grants (refl c)
  simp only [grantAttempt, commits_bind, commits_getRun, commits_ite, commits_pure,
    commits_getStep, commits_note, commits_require, commits_newID,
    commits_clockTimestamp, commits_updateStep, commits_appendRunEvent,
    commits_modifyRun]
  refine ⟨fun _ => hstay, fun _ s _ => ⟨fun _ _ _ _ _ => ?_, fun _ => hstay⟩⟩
  refine RunScope.grants_of_steps ?_ (Nat.le_add_right _ 2) rfl
    (StatusMove.steps_apply .leaveQuota _)
  exact StatusMove.pinned_apply .leaveQuota _

theorem claimAdmitted_grants (session : WorkerSession) (pc : PendingClaim) (ready : List String)
    (timeoutMs : Int) (c : RunScope) :
    Commits (claimAdmitted session pc ready timeoutMs) c fun _ c' =>
      c.Grants session.sessionID c' := by
  simp only [claimAdmitted, commits_bind, commits_getRun]
  cases assignmentInput c.run pc.nodeID with
  | error err => simp
  | ok input =>
    simp only [commits_ite, commits_pure]
    refine ⟨fun _ => RunScope.Dwindles.grants (refl c), fun _ => ⟨fun _ => grantAttempt_grants _ _ _ c,
      fun _ => ⟨fun _ => ?_, fun _ => grantAttempt_grants _ _ _ c⟩⟩⟩
    exact Commits.mono (keeps_failForArtifacts (R := RunScope.Dwindles) _ _ _ c)
      fun _ _ h => h.grants

theorem claimCandidateTx_grants (session : WorkerSession) (now : Time) (ready : List String)
    (pc : PendingClaim) (c : RunScope) :
    Commits (claimCandidateTx session now ready pc) c fun _ c' =>
      c.Grants session.sessionID c' ∧ (pc.environmentID = session.environmentID ∨ c' = c) := by
  simp only [claimCandidateTx, commits_ite, commits_pure, commits_bind,
    commits_getRun]
  refine ⟨fun _ => ⟨RunScope.Dwindles.grants (refl c), .inr trivial⟩, fun henv => ?_⟩
  simp only [ne_eq, not_not] at henv
  refine Commits.mono (keeps_claimIdempotencyAdmissionTx (R := RunScope.Dwindles) pc.stepID
    (c.run.deployment.manifest.taskRetryPolicy c.run.workflowName pc.nodeID) c)
      fun admission c1 h => ?_
  have hhold (timeoutMs : Int) (reason : String) (extra : Payload) :
      Commits (holdCandidate pc session timeoutMs reason extra) c1 fun _ c' =>
        c.Grants session.sessionID c' ∧ (pc.environmentID = session.environmentID ∨ c' = c) :=
    Commits.mono (keeps_holdCandidate (R := RunScope.Dwindles) reason session pc timeoutMs
      extra c1) fun _ _ h' => ⟨h.trans_grants h'.grants, .inl henv⟩
  have hclaim (timeoutMs : Int) :
      Commits (claimAdmitted session pc ready timeoutMs) c1 fun _ c' =>
        c.Grants session.sessionID c' ∧ (pc.environmentID = session.environmentID ∨ c' = c) :=
    (claimAdmitted_grants session pc ready timeoutMs c1).mono
      fun _ _ h' => ⟨h.trans_grants h', .inl henv⟩
  refine ⟨fun _ => hhold _ _ _, fun _ => ?_⟩
  cases admission.1 with
  | none => exact hclaim _
  | some validUntil =>
    simp only [commits_ite]
    exact ⟨fun _ => hhold _ _ _, fun _ => hclaim _⟩

variable {db : Db} {pending : List PendingClaim}

theorem claimLoop_grants (hdb : db.Sound) (hp : db.Tasks pending) (session : WorkerSession)
    (now : Time) (ready : List String) :
    Commits (forEach pending fun pc => onRun pc.runID (claimCandidateTx session now ready pc))
      db fun _ db' => db.Grants session.environmentID session.sessionID pending.length db' := by
  refine Commits.mono (commits_forEach_rest (I := fun rest db' =>
    db.Evolves db' ∧ (∀ pc ∈ rest, pc ∈ pending) ∧ ∃ n, n + rest.length = pending.length ∧
      db.Grants session.environmentID session.sessionID n db') ?_ pending db
    ⟨.refl db, fun _ h => h, 0, Nat.zero_add _, le_rfl, fun _ => le_rfl, fun _ _ => le_rfl⟩) ?_
  · rintro pc rest db1 ⟨he, hsub, n, hn, hg⟩
    rw [commits_onRun]
    intro r hr
    obtain ⟨r', s, hr', henv, hs, hk, hnode⟩ := (hp.evolves he) pc (hsub pc List.mem_cons_self)
    obtain rfl := Option.mem_unique hr hr'
    refine ((claimCandidateTx_leads (c := ⟨pc.runID, r, db1.sys⟩) (he.sound hdb _ r hr) session now
      ready hs hk hnode).and (claimCandidateTx_grants session now ready pc _)).mono ?_
    rintro _ c' ⟨hl, hc, hskip⟩
    refine ⟨he.trans (Db.evolves_putScope hr hl.transacts),
      fun pc' hpc' => hsub pc' (List.mem_cons_of_mem _ hpc'), n + 1, ?_,
      hg.ticks.trans hc.ticks, fun sel => ?_, fun sel hsel => ?_⟩
    · rw [List.length_cons] at hn
      omega
    · refine (Db.leaseCount_putScope (n := 1) hr (fun _ _ h => h) ?_).trans
        (Nat.add_le_add_right (hg.leases sel) 1)
      rw [Run.environmentID_of_pinned hc.pinned]
      exact hc.leases _
    · refine (Db.leaseCount_putScope (n := 0) hr (fun _ _ h => h) ?_).trans (hg.others sel hsel)
      rcases hskip with henv' | rfl
      · rw [Run.environmentID_of_pinned hc.pinned]
        refine hc.others _ fun l hl' => ?_
        rw [henv, henv']
        exact hsel l hl'
      · exact le_rfl
  · rintro _ db' ⟨-, -, n, hn, hg⟩
    obtain rfl : n = pending.length := by simpa using hn
    exact hg

theorem claimLimit_spec (session : WorkerSession) (slots : Nat) (maxConcurrency : Int) (db : Db) :
    Commits (claimLimit session slots maxConcurrency) db fun limit db' =>
      db.Evolves db' ∧ db.Dwindles db' ∧ limit ≤ slots ∧ limit ≤ defaultSlots ∧
        (db.leaseCount (ofEnvironment session.environmentID (Platform.clock db.sys.ticks)) : Int) +
          limit ≤ maxConcurrency := by
  simp only [claimLimit, commits_bind, commits_dbClock, commits_read, commits_pure,
    ← Db.length_environmentLeases]
  have hsame (sys : Sys) (t : Time) : Db.environmentLeases { db with sys := sys }
    session.environmentID t = db.environmentLeases session.environmentID t := rfl
  rw [hsame]
  refine ⟨.of_same rfl rfl, ⟨Nat.le_add_right _ 2, fun _ => le_rfl⟩, ?_, ?_, ?_⟩
  · omega
  · omega
  · omega

/-- What the commit of a claim adds: nothing, or leases that fit under the limit with the ones it
counted when it had taken over the expired ones. -/
def Db.Fills (session : WorkerSession) (slots : Nat) (maxConcurrency : Int) (db db' : Db) : Prop :=
  db.Dwindles db' ∨ ∃ db1 n, db.Dwindles db1 ∧ n ≤ slots ∧ (n : Int) ≤ defaultSlots ∧
    (db1.leaseCount (ofEnvironment session.environmentID (Platform.clock db1.sys.ticks)) : Int) + n ≤
      maxConcurrency ∧ db1.Grants session.environmentID session.sessionID n db'

theorem claimWithinCapacity_fills (hdb : db.Sound) (hp : db.Tasks pending) (session : WorkerSession)
    (slots : Nat) (maxConcurrency : Int) (now : Time) (ready : List String) :
    Commits (claimWithinCapacity session slots maxConcurrency pending now ready) db
      fun _ db' => db.Fills session slots maxConcurrency db' := by
  unfold claimWithinCapacity
  refine (claimLimit_spec session slots maxConcurrency db).bind fun limit db1 h => ?_
  obtain ⟨he, hd, hslots, hdefault, hroom⟩ := h
  rw [commits_ite]
  refine ⟨fun _ => ?_, fun hpos => ?_⟩
  · have hpark : Keeps Db.Dwindles (do
        let parked ← dbClock
        let ids ← Tx.read fun db : Db =>
          (db.runs.rows.filter fun e => e.2.environmentID == session.environmentID).map Prod.fst
        forEach ids fun id => onRun id (parkOnQuota parked)) :=
      keeps_bind (by simp) fun parked => keeps_bind (by simp) fun ids =>
        keeps_forEach fun id => keeps_onRun (by simp) _
    exact (hpark db1).mono fun _ _ h => .inl (hd.trans h)
  · refine Commits.mono (claimLoop_grants (he.sound hdb)
      (show db1.Tasks (pending.take limit.toNat) from
        fun pc hpc => (hp.evolves he) pc (List.mem_of_mem_take hpc)) session now ready) ?_
    intro _ db' hg
    have hlength := List.length_take_le limit.toNat pending
    refine .inr ⟨db, _, refl db, ?_, ?_, ?_, hd.ticks.trans hg.ticks,
      fun sel => (hg.leases sel).trans (Nat.add_le_add_right (hd.leases sel) _),
      fun sel hsel => (hg.others sel hsel).trans (hd.leases sel)⟩
    · omega
    · omega
    · omega

theorem claimCommitTx_fills (hdb : db.Sound) (hp : db.Tasks pending) (session : WorkerSession)
    (slots : Nat) (locked : List RunID) (ready : List String) :
    Commits (claimCommitTx session slots pending locked ready) db fun _ db' =>
      db.Dwindles db' ∨ ∃ a, db.fleet.admissions.find? session.environmentID = some a ∧
        db.Fills session slots (min a.maxConcurrency 10) db' := by
  simp only [claimCommitTx, commits_bind, commits_read, id]
  split
  · simp only [commits_bind, commits_require, commits_dbClock, commits_ite, commits_pure]
    intro _ _ _ _
    have he0 : db.Evolves { db with sys := { db.sys with ticks := db.sys.ticks + 1 } } :=
      .of_same rfl rfl
    have hd0 : db.Dwindles { db with sys := { db.sys with ticks := db.sys.ticks + 1 } } :=
      FramedTx.elapse db 1
    refine ⟨fun _ => ?_, fun _ => .inl hd0⟩
    split
    · simp
    · next a ha =>
      rw [commits_bind]
      refine ((Refines.reconcileExpiredLeasesTx locked _ (he0.sound hdb)).and
        (keeps_reconcileExpiredLeasesTx (D := Db.Dwindles) locked _)).mono fun _ db1 h1 => ?_
      have he1 := he0.trans h1.1
      refine ((Refines.fireDueRetryTimersTx db1 (he1.sound hdb)).and
        (keeps_fireDueRetryTimersTx (D := Db.Dwindles) db1)).bind fun _ db2 h2 => ?_
      have he2 := he1.trans h2.1
      have hd2 : db.Dwindles db2 := hd0.trans (h1.2.trans h2.2)
      refine (claimWithinCapacity_fills (he2.sound hdb) (hp.evolves he2) session slots _ _
        ready).mono ?_
      rintro _ db' (h | ⟨db3, n, hd3, hfill⟩)
      · exact .inl (hd2.trans h)
      · exact .inr ⟨a, ha, .inr ⟨db3, n, hd2.trans hd3, hfill⟩⟩
  · simp

namespace World

theorem commitClaim_fills {w : World} (hw : w.Sound) (index : Nat) (verified : List Bool)
    (locked : List RunID) (ready : List String) :
    w.db.Dwindles (w.commitClaim index verified locked ready).db ∨
      ∃ claim a, w.claims[index]? = some claim ∧
        w.db.fleet.admissions.find? claim.session.environmentID = some a ∧
        w.db.Fills claim.session claim.slots (min a.maxConcurrency 10)
          (w.commitClaim index verified locked ready).db := by
  unfold commitClaim
  split
  · exact .inl (refl _)
  · next claim hclaim =>
    simp only [attempt, transact]
    split
    · next x db' he =>
      have hp := hw.verified (List.mem_of_getElem? hclaim) verified
      rcases claimCommitTx_fills hw.db hp claim.session claim.slots locked ready x db' he with
        h | ⟨a, ha, h⟩
      · exact .inl h
      · exact .inr ⟨claim, a, hclaim, ha, h⟩
    · exact .inl (refl _)

end World

theorem ofEnvironment_mono {env : EnvironmentID} {t t' : Time} (h : t ≤ t') (e : EnvironmentID)
    (l : Lease) (hl : ofEnvironment env t' e l = true) : ofEnvironment env t e l = true := by
  simp only [ofEnvironment, Bool.and_eq_true, decide_eq_true_eq] at hl ⊢
  exact ⟨hl.1, h.trans_lt hl.2⟩

/-- The commit of a claim, whatever claims, sweeps and recoveries came before it, leaves at most
`min max_concurrency 10` unexpired leases in an environment, or no more than there were. -/
theorem claim_within_concurrency (fleet : Fleet) (os : List Operation) (index : Nat)
    (verified : List Bool) (locked : List RunID) (ready : List String) (env : EnvironmentID)
    (a : Admission) (t : Time)
    (ha : (installation.exec (World.initial fleet) os).db.fleet.admissions.find? env = some a)
    (ht : Platform.clock (installation.exec (World.initial fleet)
      (os ++ [.engine (.claimCommit index verified locked ready)])).db.sys.ticks ≤ t) :
    (((installation.exec (World.initial fleet)
      (os ++ [.engine (.claimCommit index verified locked ready)])).db.environmentLeases
        env t).length : Int) ≤ min a.maxConcurrency 10 ∨
    ((installation.exec (World.initial fleet)
      (os ++ [.engine (.claimCommit index verified locked ready)])).db.environmentLeases
        env t).length ≤
      ((installation.exec (World.initial fleet) os).db.environmentLeases env t).length := by
  rw [System.exec_append] at ht ⊢
  have hw := (installation_operates (World.sound_initial fleet) os).2
  generalize installation.exec (World.initial fleet) os = w at ha ht hw ⊢
  simp only [Db.length_environmentLeases]
  rcases World.commitClaim_fills hw index verified locked ready with
    h | ⟨claim, a', -, ha', h | ⟨db1, n, hd, -, -, hroom, hg⟩⟩
  · exact .inr (h.leases _)
  · exact .inr (h.leases _)
  · by_cases henv : claim.session.environmentID = env
    · subst henv
      obtain rfl := Option.mem_unique ha ha'
      -- A lease that has not expired at `t` had not when the claim counted.
      have hcount : db1.leaseCount (ofEnvironment claim.session.environmentID t) ≤
          db1.leaseCount (ofEnvironment claim.session.environmentID
            (Platform.clock db1.sys.ticks)) :=
        db1.leaseCount_mono (ofEnvironment_mono ((Platform.clock_mono hg.ticks).trans ht))
      have hgrant := hg.leases (ofEnvironment claim.session.environmentID t)
      refine .inl (le_trans (Int.ofNat_le.mpr hgrant) ?_)
      omega
    · refine .inr ((hg.others _ fun l _ => ?_).trans (hd.leases _))
      simp [ofEnvironment, henv]

omit [Platform] in
/-- A poll takes two of the ten places of its environment. -/
theorem claim_within_concurrency_poll :
    ∃ a, (Sample.created [.engine (.claimSnapshot Sample.session 2 [])]).db.fleet.admissions.find? 1 =
        some a ∧ a.maxConcurrency = 10 ∧
      ((Sample.created Sample.poll).db.environmentLeases 1 100).length = 2 ∧
      ((((Sample.created Sample.poll).db.environmentLeases 1 100).length : Int) ≤
          min a.maxConcurrency 10 ∨
        ((Sample.created Sample.poll).db.environmentLeases 1 100).length ≤
          ((Sample.created [.engine (.claimSnapshot Sample.session 2 [])]).db.environmentLeases
            1 100).length) := by
  obtain ⟨a, ha, hmax⟩ := (Option.any_eq_true (fun a : Admission => a.maxConcurrency == 10)
    ((Sample.created [.engine (.claimSnapshot Sample.session 2 [])]).db.fleet.admissions.find? 1)).mp
      (by decide +kernel)
  refine ⟨a, ha, beq_iff_eq.mp hmax, by decide +kernel, ?_⟩
  exact @claim_within_concurrency Sample.platform Sample.quartet
    [.engine (.createRun Sample.request), .engine (.claimSnapshot Sample.session 2 [])] 0
    [true, true] [] [] 1 a 100 ha (by decide +kernel)

/-! ### Heartbeats -/

/-- The leases of a session that hold at a time of the new state were held at a time between. -/
structure Db.Lapses (id : SessionID) (db db' : Db) : Prop where
  ticks : db.sys.ticks ≤ db'.sys.ticks
  leases : ∀ t', Platform.clock db'.sys.ticks ≤ t' → ∃ t, Platform.clock db.sys.ticks ≤ t ∧
    db'.leaseCount (ofSession id t') ≤ db.leaseCount (ofSession id t)

omit [Platform] in
theorem ofSession_mono {id : SessionID} {t t' : Time} (h : t ≤ t') (e : EnvironmentID)
    (l : Lease) (hl : ofSession id t' e l = true) : ofSession id t e l = true := by
  simp only [ofSession, Bool.and_eq_true, decide_eq_true_eq] at hl ⊢
  exact ⟨h.trans_lt hl.1, hl.2⟩

theorem Db.Dwindles.lapses {db' : Db} (h : db.Dwindles db') (id : SessionID) : db.Lapses id db' :=
  ⟨h.ticks, fun t' ht => ⟨t', (Platform.clock_mono h.ticks).trans ht, h.leases _⟩⟩

theorem Db.Lapses.trans {id : SessionID} {db1 db2 db3 : Db} (h : db1.Lapses id db2)
    (h' : db2.Lapses id db3) : db1.Lapses id db3 := by
  refine ⟨h.ticks.trans h'.ticks, fun t3 ht3 => ?_⟩
  obtain ⟨t2, ht2, hle⟩ := h'.leases t3 ht3
  obtain ⟨t1, ht1, hle'⟩ := h.leases t2 ht2
  exact ⟨t1, ht1, hle.trans hle'⟩

/-- A renewed lease had not expired when the heartbeat arrived, so it was counted then. -/
theorem heartbeatTx_lapses {k : RunID} {r : Run} (hr : db.runs.find? k = some r) (id : SessionID)
    (session : WorkerSession) (attempt : AttemptID) (epoch : Int) :
    Commits (heartbeatTx session attempt epoch) ⟨k, r, db.sys⟩ fun _ c =>
      db.Lapses id (db.putScope k c) := by
  refine (heartbeatTx_renews _ session attempt epoch).mono ?_
  rintro _ c ⟨hticks, hc⟩
  refine ⟨hticks, fun t' ht' => ⟨Platform.clock db.sys.ticks, le_rfl, ?_⟩⟩
  have hle : Platform.clock db.sys.ticks ≤ t' := (Platform.clock_mono hticks).trans ht'
  refine Db.leaseCount_putScope (n := 0) hr (ofSession_mono hle) ?_
  rcases hc with hc | ⟨j, s, a, l, t, hs, -, -, -, -, hlease, hid, hnow, hc⟩
  · rw [hc]
    exact Run.leaseCount_mono (ofSession_mono hle _) r
  · rw [hc]
    refine Table.weigh_mapRows_mono fun j' s' hm => Step.leaseCount_le fun l' hl' hp => ?_
    split at hl'
    · next hj =>
      subst hj
      obtain rfl := Option.mem_unique ((r.steps.find?_eq_some_iff j' s').mpr hm) hs
      simp only [Step.renewLease, hlease, hid, Option.map_some, if_true, Option.some.injEq] at hl'
      subst hl'
      simp only [ofSession, Bool.and_eq_true, decide_eq_true_eq] at hp ⊢
      exact ⟨l, hlease, hnow, hp.2⟩
    · exact ⟨l', hl', ofSession_mono hle _ l' hp⟩

namespace World

theorem heartbeat_lapses (w : World) (id : SessionID) (session : WorkerSession)
    (attempts : List (AttemptID × Int)) :
    w.db.Lapses id (w.step (.heartbeat session attempts)).db := by
  have hrefl (db : Db) : db.Lapses id db := Db.Dwindles.lapses (refl db) id
  have hall : Commits (heartbeatAll session attempts) w.db fun _ db' => w.db.Lapses id db' := by
    refine commits_forEach (fun item _ db hdb => ?_) w.db (hrefl w.db)
    simp only [commits_bind, commits_read]
    cases db.runOfAttempt? item.1 with
    | none => exact (commits_pure ..).mpr hdb
    | some k =>
      simp only [commits_bind, commits_pure]
      rw [commits_onRun]
      intro r hr
      exact (heartbeatTx_lapses hr id session item.1 item.2).mono fun _ _ h => hdb.trans h
  simp only [step, attempt, transact]
  split
  · next a db' he => exact hall a db' he
  · exact hrefl w.db

/-- Every commit of a claim of the session asks for no more slots than the session has free. -/
def AsksFreeSlots (id : SessionID) (w : World) : Operation → Prop
  | .engine (.claimCommit index _ _ _) => ∀ claim, w.claims[index]? = some claim →
      claim.session.sessionID = id →
      ((w.db.sessionLeases id (Platform.clock w.db.sys.ticks)).length : Int) +
        min (claim.slots : Int) defaultSlots ≤ defaultSlots
  | _ => True

/-- The session holds no more unexpired leases than it has slots, now and later. -/
def WithinSlots (id : SessionID) (w : World) : Prop :=
  ∀ t, Platform.clock w.db.sys.ticks ≤ t →
    (w.db.leaseCount (ofSession id t) : Int) ≤ defaultSlots

variable {id : SessionID} {w : World}

theorem WithinSlots.lapses {w' : World} (hw : w.WithinSlots id) (h : w.db.Lapses id w'.db) :
    w'.WithinSlots id := by
  intro t' ht'
  obtain ⟨t, ht, hle⟩ := h.leases t' ht'
  exact (Int.ofNat_le.mpr hle).trans (hw t ht)

theorem WithinSlots.commitClaim (hs : w.Sound) (hw : w.WithinSlots id) {index : Nat}
    {verified : List Bool} {locked : List RunID} {ready : List String}
    (ho : w.AsksFreeSlots id (.engine (.claimCommit index verified locked ready))) :
    (w.commitClaim index verified locked ready).WithinSlots id := by
  rcases commitClaim_fills hs index verified locked ready with
    h | ⟨claim, a, hclaim, -, h | ⟨db1, n, hd, hslots, hdefault, -, hg⟩⟩
  · exact hw.lapses (h.lapses id)
  · exact hw.lapses (h.lapses id)
  · intro t ht
    have hle : Platform.clock w.db.sys.ticks ≤ t :=
      (Platform.clock_mono (hd.ticks.trans hg.ticks)).trans ht
    have hd := hd.leases (ofSession id t)
    by_cases hid : claim.session.sessionID = id
    · have hfree := ho claim hclaim hid
      rw [Db.length_sessionLeases] at hfree
      have hnow := w.db.leaseCount_mono (@ofSession_mono id _ _ hle)
      have hgrant := hg.leases (ofSession id t)
      omega
    · have hother := hg.others (ofSession id t) fun l hl => by simp [ofSession, hl, hid]
      have := hw t hle
      omega

theorem WithinSlots.operate (hs : w.Sound) (hw : w.WithinSlots id) {o : Operation}
    (ho : w.AsksFreeSlots id o) : (w.operate o).WithinSlots id := by
  by_cases hclaim : ∃ index verified locked ready,
      o = .engine (.claimCommit index verified locked ready)
  · obtain ⟨index, verified, locked, ready, rfl⟩ := hclaim
    exact hw.commitClaim hs ho
  by_cases hbeat : ∃ session attempts, o = .engine (.heartbeat session attempts)
  · obtain ⟨session, attempts, rfl⟩ := hbeat
    exact hw.lapses (w.heartbeat_lapses id session attempts)
  have hd : w.db.Dwindles (w.operate o).db :=
    framed_operate (fun i v l r h => absurd ⟨i, v, l, r, h⟩ hclaim)
      fun s as h => absurd ⟨s, as, h⟩ hbeat
  exact hw.lapses (hd.lapses id)

end World

/-- A session holds at most `DefaultSlots` unexpired leases in every run of the installation in
which each of its claims asks for free slots only. -/
theorem session_within_slots (fleet : Fleet) (os : List Operation) (id : SessionID) (t : Time)
    (hfree : installation.Along (World.AsksFreeSlots id) (World.initial fleet) os)
    (ht : Platform.clock (installation.exec (World.initial fleet) os).db.sys.ticks ≤ t) :
    (((installation.exec (World.initial fleet) os).db.sessionLeases id t).length : Int) ≤
      defaultSlots := by
  have h := installation.invariant (I := fun w => w.Sound ∧ w.WithinSlots id)
    (C := World.AsksFreeSlots id)
    (fun w o hw ho => ⟨(World.operate_operates hw.1 o).2, hw.2.operate hw.1 ho⟩)
    ⟨World.sound_initial fleet, fun t _ => (by decide : (0 : Int) ≤ defaultSlots)⟩ hfree
  rw [Db.length_sessionLeases]
  exact h.2 t ht

end

/-- A session that polls once for its two slots holds two leases. -/
theorem session_within_slots_poll :
    ((Sample.created Sample.poll).db.sessionLeases 1 100).length = 2 ∧
      (((Sample.created Sample.poll).db.sessionLeases 1 100).length : Int) ≤ defaultSlots := by
  refine ⟨by decide +kernel, @session_within_slots Sample.platform Sample.quartet
    (.engine (.createRun Sample.request) :: Sample.poll) 1 100
    ⟨trivial, trivial, fun claim _ _ => ?_, trivial⟩ (by decide +kernel)⟩
  have hnone : ((Sample.created [.engine (.claimSnapshot Sample.session 2 [])]).db.sessionLeases 1
    (Sample.created [.engine (.claimSnapshot Sample.session 2 [])]).db.sys.ticks).length = 0 := by
    decide +kernel
  refine le_trans (Int.add_le_add_right (Int.ofNat_le.mpr hnone.le) _) ?_
  exact (Int.zero_add _).le.trans (min_le_right _ _)

/-- A session that polls twice for its two slots holds four leases. -/
theorem polls_exceed_slots :
    ((Sample.created (Sample.poll ++ Sample.poll)).db.sessionLeases 1
      (Sample.created (Sample.poll ++ Sample.poll)).db.sys.ticks).length = 4 := by
  decide +kernel

end Deadbolt.Execution

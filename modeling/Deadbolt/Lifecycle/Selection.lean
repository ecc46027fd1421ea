import Deadbolt.Execution.Sample
import Deadbolt.Lifecycle.Recovery

/-!
# What the sweeps select

A timer sweep takes the fifty timers that are due longest and tests their guards afterwards: if all
of them are blocked, it fires nothing. The expired-lease query tests the status of the run: a run
that waits for its quota, an approval or a delay while one of its attempts is live is not swept.
-/

namespace Deadbolt.Execution

open Base Contracts Tx

/-! ### Timers -/

/-- The guards of a due timer in the database. -/
def Db.fires (db : Db) (kind : TimerKind) (d : DueTimer) (now : Time) : Bool :=
  (db.runs.find? d.runID).any fun r => (r.steps.find? d.stepID).any fun s =>
    (s.timers.find? fun t => t.id == d.timerID).any fun t =>
      match kind with
      | .retryBackoff => r.retryFires s t now
      | .delay => r.delayFires s t now

section

variable [Platform]

def sweepTimers : TimerKind → DbTx Nat
  | .retryBackoff => fireDueRetryTimersTx
  | .delay => fireDueDelayTimers

omit [Platform] in
/-- A candidate of a sweep fires if and only if its guard passes, and is left alone otherwise. -/
theorem commits_guarded {db : Db} {d : DueTimer} {guard : Run → Step → Timer → Bool}
    {fire : Run → Step → Timer → RunTx Bool}
    (hfire : ∀ r s t c, Commits (fire r s t) c fun hit _ => hit = true) :
    Commits (onRun d.runID (do
      let r ← RunTx.getRun
      match r.steps.find? d.stepID with
      | none => pure false
      | some s =>
        match s.timers.find? fun t => t.id == d.timerID with
        | none => pure false
        | some t =>
          if guard r s t then fire r s t else pure false)) db fun hit db' =>
      (hit = (db.runs.find? d.runID).any fun r => (r.steps.find? d.stepID).any fun s =>
        (s.timers.find? fun t => t.id == d.timerID).any fun t => guard r s t) ∧
      (hit = false → db' = db) := by
  rw [commits_onRun]
  intro r hr
  have hsame : Db.putScope d.runID ⟨d.runID, r, db.sys⟩ db = db := by
    simp only [Db.putScope, Table.modify_self hr]
  simp only [commits_bind, RunTx.commits_getRun, hr, Option.any_some]
  cases hs : r.steps.find? d.stepID with
  | none => simp [hsame]
  | some s =>
    simp only [Option.any_some]
    cases ht : s.timers.find? fun t => t.id == d.timerID with
    | none => simp [hsame]
    | some t =>
      simp only [Option.any_some, commits_ite, commits_pure]
      refine ⟨fun hguard => (hfire r s t _).mono fun hit _ hhit => ?_,
        fun hguard => ⟨by simpa using hguard, fun _ => hsame⟩⟩
      rw [hhit]
      exact ⟨hguard.symm, by simp⟩

theorem fireRetryTimerTx_hits (d : DueTimer) (now : Time) (db : Db) :
    Commits (onRun d.runID (fireRetryTimerTx d.stepID d.timerID now)) db fun hit db' =>
      hit = db.fires .retryBackoff d now ∧ (hit = false → db' = db) := by
  refine commits_guarded fun r s t c => ?_
  simp only [commits_bind, commits_pure]
  exact fun _ _ _ _ _ _ _ _ _ _ _ _ => trivial

theorem fireDelayTimerTx_hits (d : DueTimer) (now : Time) (db : Db) :
    Commits (onRun d.runID (fireDelayTimerTx d.stepID d.timerID now)) db fun hit db' =>
      hit = db.fires .delay d now ∧ (hit = false → db' = db) := by
  refine commits_guarded fun r s t c => ?_
  simp only [commits_bind, commits_pure]
  exact fun _ _ _ _ _ _ _ _ _ _ _ _ _ _ _ _ _ _ => trivial

theorem sweepTimers_counts (kind : TimerKind) (db : Db) :
    Commits (sweepTimers kind) db fun n _ => 0 < n ↔
      ∃ d ∈ (db.dueTimers kind (Platform.clock db.sys.ticks)).take sweepLimit,
        db.fires kind d (Platform.clock (db.sys.ticks + 1)) = true := by
  -- The clock is read twice before the first candidate; a guard reads the tables only.
  cases kind with
  | retryBackoff =>
    simp only [sweepTimers, fireDueRetryTimersTx, commits_bind, commits_dbClock, commits_read,
      commits_ite, commits_pure, id]
    refine ⟨fun hempty => ?_, fun _ => ?_⟩
    · have hnil := List.isEmpty_iff.mp hempty
      rw [show (db.dueTimers .retryBackoff (Platform.clock db.sys.ticks)).take sweepLimit = [] from
        hnil]
      simp
    · exact (commits_foldEach_count (fun d db => fireRetryTimerTx_hits d _ db) 0 _).mono
        fun n _ h => h.2
  | delay =>
    simp only [sweepTimers, fireDueDelayTimers, commits_bind, commits_dbClock, commits_read,
      id]
    exact (commits_foldEach_count (fun d db => fireDelayTimerTx_hits d _ db) 0 _).mono
      fun n _ h => h.2

end

def Sample.fiftyNames : List String :=
  ["d0", "d1", "d2", "d3", "d4", "d5", "d6", "d7", "d8", "d9", "d10", "d11", "d12", "d13", "d14",
   "d15", "d16", "d17", "d18", "d19", "d20", "d21", "d22", "d23", "d24", "d25", "d26", "d27",
   "d28", "d29", "d30", "d31", "d32", "d33", "d34", "d35", "d36", "d37", "d38", "d39", "d40",
   "d41", "d42", "d43", "d44", "d45", "d46", "d47", "d48", "d49"]

def Sample.manyDelays : Fleet :=
  fleet [] [workflow "w" (fiftyNames.map fun n => delayNode n []), workflow "v" [delayNode "d" []]]

def Sample.pausedDelays : List Action :=
  [.createRun request, .pauseRun 0 1, .createRun ⟨1, "v", "l", none, .obj []⟩, .elapse 2000000]

namespace Run

variable {r : Run} {now : Time}

def Lapsed (r : Run) (now : Time) (k : StepID) (a : Attempt) : Prop :=
  ∃ s l, r.steps.find? k = some s ∧ a ∈ s.attempts ∧ a.status.live = true ∧ s.lease = some l ∧
    l.attemptID = a.id ∧ l.expiresAt ≤ now

theorem mem_expiredAttempts {k : StepID} {id : AttemptID} :
    (k, id) ∈ r.expiredAttempts now ↔ r.leaseSweepable = true ∧ ∃ s a,
      r.steps.find? k = some s ∧ a ∈ s.attempts ∧ r.attemptExpired s a now = true ∧ a.id = id := by
  unfold expiredAttempts
  split
  · next h =>
    simp only [h, true_and, List.mem_flatMap, List.mem_map, List.mem_insertionSort,
      List.mem_filter, Prod.mk.injEq]
    constructor
    · rintro ⟨e, he, a, ⟨ha, hexp⟩, hk, hid⟩
      subst hk
      exact ⟨e.2, a, mem_stepsByID he, ha, hexp, hid⟩
    · rintro ⟨s, a, hs, ha, hexp, hid⟩
      refine ⟨(k, s), ?_, a, ⟨ha, hexp⟩, rfl, hid⟩
      exact (List.mem_insertionSort _).mpr ((r.steps.find?_eq_some_iff k s).mp hs)
  · next h => simp [h]

theorem attemptExpired_of_lapsed {s : Step} {a : Attempt} {l : Lease} (ha : a.status.live = true)
    (hl : s.lease = some l) (hid : l.attemptID = a.id) (hexp : l.expiresAt ≤ now) :
    r.attemptExpired s a now = true := by
  have hlive : a.status = .claimed ∨ a.status = .running := by
    cases hs : a.status <;> first | (rw [hs] at ha; cases ha; done) | simp
  rcases hlive with h | h <;>
    simp [attemptExpired, h, hl, hid, hexp, AttemptStatus.live]

theorem attemptExpired_of_overdue {s : Step} {a : Attempt} (ha : a.status.live = true)
    (h : r.overdue now = true) : r.attemptExpired s a now = true := by
  simp [attemptExpired, ha, h]

end Run

/-- The sweeps select every live attempt of the run whose lease has expired, and the run itself when
it is overdue and no lease of it is left. -/
def Db.Swept (db : Db) (id : RunID) (r : Run) (now : Time) : Prop :=
  (∀ k a, r.Lapsed now k a → (id, k, a.id) ∈ db.expiredAttempts now []) ∧
    (r.overdue now = true → r.unexpiredLeases now = [] →
      (∃ k a, (id, k, a) ∈ db.expiredAttempts now []) ∨ id ∈ db.overdueRuns now)

theorem mem_expiredAttempts_db {db : Db} {id : RunID} {r : Run} (hr : db.runs.find? id = some r)
    {now : Time} {k : StepID} {a : AttemptID} :
    (id, k, a) ∈ db.expiredAttempts now [] ↔ (k, a) ∈ r.expiredAttempts now := by
  simp only [Db.expiredAttempts, List.mem_flatMap, List.contains_nil, Bool.false_eq_true, if_false,
    List.mem_map, Prod.mk.injEq]
  constructor
  · rintro ⟨e, he, c, hc, hid, rfl⟩
    subst hid
    obtain rfl := Option.mem_unique (Db.mem_runsByID he) hr
    exact hc
  · intro h
    exact ⟨(id, r), (List.mem_insertionSort _).mpr ((db.runs.find?_eq_some_iff id r).mp hr), (k, a),
      h, rfl, rfl⟩

/-- An open run of every reachable world is swept if and only if its status is one of those the
lease query selects, or none of its live attempts has an expired lease. -/
theorem lease_sweep_selects [Platform] (fleet : Fleet) (os : List Operation) (id : RunID) (r : Run)
    (hr : (installation.exec (World.initial fleet) os).db.runs.find? id = some r)
    (hopen : r.status.closing = false) (now : Time) :
    (installation.exec (World.initial fleet) os).db.Swept id r now ↔
      r.leaseSweepable = true ∨ ∀ k a, ¬ r.Lapsed now k a := by
  obtain ⟨hsound, -⟩ := installation_sound hr
  constructor
  · rintro ⟨hattempts, -⟩
    by_cases hsweep : r.leaseSweepable = true
    · exact .inl hsweep
    · refine .inr fun k a hlapsed => ?_
      have hmem := (mem_expiredAttempts_db hr).mp (hattempts k a hlapsed)
      exact hsweep (Run.mem_expiredAttempts.mp hmem).1
  · intro h
    constructor
    · rintro k a ⟨s, l, hs, ha, hlive, hl, hid, hexp⟩
      rcases h with hsweep | hnone
      · rw [mem_expiredAttempts_db hr, Run.mem_expiredAttempts]
        exact ⟨hsweep, s, a, hs, ha, Run.attemptExpired_of_lapsed hlive hl hid hexp, rfl⟩
      · exact absurd ⟨s, l, hs, ha, hlive, hl, hid, hexp⟩ (hnone k a)
    · intro hdue hleases
      by_cases hlive : r.hasLive = true
      · left
        obtain ⟨k, s, hs, hlive⟩ := (r.anyStep_eq_true _).mp hlive
        obtain ⟨a, ha, hlive⟩ := List.any_eq_true.mp hlive
        obtain ⟨l, hl, hid⟩ := (hsound.steps.find hs).owner a ha hlive
        have hexp : l.expiresAt ≤ now := by
          have hnone := List.filterMap_eq_nil_iff.mp hleases (k, s)
            ((r.steps.find?_eq_some_iff k s).mp hs)
          simpa [hl] using hnone
        rcases h with hsweep | hnone
        · refine ⟨k, a.id, (mem_expiredAttempts_db hr).mpr (Run.mem_expiredAttempts.mpr ?_)⟩
          exact ⟨hsweep, s, a, hs, ha, Run.attemptExpired_of_overdue hlive hdue, rfl⟩
        · exact absurd ⟨s, l, hs, ha, hlive, hl, hid, hexp⟩ (hnone k a)
      · right
        refine List.mem_map.mpr ⟨(id, r), List.mem_filter.mpr ⟨?_, ?_⟩, rfl⟩
        · exact (List.mem_insertionSort _).mpr ((Table.find?_eq_some_iff _ id r).mp hr)
        · simp [Run.overdueSelected, hopen, hdue, hlive]

/-- The first claim of a run, evaluated while its lease holds. -/
theorem lease_sweep_selects_claimed :
    ∃ r, ((@installation Sample.platform).exec (World.initial (Sample.single "safe" none))
        (Sample.claimed.map .engine)).db.runs.find? 0 = some r ∧ r.status.closing = false ∧
      (((@installation Sample.platform).exec (World.initial (Sample.single "safe" none))
        (Sample.claimed.map .engine)).db.Swept 0 r 100 ↔
          r.leaseSweepable = true ∨ ∀ k a, ¬ r.Lapsed 100 k a) := by
  obtain ⟨r, hr, hopen⟩ := (Option.any_eq_true (fun r : Run => !r.status.closing)
    (((@installation Sample.platform).exec (World.initial (Sample.single "safe" none))
      (Sample.claimed.map .engine)).db.runs.find? 0)).mp (by decide +kernel)
  have hopen : r.status.closing = false := by simpa using hopen
  exact ⟨r, hr, hopen, @lease_sweep_selects Sample.platform (Sample.single "safe" none)
    (Sample.claimed.map .engine) 0 r hr hopen 100⟩

def Sample.onePlace : Fleet :=
  { fleet [taskManifest "a" "safe" none, taskManifest "b" "safe" none]
      [workflow "w" [taskNode "a" [], taskNode "b" []]] with
    admissions := table [(1, ⟨1, 2000000, 0⟩)] }

/-- The first task is claimed; the claim of the second one finds the quota exhausted and parks the
run; then the lease expires. -/
def Sample.parkedWhileClaimed : List Action :=
  [.createRun request, .claimSnapshot session 1 [], .claimCommit 0 [true] [] [],
   .claimSnapshot otherSession 1 [], .claimCommit 0 [true] [] [], .elapse 40000000]

/-- The run waits for its quota with a live attempt whose lease has expired, and the query selects
nothing. -/
theorem lapsed_lease_not_selected :
    ((Sample.run Sample.onePlace Sample.parkedWhileClaimed).db.runs.find? 0).any (fun r =>
      r.status == .waiting && r.reasonCode == some "QUOTA_WAIT" &&
        r.anyStep fun s => s.hasLive && s.lease.any fun l => decide (l.expiresAt ≤
          Sample.platform.clock
            (Sample.run Sample.onePlace Sample.parkedWhileClaimed).db.sys.ticks)) = true ∧
    ((Sample.run Sample.onePlace Sample.parkedWhileClaimed).db.expiredAttempts
      (Sample.platform.clock (Sample.run Sample.onePlace Sample.parkedWhileClaimed).db.sys.ticks)
        []).isEmpty = true := by
  decide +kernel

end Deadbolt.Execution

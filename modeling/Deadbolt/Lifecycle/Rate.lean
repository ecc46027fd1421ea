import Deadbolt.Base.Bucket
import Deadbolt.Lifecycle.Creation

/-!
# The rate of run creation

The admission row of an environment is a token bucket of ten tokens that gains five in a second.
The lock of the row is held from the debit to the commit, so the sessions of an environment use
the bucket one after another. A run is dated when it is inserted, after its debit.
-/

namespace Deadbolt.Execution

open Base Contracts

/-! ### Buckets of environments -/

def Admission.bucket (a : Admission) : Bucket Time := ⟨a.createCredit, a.createRateUpdatedAt⟩

namespace Db

def creations (db : Db) (env : EnvironmentID) : List Time :=
  ((db.runs.rows.map fun e => (e.2.environmentID, e.2.createdAt)).filter fun e => e.1 == env).map
    Prod.snd

/-- The bucket of an environment with the creations that it has paid. -/
def ledger (db : Db) (env : EnvironmentID) : Option (Bucket Time) × List Time :=
  ((db.fleet.admissions.find? env).map Admission.bucket, db.creations env)

theorem mem_creations {db : Db} {env : EnvironmentID} {t : Time} (h : t ∈ db.creations env) :
    ∃ id r, db.runs.find? id = some r ∧ r.environmentID = env ∧ r.createdAt = t := by
  simp only [creations, List.mem_map, List.mem_filter, beq_iff_eq] at h
  obtain ⟨e, ⟨⟨row, hrow, rfl⟩, henv⟩, rfl⟩ := h
  exact ⟨row.1, row.2, (db.runs.find?_eq_some_iff _ _).mpr hrow, henv, rfl⟩

theorem ledger_congr {db db' : Db} {env : EnvironmentID} (hruns : db'.runs = db.runs)
    (hrow : db'.fleet.admissions.find? env = db.fleet.admissions.find? env) :
    db'.ledger env = db.ledger env := by
  simp only [ledger, creations, hruns, hrow]

end Db

variable [Platform]

/-- What a commit does to the bucket and the open runs of an environment. -/
structure World.Paces (env : EnvironmentID) (w w' : World) : Prop where
  ledger : Bucket.Step createBucketTime createTokenTime (w.db.ledger env) (w'.db.ledger env)
  room : w.db.nonterminalRuns env ≤ maxNonterminalRuns →
    w'.db.nonterminalRuns env ≤ maxNonterminalRuns

namespace World.Paces

variable {env : EnvironmentID} {w w' : World} {now : Time} {held : Set CreationLock}

omit [Platform] in
theorem of_same (hruns : w'.db.runs = w.db.runs)
    (hrow : w'.db.fleet.admissions.find? env = w.db.fleet.admissions.find? env) :
    w.Paces env w' where
  ledger := by
    rw [Db.ledger_congr hruns hrow]
    exact .stay _
  room h := by
    simp only [Db.nonterminalRuns, hruns]
    exact h

theorem beside (hw : w.Timely) (o : Operation) (env : EnvironmentID) :
    w.Paces env (w.beside o) where
  ledger := by
    have hcreations : (w.beside o).db.creations env = w.db.creations env := by
      unfold Db.creations
      rw [Table.map_rows_congr (f := fun r : Run => (r.environmentID, r.createdAt))
        (w.beside_alike o).keys]
      intro id r r' hr hr'
      obtain ⟨r0, hr0, hpin, -⟩ := World.beside_run hw.sound o hr'
      obtain rfl := Option.mem_unique hr0 hr
      rw [Run.environmentID_of_pinned hpin, Run.createdAt_of_pinned hpin]
    have hledger : (w.beside o).db.ledger env = w.db.ledger env := by
      rw [Db.ledger, hcreations, (w.beside_alike o).admissions, Db.ledger]
    rw [hledger]
    exact .stay _
  room h := (World.beside_nonterminalRuns hw.sound o env).trans h

omit [Platform] in
theorem find?_admitted (w : World) (env env' : EnvironmentID) (now : Time) :
    ((w.admitted env now).db.fleet.admissions.find? env').map Admission.bucket =
      (w.db.fleet.admissions.find? env').map fun a =>
        if env' = env then a.bucket.debit createBucketTime createTokenTime now else a.bucket := by
  have hrow : (w.admitted env now).db.fleet.admissions.find? env' = _ :=
    Table.find?_modify w.db.fleet.admissions env env' _
  rw [hrow, Option.map_map]
  refine Option.map_congr fun a _ => ?_
  rw [Function.comp_apply]
  split <;> rfl

/-- The creations of an environment are not after a debit of its row. -/
theorem past_of_admits (h : Admits env now held w) : ∀ t ∈ w.db.creations env, t ≤ now := by
  intro t ht
  obtain ⟨id, r, hr, henv, rfl⟩ := Db.mem_creations ht
  exact h.past id r hr henv

theorem admitted (h : Admits env now held w) (env' : EnvironmentID) :
    w.Paces env' (w.admitted env now) where
  ledger := by
    by_cases he : env' = env
    · subst he
      obtain ⟨a, ha, hcredit⟩ := h.row
      have hbucket := find?_admitted w env' env' now
      rw [ha, Option.map_some, if_pos rfl] at hbucket
      simp only [Db.ledger, ha, hbucket, Option.map_some]
      exact .spend a.bucket _ now (past_of_admits h) hcredit
    · have hbucket := find?_admitted w env env' now
      simp only [if_neg he] at hbucket
      simp only [Db.ledger, hbucket]
      exact .stay _
  room hroom := hroom

theorem inserted {call : CreateRunCall} {id : RunID} (h : Inserts call id held w w')
    (env : EnvironmentID) : w.Paces env w' := by
  obtain ⟨now, createdAt, r, sys, sys', hadmits, hborn, hlater, -, rfl⟩ := h.row
  have hrows : (w.inserted call now id r sys sys').db.runs.rows = w.db.runs.rows ++ [(id, r)] :=
    Table.rows_put h.free r
  by_cases he : env = call.req.environmentID
  · subst he
    refine ⟨?_, fun _ => ?_⟩
    · obtain ⟨a, ha, hcredit⟩ := hadmits.row
      have hbucket := find?_admitted w call.req.environmentID call.req.environmentID now
      rw [ha, Option.map_some, if_pos rfl] at hbucket
      have hcreations : (w.inserted call now id r sys sys').db.creations call.req.environmentID =
          w.db.creations call.req.environmentID ++ [createdAt] := by
        simp [Db.creations, hrows, hborn.environmentID, hborn.createdAt]
      have hledger : (w.inserted call now id r sys sys').db.ledger call.req.environmentID =
          (some (a.bucket.debit createBucketTime createTokenTime now),
            w.db.creations call.req.environmentID ++ [createdAt]) :=
        Prod.ext hbucket hcreations
      rw [hledger, Db.ledger, ha]
      exact .grant a.bucket _ now createdAt (past_of_admits hadmits) hcredit hlater
    · have hcount : (w.inserted call now id r sys sys').db.nonterminalRuns
          call.req.environmentID ≤ w.db.nonterminalRuns call.req.environmentID + 1 := by
        simp only [Db.nonterminalRuns, hrows, List.filter_append, List.length_append]
        exact Nat.add_le_add_left (List.length_filter_le _ _) _
      exact hcount.trans h.room
  · have hne : call.req.environmentID ≠ env := Ne.symm he
    refine ⟨?_, fun hroom => ?_⟩
    · have hbucket := find?_admitted w call.req.environmentID env now
      simp only [if_neg he] at hbucket
      have hcreations : (w.inserted call now id r sys sys').db.creations env =
          w.db.creations env := by
        simp [Db.creations, hrows, hborn.environmentID, hne]
      have hledger : (w.inserted call now id r sys sys').db.ledger env = w.db.ledger env :=
        Prod.ext hbucket hcreations
      rw [hledger]
      exact .stay _
    · simpa [Db.nonterminalRuns, hrows, hborn.environmentID, hne] using hroom

omit [Platform] in
theorem provisioned {maxConcurrency : Int} (hfree : w.db.fleet.admissions.find? env = none)
    (env' : EnvironmentID) :
    w.Paces env'
      { w.pass 1 with db := Statements.provisioned env maxConcurrency now (w.pass 1).db } := by
  have hrow : (Statements.provisioned env maxConcurrency now (w.pass 1).db).fleet.admissions.find?
      env' = if env' = env then some ⟨maxConcurrency, createBucketTime, now⟩
        else w.db.fleet.admissions.find? env' := Table.find?_put hfree _ env'
  by_cases he : env' = env
  · subst he
    rw [if_pos rfl] at hrow
    refine ⟨?_, fun hroom => hroom⟩
    simp only [Db.ledger, hrow, hfree, Option.map_some, Option.map_none]
    exact .fill now _
  · rw [if_neg he] at hrow
    exact .of_same rfl hrow

theorem ended {call : CreateRunCall} {res : Except EngineError (RunID × Bool)}
    (h : Ended call res held w w') (env : EnvironmentID) : w.Paces env w' := by
  obtain ⟨-, h⟩ := h
  split at h
  · obtain ⟨rfl, -⟩ := h
    exact .of_same rfl rfl
  · match res with
    | .ok (id, replay) => exact .inserted h.2 env
    | .error e =>
      cases h with
      | pass n => exact .of_same rfl rfl
      | spend now h => exact .admitted h env

/-- Every commit paces every environment. -/
theorem post {r : ScheduledRequest} {res : Except CreateRunError CreationResult} (hw : w.Timely)
    (h : r.Post held res w w') (env : EnvironmentID) : w.Paces env w' := by
  match r with
  | .request (.createRun req skipped) =>
    simp only [ScheduledRequest.Post] at h
    split at h
    · obtain ⟨-, rfl⟩ := h
      exact .of_same rfl rfl
    · obtain ⟨txres, written, hended, h⟩ := h
      split at h
      · obtain ⟨-, rfl⟩ := h
        exact .ended hended env
      · obtain ⟨-, rfl⟩ := h
        exact .of_same rfl rfl
  | .request (.operate o) =>
    obtain ⟨-, rfl⟩ := h
    exact .beside hw o env
  | .request (.provision env' maxConcurrency) =>
    simp only [ScheduledRequest.Post] at h
    split at h
    · obtain ⟨-, hfree, now, rfl⟩ := h
      exact .provisioned hfree env
    · obtain rfl := h
      exact .of_same rfl rfl
  | .occurrence o skipped =>
    obtain ⟨txres, written, hended, h⟩ := h
    split at h
    · obtain rfl := h
      exact .ended hended env
    · obtain rfl := h
      exact .of_same rfl rfl

end World.Paces

/-! ### Every interleaving -/

/-- A world whose buckets have paid every run, and whose environments are within the cap. -/
structure World.Paced (w : World) : Prop where
  solvent : ∀ env, Bucket.Solvent createBucketTime createTokenTime (w.db.ledger env)
  room : ∀ env, w.db.nonterminalRuns env ≤ maxNonterminalRuns

omit [Platform] in
theorem World.Paces.paced {w w' : World} (h : ∀ env, w.Paces env w') (hw : w.Paced) : w'.Paced where
  solvent env := (h env).ledger.solvent (by decide) (by decide) (hw.solvent env)
  room env := (h env).room (hw.room env)

omit [Platform] in
def World.empty (fleet : Fleet) : World := .initial { fleet with admissions := Table.empty }

/-- However creations, schedules and the other operations interleave, the runs that an environment
creates within `w` seconds are at most `11 + 5 * w`, and at most a hundred of its runs are open. -/
theorem creations_bounded (fleet : Fleet) (as : List (SessionStep ScheduledRequest))
    (env : EnvironmentID) :
    let w := ((Pool.system ScheduledRequest.program).exec
      (Pool.idle (World.empty fleet)) as).committed
    (∀ start finish : Time, start ≤ finish →
      (Bucket.within start finish (w.db.creations env) : ℚ) ≤
        11 + 5 * ((finish - start : ℚ) / 1000000)) ∧
    w.db.nonterminalRuns env ≤ 100 := by
  intro w
  have hpaced : w.Paced := by
    refine creation.invariant (J := fun w _ => w.Paced)
      (fun hw h hpost => World.Paces.paced (fun env => .post hw hpost env) h)
      (World.timely_initial { fleet with admissions := Table.empty }) ?_ as
    exact ⟨fun _ => rfl, fun _ => Nat.zero_le _⟩
  refine ⟨fun start finish hle => ?_, hpaced.room env⟩
  have hwindow : (Bucket.within start finish (w.db.creations env) : Int) * 200000 ≤
      2000000 + 200000 + (finish - start) :=
    (hpaced.solvent env).window (by decide) (by decide) hle
  have hcast : (Bucket.within start finish (w.db.creations env) : ℚ) * 200000 ≤
      2000000 + 200000 + (finish - start) := by exact_mod_cast hwindow
  linarith

namespace Sample

/-- A clock that stands still but for a fifth of a second after its second reading. -/
@[reducible] def stalled : Platform :=
  { platform with
    clock := fun n => if n < 2 then 0 else 200000
    clock_mono := by
      intro m n h
      split <;> split <;> first | omega | decide }

/-- An environment and eleven calls of `request` with keys of their own. -/
def burst : List ScheduledRequest :=
  .request (.provision 1 10) ::
    ["a", "b", "c", "d", "e", "f", "g", "h", "i", "j", "k"].map fun key =>
      .request (.createRun { request with idempotencyKey := key } 0)

end Sample

omit [Platform] in
/-- Eleven runs of one instant: a call that has paid a fifth of a second ago, and the ten tokens of
a bucket that is full again. -/
theorem eleven_at_once : ∃ as, Bucket.within 200000 200000
    (((Pool.system (@ScheduledRequest.program Sample.stalled)).exec
      (Pool.idle (World.empty (Sample.single "safe" none))) as).committed.db.creations 1) = 11 := by
  obtain ⟨as, has⟩ := Pool.exists_exec_respond (@ScheduledRequest.program Sample.stalled)
    Sample.burst (World.empty (Sample.single "safe" none), [])
  refine ⟨as, (congrArg (fun P => Bucket.within _ _ (P.committed.db.creations 1)) has).trans ?_⟩
  decide +kernel

end Deadbolt.Execution

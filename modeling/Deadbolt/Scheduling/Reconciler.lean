import Mathlib

/-!
# The background sweep

`Reconciler.sweep` (`internal/scheduling/reconciler.go:109-133`) with the hooks that the control
plane installs (`cmd/control-plane/main.go:311-367`) and `EvaluateDue` (`engine.go:82-127`). A step
commits its own transactions, so what it has done stays when it fails. Which steps fail, and when,
is decided by the tenants' data: the steps are arbitrary functions on the state.
-/

namespace Deadbolt.Scheduling

/-- The steps of the two hooks that end their hook if they fail. -/
inductive SweepStep where
  | fireDueDelayTimers | reconcileExpiredLeases | sweepExpiredApprovals
  | reconcileReadyWork | pruneExpiredTaskLogs | collectGarbage
  deriving DecidableEq

/-- What the hooks call, for tenants `τ` with schedules `κ`. -/
structure Jobs (τ κ σ ε : Type) where
  step : SweepStep → τ → σ → Except ε Unit × σ
  /-- The query of `EvaluateDue`. -/
  due : τ → σ → Except ε (List κ)
  evaluateOne : τ → κ → σ → Except ε Unit × σ

inductive Call (τ κ ε : Type) where
  | step (s : SweepStep) (org : τ)
  | evaluateDue (org : τ) (candidates : Except ε (List κ))
  | evaluateOne (org : τ) (schedule : κ)
  deriving DecidableEq

/-- A pass over the tenants: the state, the calls so far, and the heartbeats. -/
structure Pass (τ κ σ ε : Type) where
  state : σ
  calls : List (Call τ κ ε)
  beats : Nat

abbrev Job (τ κ σ ε : Type) := ExceptT ε (StateM (Pass τ κ σ ε))

section

variable {τ κ σ ε : Type}

def Job.call (c : Call τ κ ε) (f : σ → Except ε Unit × σ) : Job τ κ σ ε Unit :=
  ExceptT.mk fun p => ((f p.state).1, { p with state := (f p.state).2, calls := p.calls ++ [c] })

variable (jobs : Jobs τ κ σ ε)

def runStep (s : SweepStep) (org : τ) : Job τ κ σ ε Unit := Job.call (.step s org) (jobs.step s org)

/-- The schedules of the query one after the other; a failure is logged. -/
def evaluateEach (org : τ) : List κ → Job τ κ σ ε Unit
  | [] => pure ()
  | id :: ids => do
    try Job.call (.evaluateOne org id) (jobs.evaluateOne org id)
    catch _ => pure ()
    evaluateEach org ids

/-- `EvaluateDue`. -/
def evaluateDue (org : τ) : Job τ κ σ ε Unit := do
  let p ← get
  let candidates := jobs.due org p.state
  Job.call (.evaluateDue org candidates) fun s => (.ok (), s)
  match candidates with
  | .error e => throw e
  | .ok ids => evaluateEach jobs org ids

/-- The hook of the fast sweep; without a worker engine it evaluates schedules only. -/
def tenantSweep (workerEngine : Bool) (org : τ) : Job τ κ σ ε Unit := do
  if workerEngine then
    runStep jobs .fireDueDelayTimers org
    runStep jobs .reconcileExpiredLeases org
    runStep jobs .sweepExpiredApprovals org
  try evaluateDue jobs org
  catch _ => pure ()

def slowTenantSweep (workerEngine objectStore : Bool) (org : τ) : Job τ κ σ ε Unit := do
  if workerEngine then runStep jobs .reconcileReadyWork org
  runStep jobs .pruneExpiredTaskLogs org
  if objectStore then runStep jobs .collectGarbage org

def eachTenant (hook : τ → Job τ κ σ ε Unit) : List τ → Job τ κ σ ε Unit
  | [] => pure ()
  | org :: orgs => do
    hook org
    eachTenant hook orgs

/-- `Reconciler.sweep` over the tenants that were enumerated. -/
def sweep (hook : τ → Job τ κ σ ε Unit) (heartbeat : Bool) (tenants : List τ) :
    Job τ κ σ ε Unit := do
  eachTenant hook tenants
  if heartbeat then modify fun p => { p with beats := p.beats + 1 }

/-! ### What a job calls -/

/-- The job ends without an error and its calls meet a condition, beside those before it. -/
def Job.Does (x : Job τ κ σ ε Unit) (P : List (Call τ κ ε) → Prop) : Prop :=
  ∀ p, ∃ p', x.run p = (.ok (), p') ∧ p.calls ⊆ p'.calls ∧ P p'.calls

/-- A condition that further calls keep. -/
def Kept (P : List (Call τ κ ε) → Prop) : Prop := ∀ cs cs', cs ⊆ cs' → P cs → P cs'

/-- Some call of the pass has asked for the due schedules of a tenant, and if there was an answer
each of them was evaluated. -/
def Evaluated (org : τ) (cs : List (Call τ κ ε)) : Prop :=
  ∃ candidates, Call.evaluateDue org candidates ∈ cs ∧
    ∀ ids, candidates = .ok ids → ∀ id ∈ ids, Call.evaluateOne org id ∈ cs

theorem kept_mem (c : Call τ κ ε) : Kept (c ∈ ·) := fun _ _ h hc => h hc

theorem kept_evaluated (org : τ) : Kept (Evaluated (κ := κ) (ε := ε) org) := by
  rintro cs cs' h ⟨candidates, hc, hids⟩
  exact ⟨candidates, h hc, fun ids he id hid => h (hids ids he id hid)⟩

variable {P : List (Call τ κ ε) → Prop} {org : τ}

theorem Job.Does.mono {x : Job τ κ σ ε Unit} {Q : List (Call τ κ ε) → Prop} (h : x.Does P)
    (hPQ : ∀ cs, P cs → Q cs) : x.Does Q := fun p => by
  obtain ⟨p', hx, hsub, hP⟩ := h p
  exact ⟨p', hx, hsub, hPQ _ hP⟩

theorem Job.run_seq (x y : Job τ κ σ ε Unit) (p : Pass τ κ σ ε) :
    (x >>= fun _ => y).run p =
      match x.run p with
      | (.ok _, p') => y.run p'
      | (.error e, p') => (.error e, p') := by
  change ExceptT.bindCont (fun _ => y) (x.run p).1 (x.run p).2 = _
  rcases x.run p with ⟨_ | _, p'⟩ <;> rfl

theorem Job.run_tryCatch (x : Job τ κ σ ε Unit) (h : ε → Job τ κ σ ε Unit)
    (p : Pass τ κ σ ε) : (tryCatch x h).run p =
      match x.run p with
      | (.ok a, p') => (.ok a, p')
      | (.error e, p') => (h e).run p' := by
  have hbind (k : Except ε Unit → StateM (Pass τ κ σ ε) (Except ε Unit)) :
      (x.run >>= k) p = k (x.run p).1 (x.run p).2 := rfl
  rw [ExceptT.run_tryCatch, hbind]
  rcases x.run p with ⟨_ | _, p'⟩ <;> rfl

theorem Job.Does.seq {x y : Job τ κ σ ε Unit} {Q : List (Call τ κ ε) → Prop} (hP : Kept P)
    (hx : x.Does P) (hy : y.Does Q) : Job.Does (x >>= fun _ => y) (fun cs => P cs ∧ Q cs) :=
    fun p => by
  obtain ⟨p1, hx, hsub, h1⟩ := hx p
  obtain ⟨p2, hy, hsub', h2⟩ := hy p1
  refine ⟨p2, ?_, fun _ h => hsub' (hsub h), hP _ _ hsub' h1, h2⟩
  rw [Job.run_seq, hx]
  exact hy

theorem Job.does_pure (h : ∀ cs, P cs) : Job.Does (pure () : Job τ κ σ ε Unit) P :=
  fun p => ⟨p, rfl, fun _ h => h, h _⟩

theorem Job.does_logged (c : Call τ κ ε) (f : σ → Except ε Unit × σ) :
    Job.Does (tryCatch (Job.call c f) fun _ => pure ()) (c ∈ ·) := fun p => by
  refine ⟨{ p with state := (f p.state).2, calls := p.calls ++ [c] }, ?_,
    List.subset_append_left _ _, by simp⟩
  have hrun : (Job.call c f).run p =
      ((f p.state).1, { p with state := (f p.state).2, calls := p.calls ++ [c] }) := rfl
  rw [Job.run_tryCatch, hrun]
  cases (f p.state).1 <;> rfl

theorem evaluateEach_does (org : τ) (ids : List κ) :
    (evaluateEach jobs org ids).Does fun cs => ∀ id ∈ ids, Call.evaluateOne org id ∈ cs := by
  induction ids with
  | nil => exact Job.does_pure fun _ _ h => absurd h List.not_mem_nil
  | cons id ids ih =>
    refine ((Job.does_logged (.evaluateOne org id) (jobs.evaluateOne org id)).seq
      (kept_mem _) ih).mono fun cs h => ?_
    simpa using h

/-- The evaluation of a tenant's schedules ends nothing. -/
theorem evaluateDue_logged (org : τ) :
    Job.Does (tryCatch (evaluateDue jobs org) fun _ => pure ()) (Evaluated org) := fun p => by
  cases hdue : jobs.due org p.state with
  | error e =>
    refine ⟨{ p with calls := p.calls ++ [.evaluateDue org (.error e)] }, ?_,
      List.subset_append_left _ _, ⟨.error e, by simp, fun _ h => by cases h⟩⟩
    have hrun : (evaluateDue jobs org).run p =
        (.error e, { p with calls := p.calls ++ [.evaluateDue org (.error e)] }) := by
      change (match jobs.due org p.state with
        | .error e => throw e
        | .ok ids => evaluateEach jobs org ids : Job τ κ σ ε Unit).run
          { p with calls := p.calls ++ [.evaluateDue org (jobs.due org p.state)] } = _
      rw [hdue]
      rfl
    rw [Job.run_tryCatch, hrun]
    rfl
  | ok ids =>
    obtain ⟨p', hrun, hsub, hids⟩ := evaluateEach_does jobs org ids
      { p with calls := p.calls ++ [.evaluateDue org (.ok ids)] }
    refine ⟨p', ?_, fun c hc => hsub (List.mem_append_left _ hc), ⟨.ok ids, hsub (by simp), ?_⟩⟩
    · have hall : (evaluateDue jobs org).run p = (.ok (), p') := by
        change (match jobs.due org p.state with
          | .error e => throw e
          | .ok ids => evaluateEach jobs org ids : Job τ κ σ ε Unit).run
            { p with calls := p.calls ++ [.evaluateDue org (jobs.due org p.state)] } = _
        rw [hdue]
        exact hrun
      rw [Job.run_tryCatch, hall]
    · intro ids' he
      cases he
      exact hids

theorem runStep_does {s : SweepStep} (h : ∀ st, (jobs.step s org st).1.isOk = true) :
    (runStep jobs s org).Does (Call.step s org ∈ ·) := fun p => by
  refine ⟨{ p with state := (jobs.step s org p.state).2, calls := p.calls ++ [.step s org] }, ?_,
    List.subset_append_left _ _, by simp⟩
  have hok := h p.state
  change ((jobs.step s org p.state).1, _) = _
  generalize jobs.step s org p.state = r at hok ⊢
  obtain ⟨_ | _, st⟩ := r
  · cases hok
  · rfl

def FastCalls (workerEngine : Bool) (org : τ) (cs : List (Call τ κ ε)) : Prop :=
  (workerEngine = true → ∀ s ∈ [SweepStep.fireDueDelayTimers, .reconcileExpiredLeases,
    .sweepExpiredApprovals], Call.step s org ∈ cs) ∧ Evaluated org cs

def SlowCalls (workerEngine objectStore : Bool) (org : τ) (cs : List (Call τ κ ε)) : Prop :=
  (workerEngine = true → Call.step .reconcileReadyWork org ∈ cs) ∧
    Call.step .pruneExpiredTaskLogs org ∈ cs ∧
    (objectStore = true → Call.step .collectGarbage org ∈ cs)

theorem tenantSweep_does {workerEngine : Bool} (h : ∀ s st, (jobs.step s org st).1.isOk = true) :
    (tenantSweep jobs workerEngine org).Does (FastCalls workerEngine org) := by
  cases workerEngine with
  | false =>
    refine (evaluateDue_logged jobs org).mono fun cs he => ⟨(absurd · Bool.false_ne_true), he⟩
  | true =>
    refine (((runStep_does jobs (h .fireDueDelayTimers)).seq (kept_mem _)
      ((runStep_does jobs (h .reconcileExpiredLeases)).seq (kept_mem _)
        ((runStep_does jobs (h .sweepExpiredApprovals)).seq (kept_mem _)
          (evaluateDue_logged jobs org))))).mono fun cs hc => ⟨fun _ => ?_, hc.2.2.2⟩
    simp [hc.1, hc.2.1, hc.2.2.1]

theorem slowTenantSweep_does {workerEngine objectStore : Bool}
    (h : ∀ s st, (jobs.step s org st).1.isOk = true) :
    (slowTenantSweep jobs workerEngine objectStore org).Does
      (SlowCalls workerEngine objectStore org) := by
  have hprune := runStep_does jobs (h .pruneExpiredTaskLogs)
  have hwork := runStep_does jobs (h .reconcileReadyWork)
  have hcollect := runStep_does jobs (h .collectGarbage)
  cases workerEngine <;> cases objectStore
  · exact (hprune.seq (kept_mem _) (Job.does_pure fun _ => trivial)).mono fun cs hc => by
      simp [SlowCalls, hc.1]
  · exact (hprune.seq (kept_mem _) hcollect).mono fun cs hc => by simp [SlowCalls, hc.1, hc.2]
  · exact (hwork.seq (kept_mem _) (hprune.seq (kept_mem _) (Job.does_pure fun _ => trivial))).mono
      fun cs hc => by simp [SlowCalls, hc.1, hc.2.1]
  · exact (hwork.seq (kept_mem _) (hprune.seq (kept_mem _) hcollect)).mono fun cs hc => by
      simp [SlowCalls, hc.1, hc.2.1, hc.2.2]

theorem sweep_does {hook : τ → Job τ κ σ ε Unit} {P : τ → List (Call τ κ ε) → Prop}
    (hP : ∀ org, Kept (P org)) (heartbeat : Bool) {tenants : List τ}
    (h : ∀ org ∈ tenants, (hook org).Does (P org)) :
    (sweep hook heartbeat tenants).Does fun cs => ∀ org ∈ tenants, P org cs := by
  have heach : (eachTenant hook tenants).Does fun cs => ∀ org ∈ tenants, P org cs := by
    induction tenants with
    | nil => exact Job.does_pure fun _ _ h => absurd h List.not_mem_nil
    | cons org orgs ih =>
      refine ((h org List.mem_cons_self).seq (hP org)
        (ih fun o ho => h o (List.mem_cons_of_mem _ ho))).mono fun cs hc => ?_
      simpa using hc
  have hbeat : Job.Does (if heartbeat then modify fun p => { p with beats := p.beats + 1 }
      else pure () : Job τ κ σ ε Unit) fun _ => True := by
    intro p
    cases heartbeat
    · exact ⟨p, rfl, fun _ h => h, trivial⟩
    · exact ⟨{ p with beats := p.beats + 1 }, rfl, fun _ h => h, trivial⟩
  have hkept : Kept fun cs => ∀ org ∈ tenants, P org cs :=
    fun cs cs' hsub hc org ho => hP org cs cs' hsub (hc org ho)
  exact (heach.seq hkept hbeat).mono fun cs hc => hc.1

end

namespace Sample

/-- Two tenants with one due schedule each. The evaluation of the first one's schedule fails, and
so do the steps that `broken` names. -/
def jobs (broken : SweepStep → Nat → Bool) : Jobs Nat Nat Unit String where
  step s org st := (if broken s org then .error "step" else .ok (), st)
  due org _ := .ok [org]
  evaluateOne org _ st := (if org = 1 then .error "schedule" else .ok (), st)

end Sample

end Deadbolt.Scheduling

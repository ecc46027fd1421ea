import Deadbolt.Lifecycle.Steps
import Deadbolt.Lifecycle.Terminal

/-!
# Replayed completions

`Complete` commits the outcome of an attempt once. From then on the attempt keeps the session, the
epoch and the digest of that request: an equal request is acknowledged and any other one refused,
and neither writes a row.
-/

namespace Deadbolt.Execution

open Base Contracts Tx RunTx

/-! ### Ended attempts -/

namespace Run

variable {r r1 r2 : Run}

/-- Every attempt that has ended is still there, as it ended. -/
def Retains (r r' : Run) : Prop :=
  ∀ k s a, r.steps.find? k = some s → a ∈ s.attempts → a.status.live = false →
    ∃ s' a', r'.steps.find? k = some s' ∧ a' ∈ s'.attempts ∧ a'.claim = a.claim ∧
      a'.outcome = a.outcome

theorem Retains.of_steps (h : r1.steps = r.steps) : r.Retains r1 :=
  fun _ s a hs ha _ => ⟨s, a, h ▸ hs, ha, rfl, rfl⟩

theorem Retains.trans (h : r.Retains r1) (h' : r1.Retains r2) : r.Retains r2 := by
  intro k s a hs ha hended
  obtain ⟨s1, a1, hs1, ha1, hclaim, hout⟩ := h k s a hs ha hended
  have hstatus : a1.status = a.status := congrArg Prod.fst hout
  obtain ⟨s2, a2, hs2, ha2, hclaim', hout'⟩ := h' k s1 a1 hs1 ha1 (hstatus ▸ hended)
  exact ⟨s2, a2, hs2, ha2, hclaim'.trans hclaim, hout'.trans hout⟩

theorem Retains.of_ages (hk : r.Keeps r1)
    (h : ∀ k s', r1.steps.find? k = some s' → ∃ s, r.steps.find? k = some s ∧
      ∀ a ∈ s.attempts, ∃ a' ∈ s'.attempts, a.Ages a') : r.Retains r1 := by
  intro k s a hs ha hended
  obtain ⟨s', hs', -⟩ := hk k s hs
  obtain ⟨s0, hs0, hages⟩ := h k s' hs'
  obtain rfl := Option.mem_unique hs0 hs
  obtain ⟨a', ha', hage⟩ := hages a ha
  exact ⟨s', a', hs', ha', hage.1, hage.outcome_of_ended hended⟩

theorem Retains.setStep {k : StepID} {s s' : Step} (hf : r.steps.find? k = some s)
    (ha : s'.attempts = s.attempts) : r.Retains (r.setStep k s') := by
  intro j t a ht hmem _
  rw [find?_setStep]
  split
  · next he =>
    subst he
    obtain rfl := Option.mem_unique ht hf
    exact ⟨s', a, by rw [ht]; rfl, ha ▸ hmem, rfl, rfl⟩
  · exact ⟨t, a, ht, hmem, rfl, rfl⟩

theorem retains_failFast (hr : ∀ k s, r.steps.find? k = some s → s.Sound) (id : StepID)
    (reason : String) (actor : Option ActorID) (now closedAt : Time) :
    r.Retains (r.failFast id reason actor now closedAt) := by
  intro k s a hs ha hended
  have hw := Step.winds_failFast (hr k s hs) (k == id) reason actor now closedAt
  obtain ⟨a', ha', hage⟩ := hw.frames.ages ha
  refine ⟨_, a', ?_, ha', hage.1, hage.outcome_of_ended hended⟩
  rw [failFast, steps_setStatus, steps_mapSteps, Table.find?_mapRows, hs]
  rfl

end Run

theorem Step.Transits.ages {r r' : Run} {tr : List Visit} {id : StepID} {s s' : Step}
    (ht : Transits r r' tr id s s') (hs : s.Sound) {a : Attempt} (ha : a ∈ s.attempts) :
    ∃ a' ∈ s'.attempts, a.Ages a' := by
  rcases ht.frames hs with ⟨x, l, now, -, rfl⟩ | hf
  · exact ⟨a, List.mem_append_left _ ha, .refl a⟩
  · exact hf.ages ha

theorem View.Operates.retains {a b : View} (h : a.Operates b) (ha : a.run.Sound) :
    a.run.Retains b.run := by
  induction h with
  | refl => exact .of_steps rfl
  | tail h hc ih =>
    have hs := View.Operates.sound h ha
    refine ih.trans (.of_ages hc.keeps fun k s' hs' => ?_)
    obtain ⟨s, hf, ht⟩ := hc.transits hs hs'
    exact ⟨s, hf, fun a ha => ht.ages (hs.steps.find hf) ha⟩

/-! ### The committed outcome -/

section

variable [Platform]

variable {c : RunScope} {id : StepID} {s : Step} {digest : String} {req : CompleteRequest}

theorem failRunForStepTx_retains (hc : ∀ k s, c.run.steps.find? k = some s → s.Sound) (id : StepID)
    (reason : String) (actor : Option ActorID) :
    Commits (failRunForStepTx id reason actor) c fun _ c' =>
      c.run.Retains c'.run ∧ c'.run.status = .failed := by
  refine (failRunForStepTx_spec id reason actor c).mono ?_
  rintro _ c' ⟨now, closedAt, r', hends, hview⟩
  have hrun : c'.run = r' := congrArg View.run hview
  rw [hrun]
  exact ⟨(Run.retains_failFast hc id reason actor now closedAt).trans (.of_steps hends.steps),
    hends.status⟩

theorem retryOrFailTx_retains (hc : ∀ k s, c.run.steps.find? k = some s → s.Sound)
    (hf : c.run.steps.find? id = some s) (node : String) (failed : FailedAttempt)
    (policy : RetryPolicy) (deadline : Option Time) :
    Commits (retryOrFailTx id node failed policy deadline) c fun _ c' =>
      c.run.Retains c'.run := by
  unfold retryOrFailTx
  refine (scheduleRetryOrHoldTx_spec hf node failed policy deadline).bind ?_
  rintro verdict c1 (⟨⟨code, rfl⟩, s1, hs1, hview⟩ | ⟨hv, -, s1, s2, x, u, hs1, hp, -, hview⟩)
  · have hrun : c1.run = c.run.setStep id s1 := congrArg View.run hview
    obtain ⟨_, rfl⟩ := hs1.eq
    have hretains : c.run.Retains c1.run := hrun ▸ .setStep hf rfl
    have hsound : ∀ k t, c1.run.steps.find? k = some t → t.Sound := by
      intro k t ht
      rw [hrun, Run.find?_setStep] at ht
      split at ht
      · rw [hf] at ht
        have h := hc id s hf
        cases ht
        exact ⟨h.owner, h.leased, h.ids, h.unstarted, h.handoff, h.asked⟩
      · exact hc k t ht
    exact (failRunForStepTx_retains hsound id _ none).mono fun _ _ h => hretains.trans h.1
  · have hrun : c1.run = _ := congrArg View.run hview
    have hretains : c.run.Retains c1.run := by
      have hattempts : s2.attempts = s.attempts := by
        obtain ⟨_, rfl⟩ := hs1.eq
        cases hp <;> rfl
      refine (Run.Retains.setStep hf hattempts).trans (.of_steps ?_)
      rw [hrun, Run.steps_pushEvent, u.steps_apply]
    cases verdict with
    | fail code => exact absurd rfl (hv code)
    | retry => exact (commits_pure ..).mpr hretains
    | hold => exact (commits_pure ..).mpr hretains

/-- What follows a committed outcome leaves it, and a reported cancellation fails the run. -/
theorem afterOutcomeTx_retains {r : Run} (hr : r.Sound) {a : Attempt} {now : Time} {output : Json}
    {res : CompletionResult} (hf : r.steps.find? id = some s) (howns : s.Owns a.id)
    (hlogs : (r.setStep id (s.complete a.id res.outcome.attemptStatus digest
      ((res.error.map TaskError.json).getD .null) now res.outcome.stepState output)).Logs c.run) :
    Commits (afterOutcomeTx id s.nodeID a res) c fun _ c' =>
      c.run.Retains c'.run ∧ (res.outcome = .cancelled → c'.run.status = .failed) := by
  have hcloses : s.Closes (r.retryPolicy s) a.id res.outcome.attemptStatus
      (s.complete a.id res.outcome.attemptStatus digest
        ((res.error.map TaskError.json).getD .null) now res.outcome.stepState output) :=
    .complete (by cases res.outcome <;> rfl) (by cases res.outcome <;> simp [Outcome.stepState])
  have hfind := Run.find?_setStep_self (s.complete a.id res.outcome.attemptStatus digest
    ((res.error.map TaskError.json).getD .null) now res.outcome.stepState output) hf
  rw [← hlogs.steps] at hfind
  have hsound : ∀ k t, c.run.steps.find? k = some t → t.Sound := by
    intro k t ht
    rw [hlogs.steps, Run.find?_setStep] at ht
    split at ht
    · rw [hf] at ht
      cases ht
      exact hcloses.sound (hr.steps.find hf) howns
    · exact hr.steps.find ht
  simp only [afterOutcomeTx, commits_bind, commits_getRun]
  cases hout : res.outcome with
  | succeeded =>
    simp only
    rw [hout] at hlogs hcloses
    have hm : View.Finishes ⟨r, []⟩ ⟨_, [] ++ [⟨.closeAttempt id .succeeded "", r⟩]⟩ :=
      ⟨id, s, _, _, a.id, hf, howns, hcloses, rfl, rfl⟩
    have hl := View.Leads.logs (v := ⟨_, [] ++ [⟨.closeAttempt id .succeeded "", r⟩]⟩) hlogs
    have hc : c.run.Sound := hl.sound (hm.reaches.sound hr)
    exact (advanceAfterStepSuccessTx_leads hc _).mono
      fun _ _ h => ⟨h.1.reaches.operates.retains hc, by simp⟩
  | cancelled => exact (failRunForStepTx_retains hsound id _ none).mono fun _ _ h => ⟨h.1, fun _ => h.2⟩
  | failed => exact (retryOrFailTx_retains hsound hfind _ _ _ _).mono fun _ _ h => ⟨h, by simp⟩
  | timedOut => exact (retryOrFailTx_retains hsound hfind _ _ _ _).mono fun _ _ h => ⟨h, by simp⟩

/-- The step has an attempt that a completion of the session, epoch and digest has ended. A reported
cancellation has failed the run. -/
def Run.Recorded (r : Run) (k : StepID) (id : AttemptID) (session : SessionID) (epoch : Int)
    (digest : String) : Prop :=
  ∃ s a, r.steps.find? k = some s ∧ a ∈ s.attempts ∧ a.id = id ∧ a.sessionID = session ∧
    a.epoch = epoch ∧ a.outcomeDigest = some digest ∧ a.status.live = false ∧
    (a.status = .cancelled → r.status = .failed)

omit [Platform] in
theorem Run.Retains.recorded {r r' : Run} (h : r.Retains r') {k : StepID} {id : AttemptID}
    {session : SessionID} {epoch : Int} (hr : r.Recorded k id session epoch digest)
    (hfailed : r.status = .failed → r'.status = .failed) :
    r'.Recorded k id session epoch digest := by
  obtain ⟨s, a, hs, ha, rfl, rfl, rfl, hdigest, hended, hcancelled⟩ := hr
  obtain ⟨s', a', hs', ha', hclaim, hout⟩ := h k s a hs ha hended
  have hstatus : a'.status = a.status := congrArg Prod.fst hout
  exact ⟨s', a', hs', ha', congrArg Prod.fst hclaim, congrArg (fun x => x.2.2.1) hclaim,
    congrArg (fun x => x.2.2.2.1) hclaim, (congrArg (fun x => x.2.2.1) hout).trans hdigest,
    hstatus ▸ hended, fun hc => hfailed (hcancelled (hstatus ▸ hc))⟩

theorem commitCompletionTx_records (hr : c.run.Sound) {a : Attempt}
    (hf : c.run.steps.find? id = some s) (howns : s.Owns a.id) (ha : a ∈ s.attempts)
    (hid : a.id = req.attemptID) (res : CompletionResult) :
    Commits (commitCompletionTx id s.nodeID a req res) c fun _ c' =>
      c'.run.Recorded id a.id a.sessionID a.epoch req.resultDigest := by
  simp only [commitCompletionTx, commits_bind, commits_note, commits_clockTimestamp,
    commits_updateStep, commits_appendRunEvent, RunScope.run_withRun, RunScope.run_tick,
    RunScope.run_visit]
  rw [Run.updateStep_of_find hf rfl, ← hid]
  intro hslot
  refine Commits.mono (afterOutcomeTx_retains hr hf howns
    (by exact .tail .refl .taskCompleted _ rfl (by simp) hslot)) ?_
  rintro _ c1 ⟨hretains, hcancelled⟩
  refine (settleHoldAfterCompletionTx_leads c1).mono ?_
  rintro _ c2 ⟨hl2, hs2⟩
  refine (settlePauseAfterCompletionTx_leads c2).mono ?_
  rintro _ c3 ⟨hl3, hs3⟩
  have hfailed : c1.run.status = .failed → c3.run.status = .failed :=
    (hl2.trans hl3).reaches.operates.failed
  obtain ⟨s', a', hs', ha', hclaim, hout⟩ := (hretains.trans (.of_steps (hs3.trans hs2))) id _ _
    (Run.find?_setStep_self _ hf) (List.mem_map.mpr ⟨a, ha, if_pos ⟨rfl, rfl⟩⟩)
    (by cases res.outcome <;> rfl)
  have hstatus : a'.status = res.outcome.attemptStatus := congrArg Prod.fst hout
  refine ⟨s', a', hs', ha', congrArg Prod.fst hclaim, congrArg (fun x => x.2.2.1) hclaim,
    congrArg (fun x => x.2.2.2.1) hclaim, congrArg (fun x => x.2.2.1) hout, ?_, ?_⟩
  · rw [hstatus]
    cases res.outcome <;> rfl
  · intro hc
    refine hfailed (hcancelled ?_)
    rw [hstatus] at hc
    cases ho : res.outcome <;> first | rfl | (rw [ho] at hc; cases hc)

/-- A completion leaves everything as it is, or records its outcome in the attempt. -/
theorem completeTx_records (hr : c.run.Sound) (session : WorkerSession) (req : CompleteRequest)
    (lookup : ArtifactLookup) :
    Commits (completeTx session req lookup) c fun _ c' => c' = c ∨
      ∃ row, c.run.attempt? req.attemptID = some row ∧ c'.run.Recorded row.1 req.attemptID
        session.sessionID req.ownershipEpoch req.resultDigest := by
  simp only [completeTx, commits_bind, commits_getRun]
  cases ha : c.run.attempt? req.attemptID with
  | none => simp
  | some row =>
    obtain ⟨hf, hmem, hid⟩ := Run.attempt?_eq_some ha
    simp only [commits_bind, commits_require, commits_ite, commits_fail]
    rintro ⟨hepoch, hsession⟩
    refine ⟨fun _ => ⟨fun _ _ => .inl trivial, fun _ => trivial⟩, fun hlive => ?_⟩
    split
    · simp only [commits_bind, commits_require, commits_clockTimestamp]
      intro hrunning _
      split
      · simp
      · next res _ =>
        refine (commitCompletionTx_records (c := c.tick) hr hf ⟨row.2.2, hmem, rfl, ?_⟩ hmem hid
          res).mono fun _ c' h => .inr ⟨row, rfl, ?_⟩
        · rw [hrunning]
          rfl
        · rwa [hid, hsession, hepoch] at h
    · simp

/-! ### Answers -/

/-- What a request for a recorded attempt is told. -/
theorem completeTx_recorded (hr : c.run.Sound) {row : StepID × Step × Attempt}
    (hrow : c.run.attempt? req.attemptID = some row) {session : SessionID} {epoch : Int}
    (hrec : c.run.Recorded row.1 req.attemptID session epoch digest) (caller : WorkerSession)
    (lookup : ArtifactLookup) :
    completeTx caller req lookup c =
      if epoch = req.ownershipEpoch ∧ session = caller.sessionID then
        if digest = req.resultDigest then .ok ((), c) else .error .resultConflict
      else .error .staleOwnership := by
  obtain ⟨hf, hmem, hid⟩ := Run.attempt?_eq_some hrow
  obtain ⟨s, a, hs, ha, haid, rfl, rfl, hdigest, hended, hcancelled⟩ := hrec
  obtain rfl := Option.mem_unique hf hs
  obtain rfl : row.2.2 = a := (hr.steps.find hf).eq_of_id hmem ha (hid.trans haid.symm)
  have hack : row.2.2.status ≠ .cancelled ∨
      (c.run.status ≠ .cancelling ∧ c.run.status ≠ .cancelled) := by
    by_cases hc : row.2.2.status = .cancelled
    · rw [hcancelled hc]
      exact .inr ⟨nofun, nofun⟩
    · exact .inl hc
  have hread : (completeTx caller req lookup) c = (do
      Tx.require (row.2.2.epoch = req.ownershipEpoch ∧ row.2.2.sessionID = caller.sessionID)
        .staleOwnership
      if row.2.2.outcomeDigest = some req.resultDigest then
        Tx.require (row.2.2.status ≠ .cancelled ∨
          (c.run.status ≠ .cancelling ∧ c.run.status ≠ .cancelled)) .staleOwnership
      else Tx.fail .resultConflict : RunTx Unit) c := by
    simp only [completeTx, getRun, Tx.read, bind, StateT.bind, Except.bind, hrow,
      terminalAttempt, hended, Bool.not_false, if_true]
  rw [hread, hdigest]
  simp only [Tx.require, if_pos hack, Option.some.injEq, bind, StateT.bind]
  split
  · split <;> rfl
  · rfl

namespace World

/-- The answer to a completion: the database it commits, or why it is refused. -/
def complete (w : World) (session : WorkerSession) (req : CompleteRequest)
    (lookup : ArtifactLookup) : Except EngineError Db := do
  req.valid
  match w.db.runOfAttempt? req.attemptID with
  | none => .error .attemptNotFound
  | some id =>
    let committed ← onRun id (completeTx session req lookup) w.db
    return committed.2

/-- The row that requests for the attempt read. -/
def Finds (w : World) (attemptID : AttemptID) (id : RunID) (k : StepID) : Prop :=
  w.db.runOfAttempt? attemptID = some id ∧
    ((w.db.runs.find? id).bind fun r => (r.attempt? attemptID).map Prod.fst) = some k

variable {w : World} {session : WorkerSession} {req : CompleteRequest} {lookup : ArtifactLookup}

variable {id : RunID} {k : StepID}

omit [Platform] in
theorem Finds.row {attemptID : AttemptID} (h : w.Finds attemptID id k) :
    ∃ r row, w.db.runs.find? id = some r ∧ r.attempt? attemptID = some row ∧ row.1 = k := by
  obtain ⟨r, hr, hk⟩ := Option.bind_eq_some_iff.mp h.2
  obtain ⟨row, hrow, hk⟩ := Option.map_eq_some_iff.mp hk
  exact ⟨r, row, hr, hrow, hk⟩

theorem complete_of_invalid {e : EngineError} (hv : req.valid = .error e) :
    w.complete session req lookup = .error e := by
  simp only [complete, hv, bind, Except.bind]

theorem valid_of_complete_ok {db : Db} (h : w.complete session req lookup = .ok db) :
    req.valid = .ok () := by
  cases hv : req.valid with
  | ok => rfl
  | error e =>
    rw [complete_of_invalid hv] at h
    cases h

theorem step_of_complete_ok {db : Db} (h : w.complete session req lookup = .ok db) :
    w.step (.complete session req lookup) = { w with db := db } := by
  have hv := valid_of_complete_ok h
  simp only [complete, hv, bind, Except.bind] at h
  simp only [step, hv, attemptOn]
  cases hid : w.db.runOfAttempt? req.attemptID with
  | none =>
    rw [hid] at h
    cases h
  | some id =>
    rw [hid] at h
    simp only [transact]
    cases hx : onRun id (completeTx session req lookup) w.db with
    | error e =>
      simp only [hx] at h
      cases h
    | ok a =>
      simp only [hx] at h
      cases h
      rfl

/-- A refused completion changes no row. An exhausted history is left to its own transaction. -/
theorem step_of_complete_error {e : EngineError} (h : w.complete session req lookup = .error e) :
    w.step (.complete session req lookup) = w ∨ e = .historyLimitExceeded ∧
      ∃ id, w.step (.complete session req lookup) = { w with exhausted := w.exhausted ++ [id] } := by
  cases hv : req.valid with
  | error e' =>
    left
    simp only [step, hv]
  | ok =>
    simp only [complete, hv, bind, Except.bind] at h
    simp only [step, hv, attemptOn]
    cases hid : w.db.runOfAttempt? req.attemptID with
    | none => exact .inl rfl
    | some id =>
      rw [hid] at h
      simp only [transact]
      cases hx : onRun id (completeTx session req lookup) w.db with
      | ok a =>
        simp only [hx] at h
        cases h
      | error e' =>
        simp only [hx] at h
        cases h
        simp only [onHistoryLimit]
        split
        · next he => exact .inr ⟨he, id, rfl⟩
        · exact .inl rfl

theorem complete_of_finds (hf : w.Finds req.attemptID id k) (hv : req.valid = .ok ()) {r : Run}
    (hr : w.db.runs.find? id = some r) :
    w.complete session req lookup =
      match completeTx session req lookup ⟨id, r, w.db.sys⟩ with
      | .ok (_, c) => .ok (w.db.putScope id c)
      | .error e => .error e := by
  simp only [complete, hv, hf.1, bind, Except.bind, onRun, Tx.zoom, Db.scope?, hr, Option.map_some]
  cases completeTx session req lookup ⟨id, r, w.db.sys⟩ with
  | ok a => rfl
  | error e => rfl

theorem complete_recorded (hf : w.Finds req.attemptID id k) (hv : req.valid = .ok ()) {r : Run}
    (hr : w.db.runs.find? id = some r) (hs : r.Sound) {sessionID : SessionID} {epoch : Int}
    {digest : String} (hrec : r.Recorded k req.attemptID sessionID epoch digest)
    (session : WorkerSession) (lookup : ArtifactLookup) : w.complete session req lookup =
      if epoch = req.ownershipEpoch ∧ sessionID = session.sessionID then
        if digest = req.resultDigest then .ok w.db else .error .resultConflict
      else .error .staleOwnership := by
  obtain ⟨r0, row, hr0, hrow, rfl⟩ := hf.row
  obtain rfl := Option.mem_unique hr0 hr
  rw [complete_of_finds hf hv hr,
    completeTx_recorded (c := ⟨id, r0, w.db.sys⟩) hs hrow hrec]
  have hput : w.db.putScope id ⟨id, r0, w.db.sys⟩ = w.db := by
    simp only [Db.putScope, Table.modify_self hr]
  by_cases howner : epoch = req.ownershipEpoch ∧ sessionID = session.sessionID
  · by_cases hdigest : digest = req.resultDigest
    · simp only [if_pos howner, if_pos hdigest, hput]
    · simp only [if_pos howner, if_neg hdigest]
  · simp only [if_neg howner]

end World

/-! ### Every run -/

theorem recorded_of_complete {fleet : Fleet} {os : List Operation} {id : RunID} {k : StepID}
    {session : WorkerSession} {lookup : ArtifactLookup} {db : Db}
    (hf : (installation.exec (World.initial fleet) os).Finds req.attemptID id k)
    (hok : (installation.exec (World.initial fleet) os).complete session req lookup = .ok db)
    (hnew : db.runs ≠ (installation.exec (World.initial fleet) os).db.runs) :
    ∃ r, (installation.exec (World.initial fleet)
        (os ++ [.engine (.complete session req lookup)])).db.runs.find? id = some r ∧
      r.Recorded k req.attemptID session.sessionID req.ownershipEpoch req.resultDigest := by
  have hdb : (installation.exec (World.initial fleet)
      (os ++ [.engine (.complete session req lookup)])).db = db := by
    rw [System.exec_append]
    exact congrArg World.db (World.step_of_complete_ok hok)
  obtain ⟨r, row, hr, hrow, rfl⟩ := hf.row
  rw [hdb]
  rw [World.complete_of_finds hf (World.valid_of_complete_ok hok) hr] at hok
  cases hx : completeTx session req lookup ⟨id, r, (installation.exec (World.initial fleet) os).db.sys⟩
    with
  | error e =>
    rw [hx] at hok
    cases hok
  | ok a =>
    rw [hx] at hok
    cases hok
    rcases completeTx_records (installation_sound hr).1 session req lookup a.1 a.2 hx with
      hsame | ⟨row', hrow', hrec⟩
    · refine absurd ?_ hnew
      change Table.modify _ id (fun _ => a.2.run) = _
      rw [hsame]
      exact Table.modify_self hr
    · obtain rfl := Option.mem_unique hrow' hrow
      exact ⟨a.2.run, by simp [hr], hrec⟩

/-- A completion that is refused changes no row. Once a completion of an attempt has committed, no
other one commits anything; a well-formed one of the same session, epoch and digest is acknowledged,
and one of another digest refused. -/
theorem completion_commits_once (fleet : Fleet) (os ps : List Operation) (id : RunID) (k : StepID)
    (session session' : WorkerSession) (req req' : CompleteRequest)
    (lookup lookup' : ArtifactLookup) (w w' : World)
    (hw : w = installation.exec (World.initial fleet) os)
    (hw' : w' = installation.exec (World.initial fleet)
      (os ++ [.engine (.complete session req lookup)] ++ ps)) :
    (∀ e, w.complete session req lookup = .error e →
      w.step (.complete session req lookup) = w ∨ e = .historyLimitExceeded ∧
        ∃ id, w.step (.complete session req lookup) =
          { w with exhausted := w.exhausted ++ [id] }) ∧
    ∀ db, w.Finds req.attemptID id k → w.complete session req lookup = .ok db →
      db.runs ≠ w.db.runs → w'.Finds req.attemptID id k → req'.attemptID = req.attemptID →
      (∀ db', w'.complete session' req' lookup' = .ok db' → db' = w'.db) ∧
      (req'.valid = .ok () → session'.sessionID = session.sessionID →
        req'.ownershipEpoch = req.ownershipEpoch → req'.resultDigest = req.resultDigest →
        w'.complete session' req' lookup' = .ok w'.db) ∧
      (req'.resultDigest ≠ req.resultDigest →
        ∃ e, w'.complete session' req' lookup' = .error e) := by
  subst hw
  subst hw'
  refine ⟨fun e he => World.step_of_complete_error he, fun db hf hok hnew hf' hreq => ?_⟩
  obtain ⟨r, hr, hrec⟩ := recorded_of_complete hf hok hnew
  obtain ⟨r', hr', hop⟩ := installation_append ps hr
  have hs := (installation_sound hr).1
  have hrec' : r'.Recorded k req'.attemptID session.sessionID req.ownershipEpoch
      req.resultDigest := by
    rw [hreq]
    exact (hop.retains hs).recorded hrec hop.failed
  rw [← hreq] at hf'
  have hanswer (hv : req'.valid = .ok ()) := World.complete_recorded hf' hv hr'
    (installation_sound hr').1 hrec' session' lookup'
  refine ⟨fun db' hok' => ?_, fun hv hsession hepoch hdigest => ?_, fun hdigest => ?_⟩
  · rw [hanswer (World.valid_of_complete_ok hok')] at hok'
    split at hok'
    · split at hok'
      · cases hok'
        rfl
      · cases hok'
    · cases hok'
  · rw [hanswer hv, if_pos ⟨hepoch.symm, hsession.symm⟩, if_pos hdigest.symm]
  · cases hv : req'.valid with
    | error e => exact ⟨e, World.complete_of_invalid hv⟩
    | ok =>
      rw [hanswer hv, if_neg (Ne.symm hdigest)]
      split
      · exact ⟨_, rfl⟩
      · exact ⟨_, rfl⟩

end

/-- The task succeeds; the worker sends its completion again after a heartbeat. -/
theorem completion_commits_once_started :
    @World.complete Sample.platform ((@installation Sample.platform).exec
      (World.initial (Sample.single "safe" none)) (Sample.started.map .engine ++
        [.engine (.complete Sample.session (Sample.completion 2 .succeeded none) .unavailable)] ++
        [.engine (.heartbeat Sample.session [(2, 1)])])) Sample.session
          (Sample.completion 2 .succeeded none) .unavailable =
      .ok ((@installation Sample.platform).exec (World.initial (Sample.single "safe" none))
        (Sample.started.map .engine ++
          [.engine (.complete Sample.session (Sample.completion 2 .succeeded none) .unavailable)] ++
          [.engine (.heartbeat Sample.session [(2, 1)])])).db := by
  have hcommits : (match @World.complete Sample.platform ((@installation Sample.platform).exec
      (World.initial (Sample.single "safe" none)) (Sample.started.map .engine)) Sample.session
        (Sample.completion 2 .succeeded none) .unavailable with
      | .ok db => (db.runs.find? 0).map Run.lastEventSequence != (((@installation
          Sample.platform).exec (World.initial (Sample.single "safe" none))
            (Sample.started.map .engine)).db.runs.find? 0).map Run.lastEventSequence
      | .error _ => false) = true := by decide +kernel
  split at hcommits
  · next db hdb =>
    refine ((@completion_commits_once Sample.platform (Sample.single "safe" none)
      (Sample.started.map .engine) [.engine (.heartbeat Sample.session [(2, 1)])] 0 1
      Sample.session Sample.session (Sample.completion 2 .succeeded none)
      (Sample.completion 2 .succeeded none) .unavailable .unavailable _ _ rfl rfl).2 db
      ⟨by decide +kernel, by decide +kernel⟩ hdb (fun he => ?_)
      ⟨by decide +kernel, by decide +kernel⟩ rfl).2.1 rfl rfl rfl rfl
    rw [he] at hcommits
    simp at hcommits
  · cases hcommits

end Deadbolt.Execution

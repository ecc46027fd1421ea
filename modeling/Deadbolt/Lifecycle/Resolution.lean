import Deadbolt.Execution.Sample
import Deadbolt.Lifecycle.Steps

/-!
# Reconciliation holds

The cases of a run are only appended, and the verdict of a resolved case is never written again. A
run leaves its hold when the last case is resolved or the run ends; the statements that rewrite the
run status without a look at the cases are kept out by a condition on the trace.
-/

namespace Deadbolt.Execution

open Base Contracts Tx RunTx

/-! ### Cases and approvals stay -/

namespace Step

variable {r : Run} {id : StepID} {s s' : Step}

theorem Closes.lasts {policy : RetryPolicy} {a : AttemptID} {status : AttemptStatus}
    (h : s.Closes policy a status s') : s.Lasts s' := by
  induction h with
  | complete => exact (by simp : s.Sheds true _).lasts
  | lose => exact (by simp : s.Sheds true _).lasts
  | minted _ _ _ _ _ ih => exact ih.trans (by simp : Sheds true _ _).lasts

theorem Parks.lasts {policy : RetryPolicy} {effect : String} {u : StatusMove}
    (h : s.Parks policy effect u s') : s.Lasts s' := by
  cases h <;> exact (by simp : s.Sheds true _).lasts

theorem Moves.lasts {k : Option VisitKind} {u : Option StatusMove} (h : Moves r id s k u s') :
    s.Lasts s' := by
  cases h with
  | grant => exact .of_eq rfl rfl
  | renew => exact .of_eq rfl rfl
  | park _ _ _ hc _ _ hp => exact hc.lasts.trans hp.lasts
  | approve status comment actor now =>
    have h : s.Sheds true (s.decideApproval status comment actor now) := by simp
    exact h.lasts.trans (.of_eq rfl rfl)
  | requestApproval a _ hnone => exact (sheds_requestApproval hnone a : s.Sheds true _).lasts
  | lateApproval a _ hnone => exact (sheds_requestApproval hnone a : s.Sheds true _).lasts
  | _ => exact (by simp : s.Sheds true _).lasts

theorem Unsettles.lasts {k : VisitKind} (h : Unsettles r id s k s') : s.Lasts s' := by
  cases h with
  | finish _ _ hc => exact hc.lasts
  | confirm case actor now result =>
    have hs : s.Sheds true (if s.waitsFor "RECONCILIATION" then
        { s.succeed result with completionSource := some .reconciliation } else s) := by simp
    exact hs.lasts.trans (by simp : Sheds true _ _).lasts
  | retry case actor now timer dueAt =>
    have hs : s.Sheds true (s.parkRetry timer dueAt) := by simp
    exact hs.lasts.trans (by simp : Sheds true _ _).lasts

end Step

namespace Run

variable {r r' : Run} {id : StepID} {s s' : Step}

theorem Lasts.setStep (hf : r.steps.find? id = some s) (h : s.Lasts s') :
    r.Lasts (r.setStep id s') := by
  intro k t ht
  by_cases hk : k = id
  · subst hk
    obtain rfl := Option.mem_unique hf ht
    exact ⟨s', find?_setStep_self s' hf, h⟩
  · exact ⟨t, by rw [find?_setStep, if_neg hk, ht], .of_eq rfl rfl⟩

theorem FailsFrom.lasts {r0 : Run} (h : r.FailsFrom id r0) : r.Lasts r0 := by
  cases h with
  | asFound => exact .of_steps rfl
  | closed hf _ _ hc => exact .setStep hf hc.lasts
  | @expired s hf => exact .setStep hf (by simp : s.Sheds true _).lasts
  | @rejected s hf => exact .setStep hf (by simp : s.Sheds true _).lasts
  | @resolved s hf =>
    exact (Lasts.setStep hf (by simp : s.Sheds true _).lasts).trans
      (sheds_mapSteps (by simp) : Sheds true _ _).lasts

theorem lasts_mapSteps {f : StepID → Step → Step} (hf : ∀ k (s : Step), s.Sheds true (f k s))
    (status : RunStatus) (reason : Option String) :
    r.Lasts ((r.mapSteps f).setStatus status reason) :=
  (sheds_mapSteps hf).lasts.trans (.of_steps rfl)

theorem lasts_failFast (reason : String) (actor : Option ActorID) (now closedAt : Time) :
    r.Lasts (r.failFast id reason actor now closedAt) := by
  have hs (k : StepID) (s : Step) :
      s.Sheds true (s.failFast (k == id) reason actor now closedAt) := by
    unfold Step.failFast
    split
    · exact (((Step.sheds_revokeSiblings now).trans (Step.sheds_failWith reason)).trans
        (Step.sheds_closeOpenCases actor .fail closedAt)).trans Step.sheds_cancelTimers
    · exact (((Step.sheds_revokeSiblings now).trans
        (Step.sheds_closeOpenCases actor .fail closedAt)).trans
          (Step.sheds_cancelOpenWith none)).trans Step.sheds_cancelTimers
  exact lasts_mapSteps hs .failed (some reason)

theorem lasts_cancelAll (actor : Option ActorID) (now graceUntil closedAt : Time) :
    r.Lasts (r.mapSteps fun _ s => s.cancelAll actor now graceUntil closedAt) := by
  refine (sheds_mapSteps fun _ s => ?_ : Sheds true _ _).lasts
  exact ((((Step.sheds_revokeCancelled now graceUntil).trans
    (Step.sheds_cancelOpenWith (some "CANCEL_REQUESTED"))).trans Step.sheds_cancelTimers).trans
      Step.sheds_cancelApproval).trans (Step.sheds_closeOpenCases actor .cancel closedAt)

theorem lasts_failOverdue (closedAt : Time) :
    r.Lasts (r.mapSteps fun _ s => s.failOverdue closedAt) := by
  refine (sheds_mapSteps fun _ s => ?_ : Sheds true _ _).lasts
  exact (Step.sheds_cancelOpen.trans Step.sheds_cancelTimers).trans
    (Step.sheds_closeOpenCases none .fail closedAt)

theorem Closes.lasts {vs : List Visit} {t : EventType} (h : r.Closes vs t r') : r.Lasts r' := by
  cases h with
  | fail vs reason actor now closedAt hf hl =>
    exact (hf.lasts.trans (.of_steps hl.steps)).trans (lasts_failFast reason actor now closedAt)
  | failWithoutSteps closedAt =>
    refine lasts_mapSteps (fun _ s => ?_) _ _
    exact Step.sheds_cancelTimers.trans (Step.sheds_closeOpenCases none .fail closedAt)
  | settleFailed => exact .of_steps rfl
  | settleSucceeded => exact .of_steps rfl
  | cancel actor now graceUntil closedAt =>
    exact (lasts_cancelAll actor now graceUntil closedAt).trans (.of_steps rfl)
  | settleCancelled => exact .of_steps rfl
  | artifactFailure =>
    refine lasts_mapSteps (fun _ s => ?_) _ _
    exact (Step.sheds_ite (Step.sheds_failWith _) (.refl s)).trans Step.sheds_cancelIdle
  | deadlineLost a closedAt hf _ _ hc =>
    exact ((Lasts.setStep hf hc.lasts).trans (lasts_failOverdue closedAt)).trans (.of_steps rfl)
  | deadlineHandoff _ closedAt => exact (lasts_failOverdue closedAt).trans (.of_steps rfl)
  | handoffExhausted =>
    refine lasts_mapSteps (fun _ s => ?_) _ _
    exact (Step.sheds_ite (Step.sheds_failWith _) (.refl s)).trans Step.sheds_cancelIdle
  | historyLimit =>
    exact lasts_mapSteps (fun _ _ => Step.sheds_cancelIdle) _ _

theorem Moves.lasts {tr vs : List Visit} (h : r.Moves tr vs r') : r.Lasts r' := by
  cases h with
  | idle => exact .of_steps rfl
  | event => exact .of_steps rfl
  | checked => exact .of_steps rfl
  | step hf hm => exact (Lasts.setStep hf hm.lasts).trans (.of_steps (StatusMove.steps_follow _ _))
  | status u => exact .of_steps (u.steps_apply r)
  | close hc he => exact hc.lasts.trans (.of_steps he.steps)
  | closeSilent =>
    exact lasts_mapSteps (fun _ _ => Step.sheds_cancelIdle) _ _
  | requestCancel actor now graceUntil closedAt =>
    exact (lasts_cancelAll actor now graceUntil closedAt).trans (.of_steps rfl)

end Run

variable {a b : View}

theorem View.Change.lasts (h : a.Change b) : a.run.Lasts b.run := by
  obtain ⟨r', tr'⟩ := b
  rcases h with (⟨_, h, -⟩ | ⟨_, h, -⟩) | ⟨_, h, -⟩
  · exact h.lasts
  · cases h with
    | step hf hm => exact .setStep hf hm.lasts
  · cases h with
    | status => exact .of_steps rfl
    | step hf hs => exact .setStep hf hs.lasts
    | event => exact .of_steps rfl

theorem View.Change.files (h : a.Change b) : a.run.Files b.run := h.lasts.files

theorem View.Operates.lasts (h : a.Operates b) : a.run.Lasts b.run := by
  induction h with
  | refl => exact .of_steps rfl
  | tail _ hc ih => exact ih.trans hc.lasts

theorem View.Operates.files (h : a.Operates b) : a.run.Files b.run := h.lasts.files

/-! ### Holds end -/

namespace Run

/-- The run waits for an operator. -/
def onHold (r : Run) : Bool := r.status == .waiting && reasonText r.reasonCode == "RECONCILIATION"

/-- Every case of the first run is resolved in the second. -/
def Cleared (r r' : Run) : Prop :=
  ∀ k s, r.steps.find? k = some s → ∃ s', r'.steps.find? k = some s' ∧
    ∀ (i : Nat) (x : Case), s.cases[i]? = some x →
      ∃ x', s'.cases[i]? = some x' ∧ x'.id = x.id ∧ x'.status = .resolved

variable {r r' r'' : Run}

theorem onHold_iff : r.onHold = true ↔ r.status = .waiting ∧ r.reasonCode = some "RECONCILIATION" := by
  simp only [onHold, Bool.and_eq_true, beq_iff_eq]
  refine and_congr_right fun _ => ?_
  cases r.reasonCode <;> simp [reasonText]

theorem Cleared.trans (h : r.Cleared r') (h' : r'.Files r'') : r.Cleared r'' := by
  intro k s hs
  obtain ⟨s', hs', hc⟩ := h k s hs
  obtain ⟨s'', hs'', hf⟩ := h' k s' hs'
  refine ⟨s'', hs'', fun i x hx => ?_⟩
  obtain ⟨x', hx', hid, hst⟩ := hc i x hx
  obtain ⟨x'', hx'', hl⟩ := hf i x' hx'
  exact ⟨x'', hx'', hl.1.trans hid, hl.status hst⟩

theorem Files.cleared (h : r.Files r') (ho : r'.hasOpenCase = false) : r.Cleared r' := by
  intro k s hs
  obtain ⟨s', hs', hf⟩ := h k s hs
  refine ⟨s', hs', fun i x hx => ?_⟩
  obtain ⟨x', hx', hl⟩ := hf i x hx
  refine ⟨x', hx', hl.1, ?_⟩
  cases hst : x'.status with
  | resolved => rfl
  | «open» =>
    have : r'.hasOpenCase = true := (anyStep_eq_true _ _).mpr ⟨k, s', hs', List.any_eq_true.mpr
      ⟨x', List.mem_of_getElem? hx', by simp [hst]⟩⟩
    rw [ho] at this
    cases this

end Run

/-- The visits of statements that rewrite the run status without a look at its cases. -/
def VisitKind.rewrites : VisitKind → Bool
  | .closeAttempt _ status _ => status != .succeeded
  | .openApproval _ | .scheduleDelay _ | .control | .delayWait | .pause | .resume | .settle
  | .artifactFailure _ | .handoffExhausted _ | .historyLimit => true
  | _ => false

/-- The visit does not rewrite the status of a held run with an open case. -/
def Visit.keepsHold (v : Visit) : Bool :=
  !(v.kind.rewrites && v.run.onHold && v.run.hasOpenCase)

namespace StatusMove

/-- The writes that a held run does not match, or that hold it. -/
def sparesHold : StatusMove → Bool
  | hold | handoff | leaveQuota | started | leaveRetry | leaveHandoff | holdDrained => true
  | _ => false

theorem onHold_apply {u : StatusMove} (hu : u.sparesHold = true) {r : Run}
    (h : r.onHold = true) : (u.apply r).onHold = true := by
  obtain ⟨hst, hreason⟩ := Run.onHold_iff.mp h
  cases u with
  | hold =>
    simp only [apply, Run.parkForReconciliation, Run.setStatusIf]
    split
    · rfl
    · exact h
  | _ =>
    simp_all [sparesHold, apply, Run.parkForHandoff, Run.leaveQuota, Run.markStarted,
      Run.leaveRetry, Run.leaveHandoff, Run.setStatusIf, Run.setStatus, Run.onHold_iff,
      RunStatus.active]

end StatusMove

theorem Step.Moves.onHold {r : Run} {id : StepID} {s s' : Step} {k : Option VisitKind}
    {u : Option StatusMove} (hm : Step.Moves r id s k u s') (h : r.onHold = true)
    (hk : ∀ x ∈ k, x.rewrites = false) :
    (StatusMove.follow u (r.setStep id s')).onHold = true := by
  have hspare (u : StatusMove) (hu : u.sparesHold = true) :
      (u.apply (r.setStep id s')).onHold = true := StatusMove.onHold_apply hu h
  cases hm with
  | requestApproval => cases hk _ rfl
  | parkDelay => cases hk _ rfl
  | fireRetry => exact hspare .leaveRetry rfl
  | grant => exact hspare .leaveQuota rfl
  | start => exact hspare .started rfl
  | park _ _ _ _ hfailed =>
    have := hk _ rfl
    simp [VisitKind.rewrites, hfailed.2] at this
  | fence => exact hspare .handoff rfl
  | claimHold => exact hspare .hold rfl
  | readyHandoff => exact hspare .leaveHandoff rfl
  | _ => exact h

theorem Step.hasOpenCase_closeOpenCases (s : Step) (actor : Option ActorID)
    (resolution : CaseResolution) (now : Time) :
    (s.closeOpenCases actor resolution now).hasOpenCase = false := by
  simp only [hasOpenCase, closeOpenCases, List.any_map, List.any_eq_false, Function.comp_apply,
    beq_iff_eq]
  intro c _
  split
  · simp [Case.resolve]
  · assumption

namespace Run

variable {r r' : Run} {id : StepID}

theorem hasOpenCase_mapSteps {f : StepID → Step → Step}
    (hf : ∀ k s, (f k s).hasOpenCase = false) : (r.mapSteps f).hasOpenCase = false := by
  rw [Bool.eq_false_iff]
  intro ho
  obtain ⟨k, s', hs', hopen⟩ := (anyStep_eq_true _ _).mp ho
  rw [mapSteps, Table.find?_mapRows] at hs'
  obtain ⟨s, -, rfl⟩ := Option.map_eq_some_iff.mp hs'
  rw [hf] at hopen
  cases hopen

theorem hasOpenCase_failFast (reason : String) (actor : Option ActorID) (now closedAt : Time) :
    (r.failFast id reason actor now closedAt).hasOpenCase = false := by
  refine hasOpenCase_mapSteps fun k s => ?_
  unfold Step.failFast
  split
  · exact Step.hasOpenCase_closeOpenCases _ actor .fail closedAt
  · simp only [Step.cancelOpenWith]
    split <;> exact Step.hasOpenCase_closeOpenCases _ actor .fail closedAt

/-- An end of a held run either resolves every case or was announced. -/
theorem Closes.hasOpenCase {vs : List Visit} {t : EventType} (h : r.Closes vs t r')
    (hopen : r.status = .waiting) (hvs : ∀ k, ⟨k, r⟩ ∈ vs → k.rewrites = false) :
    r'.hasOpenCase = false := by
  cases h with
  | fail => exact hasOpenCase_failFast _ _ _ _
  | failWithoutSteps closedAt =>
    exact hasOpenCase_mapSteps fun _ _ => Step.hasOpenCase_closeOpenCases _ none .fail closedAt
  | cancel actor now graceUntil closedAt =>
    exact hasOpenCase_mapSteps fun _ _ => Step.hasOpenCase_closeOpenCases _ actor .cancel closedAt
  | settleCancelled _ hs => simp [hopen] at hs
  | deadlineLost _ closedAt =>
    exact hasOpenCase_mapSteps fun _ _ => Step.hasOpenCase_closeOpenCases _ none .fail closedAt
  | deadlineHandoff _ closedAt =>
    exact hasOpenCase_mapSteps fun _ _ => Step.hasOpenCase_closeOpenCases _ none .fail closedAt
  | _ => cases hvs _ (List.mem_singleton.mpr rfl)

/-- A move of a held run with an open case keeps it held, or resolves every case. -/
theorem Moves.onHold {tr vs : List Visit} (h : r.Moves tr vs r') (hold : r.onHold = true)
    (ho : r.hasOpenCase = true) (hvs : ∀ k, ⟨k, r⟩ ∈ vs → k.rewrites = false) :
    r'.onHold = true ∨ r'.hasOpenCase = false := by
  obtain ⟨hst, hreason⟩ := onHold_iff.mp hold
  cases h with
  | idle => exact .inl hold
  | event => exact .inl hold
  | checked => exact .inl hold
  | step hf hm => exact .inl (hm.onHold hold fun x hx => hvs x (by simpa using hx))
  | status u halone hu =>
    cases u with
    | quota => simp [StatusMove.Admissible, hst, RunStatus.active] at hu
    | leaveReconciliation => simp [StatusMove.Admissible, ho] at hu
    | holdDrained => exact .inl rfl
    | pauseDrained => simp [StatusMove.Admissible, hst] at hu
    | clearPause => simp [StatusMove.Admissible, hst, RunStatus.terminal] at hu
    | delayWait | control | pause | resume => cases hvs _ (List.mem_singleton.mpr rfl)
    | _ => cases halone
  | close hc he =>
    right
    rw [← hc.hasOpenCase hst hvs, Run.hasOpenCase, Run.hasOpenCase, Run.anyStep, Run.anyStep, he.steps]
  | closeSilent => cases hvs _ (List.mem_singleton.mpr rfl)
  | requestCancel actor now graceUntil closedAt =>
    exact .inr (hasOpenCase_mapSteps fun _ _ =>
      Step.hasOpenCase_closeOpenCases _ actor .cancel closedAt)

end Run

namespace View

variable {a b : View}

theorem Change.onHold (h : a.Change b) (hold : a.run.onHold = true)
    (ho : a.run.hasOpenCase = true) {vs : List Visit} (htr : b.trace = a.trace ++ vs)
    (hP : ∀ v ∈ vs, v.run = a.run → v.keepsHold = true) :
    b.run.onHold = true ∨ b.run.hasOpenCase = false := by
  obtain ⟨r', tr'⟩ := b
  rcases h with (⟨us, hm, htr'⟩ | ⟨us, hm, -⟩) | ⟨us, hm, -⟩
  · obtain rfl : us = vs := List.append_cancel_left (htr'.symm.trans htr)
    refine hm.onHold hold ho fun k hk => ?_
    have := hP ⟨k, a.run⟩ hk rfl
    simpa [Visit.keepsHold, hold, ho] using this
  · simp only at hm ⊢
    cases hm with
    | step => exact .inl hold
  · simp only at hm ⊢
    cases hm with
    | status => exact .inl rfl
    | step => exact .inl hold
    | event => exact .inl hold

/-- A held run leaves its hold only when every case that it had is resolved. -/
theorem Operates.cleared (h : a.Operates b) (hs : a.run.Sound) (hold : a.run.onHold = true)
    {vs : List Visit} (htr : b.trace = a.trace ++ vs)
    (hP : ∀ v ∈ vs, v.run.id = a.run.id → v.keepsHold = true) (hleft : ¬ b.run.onHold = true) :
    a.run.Cleared b.run := by
  let J (v : View) : Prop := v.run.id = a.run.id ∧
    (v.run.onHold = true ∧ a.run.Files v.run ∨ a.run.Cleared v.run)
  have hJ : J b := by
    refine h.invariant_of_visits (J := J) (P := fun v => v.run.id = a.run.id → v.keepsHold = true)
      ?_ hs htr hP ⟨rfl, .inl ⟨hold, .of_steps rfl⟩⟩
    rintro m n vs - ⟨hid, hm⟩ htr hP hc
    refine ⟨(congrArg Prod.fst hc.pinned).trans hid, ?_⟩
    rcases hm with ⟨hold, hf⟩ | hcl
    · -- A hold without an open case has nothing left to wait for.
      cases ho : m.run.hasOpenCase with
      | false => exact .inr ((hf.cleared ho).trans hc.files)
      | true =>
        rcases hc.onHold hold ho htr (fun v hv hr => hP v hv (by rw [hr, hid])) with hold' | ho'
        · exact .inl ⟨hold', hf.trans hc.files⟩
        · exact .inr ((hf.trans hc.files).cleared ho')
    · exact .inr (hcl.trans hc.files)
  rcases hJ.2 with ⟨hold', -⟩ | hc
  · exact absurd hold' hleft
  · exact hc

end View

/-! ### Resolutions -/

section

variable [Platform]

/-- An accepted resolution found its case `OPEN`. -/
structure Run.Accepts (r : Run) (id : StepID) (case : CaseID) (req : ResolveReconciliationRequest)
    (r' : Run) : Prop where
  found : ∃ (s : Step) (i : Nat) (x : Case), r.steps.find? id = some s ∧ s.cases[i]? = some x ∧
    x.id = case ∧ x.status = .open ∧ x.revision = req.expectedRevision
  case : Run.Resolves id case req.action.resolution req.actorID r r'
  succeeded : req.action = .confirmSucceeded → ∀ s, r.steps.find? id = some s →
    s.waitsFor "RECONCILIATION" = true → ∃ s', r'.steps.find? id = some s' ∧
      s'.state = .succeeded ∧ s'.output = some (req.result.getD .null)
  failed : req.action = .failRun → r'.status = .failed

variable {c : RunScope} {req : ResolveReconciliationRequest} {r : Run} {w : World}

theorem afterLastCaseTx_failed (ha : req.action = .failRun) (hst : c.run.status = .failed) :
    Ensures (afterLastCaseTx req) c fun _ c' => c' = c := by
  simp [afterLastCaseTx, releaseHoldTx, ha, hst]

theorem resolveReconciliationCaseTx_accepts (hv : c.run.Sound) (id : StepID) (case : CaseID)
    (req : ResolveReconciliationRequest) :
    Commits (resolveReconciliationCaseTx id case req) c fun _ c' =>
      c.run.Accepts id case req c'.run := by
  simp only [resolveReconciliationCaseTx, commits_bind, commits_getRun,
    commits_getStep]
  intro s hf
  cases hx : s.cases.find? fun x => x.id == case with
  | none => simp
  | some x =>
    simp only [commits_bind, commits_require, commits_clockTimestamp]
    intro ho hrev _ _ _
    obtain ⟨i, hi⟩ := List.mem_iff_getElem?.mp (List.mem_of_find?_eq_some hx)
    refine (resolveCaseTx_reaches (c := c.tick) hf s.nodeID case (by exact rfl) req _).mono ?_
    rintro _ c1 ⟨hl, h⟩
    have hend : Commits (afterLastCaseTx req) c1 fun _ c' =>
        req.action = .failRun → c'.run.status = .failed := by
      by_cases ha : req.action = .failRun
      · obtain ⟨_, _, he, rfl⟩ := afterLastCaseTx_failed ha (h.failed ha)
        intro _ _ he' _
        rw [he] at he'
        cases he'
        exact h.failed ha
      · exact fun _ _ _ ha' => absurd ha' ha
    refine ((afterLastCaseTx_leads (hl.sound hv) req h.pending h.finished).and hend).mono ?_
    rintro _ c' ⟨⟨hl', -, -, hspares⟩, hfailed⟩
    refine ⟨⟨s, i, x, hf, hi, by simpa using List.find?_some hx, ho, hrev⟩,
      h.case.trans hl'.reaches.operates.files, fun ha t ht hw => ?_, hfailed⟩
    obtain rfl := Option.mem_unique hf ht
    obtain ⟨s1, hs1, hst1, hout1⟩ := h.succeeded ha hw
    obtain ⟨s', hs', hst', hout'⟩ := hspares id s1 hs1 hst1
    exact ⟨s', hs', hst', hout'.trans hout1⟩

/-! ### Progress of a failing resolution -/

omit [Platform] in
theorem Run.hasEventSlot_of_lt {t : EventType} (h : r.lastEventSequence + 1 < maxRunEvents) :
    r.hasEventSlot t = true := by
  simp only [hasEventSlot, Bool.or_eq_true, decide_eq_true_eq]
  omega

theorem closeOpenCasesTx_ensures (actor : Option ActorID) (reason : String)
    (resolution : CaseResolution) (h : c.run.lastEventSequence + 1 < maxRunEvents) :
    Ensures (closeOpenCasesTx actor reason resolution) c fun _ c' =>
      c'.run.hasOpenCase = false ∧ c'.run.lastEventSequence ≤ c.run.lastEventSequence + 1 := by
  have hclosed (now : Time) : (c.run.mapSteps fun _ s =>
      s.closeOpenCases actor resolution now).hasOpenCase = false :=
    Run.hasOpenCase_mapSteps fun _ s => s.hasOpenCase_closeOpenCases actor resolution now
  simp only [closeOpenCasesTx, ensures_bind, ensures_getRun, ensures_clockTimestamp,
    ensures_mapSteps, ensures_ite, ensures_appendRunEvent, ensures_pure]
  exact ⟨fun _ => ⟨Run.hasEventSlot_of_lt (by exact h), hclosed _, le_refl _⟩,
    fun _ => ⟨hclosed _, Nat.le_succ _⟩⟩

theorem closeOpenCasesTx_silent (actor : Option ActorID) (reason : String)
    (resolution : CaseResolution) (ho : c.run.hasOpenCase = false) :
    Ensures (closeOpenCasesTx actor reason resolution) c fun _ c' =>
      c'.run.lastEventSequence = c.run.lastEventSequence := by
  simp [closeOpenCasesTx, ho]

theorem failRunForStepTx_ensures (id : StepID) (reason : String) (actor : Option ActorID)
    (ho : c.run.hasOpenCase = false) (h : c.run.lastEventSequence + 1 < maxRunEvents) :
    Ensures (failRunForStepTx id reason actor) c fun _ c' =>
      c'.run.lastEventSequence ≤ c.run.lastEventSequence + 1 := by
  -- The attempts are revoked and the step is failed, which opens no case.
  have hopen (now : Time) : ((c.run.mapSteps fun _ s => s.revokeSiblings now).updateStep id
      (fun _ => true) fun s => s.failWith reason).hasOpenCase = false := by
    rw [Bool.eq_false_iff, ne_eq]
    intro h'
    have h1 := (Run.sheds_updateStep id fun s => Step.sheds_failWith reason).hasOpenCase h'
    have h2 := (Run.sheds_mapSteps fun _ s => Step.sheds_revokeSiblings now).hasOpenCase h1
    rw [ho] at h2
    cases h2
  simp only [failRunForStepTx, ensures_bind, ensures_note, ensures_getRun,
    ensures_clockTimestamp, ensures_mapSteps, ensures_updateStep]
  refine (closeOpenCasesTx_silent actor reason .fail (hopen _)).mono fun _ c1 hlast => ?_
  have hlast : c1.run.lastEventSequence = c.run.lastEventSequence := hlast
  simp only [ensures_modifyRun, ensures_appendRunEvent]
  refine ⟨Run.hasEventSlot_of_lt ?_, ?_⟩
  · change c1.run.lastEventSequence + 1 < maxRunEvents
    omega
  · change c1.run.lastEventSequence + 1 ≤ _
    omega

theorem resolveCaseFailTx_ensures {id : StepID} {s : Step} {case : CaseID}
    (hf : c.run.steps.find? id = some s) (hc : s.Holds case) (reason : String) (actor : ActorID)
    (hroom : c.run.lastEventSequence + 3 < maxRunEvents) :
    Ensures (resolveCaseFailTx id case reason actor) c fun _ _ => True := by
  have hmark : Ensures (markCaseResolvedTx id case .fail actor) c fun _ c' =>
      c'.run.lastEventSequence = c.run.lastEventSequence := by
    obtain ⟨x, hx, hid, ho⟩ := hc
    simp only [markCaseResolvedTx, ensures_bind, ensures_clockTimestamp,
      ensures_getStep, ensures_require, ensures_updateStep, ensures_pure]
    exact ⟨s, hf, List.any_eq_true.mpr ⟨x, hx, by simp [hid, ho]⟩, rfl⟩
  unfold resolveCaseFailTx
  refine hmark.bind fun _ c1 h1 => ?_
  refine (closeOpenCasesTx_ensures _ _ .fail (by omega)).bind fun _ c2 h => ?_
  obtain ⟨ho2, h2⟩ := h
  refine (failRunForStepTx_ensures id _ _ ho2 (by omega)).bind fun _ c3 h3 => ?_
  rw [ensures_appendRunEvent]
  exact ⟨Run.hasEventSlot_of_lt (by omega), trivial⟩

/-- The request names an open case of the step with its current revision, and the run can still
be resolved. -/
structure Run.Resolvable (r : Run) (now : Time) (id : StepID) (case : CaseID)
    (req : ResolveReconciliationRequest) : Prop where
  row : ∃ s x, r.steps.find? id = some s ∧ (s.cases.find? fun x => x.id == case) = some x ∧
    x.status = .open ∧ x.revision = req.expectedRevision
  unended : r.status.terminal = false
  due : r.overdue now = false

theorem resolveReconciliationCaseTx_ensures (hv : c.run.Sound) {id : StepID} {case : CaseID}
    (ha : req.action = .failRun) (h : c.run.Resolvable (Platform.clock c.sys.ticks) id case req)
    (hpolicy : ∀ s, c.run.steps.find? id = some s →
      isValidRecoveryPolicy (c.run.retryPolicy s).recovery = true)
    (hroom : c.run.lastEventSequence + 3 < maxRunEvents) :
    Ensures (resolveReconciliationCaseTx id case req) c fun _ c' =>
      c.run.Accepts id case req c'.run := by
  obtain ⟨s, x, hf, hx, ho, hrev⟩ := h.row
  have hholds : s.Holds case :=
    ⟨x, List.mem_of_find?_eq_some hx, by simpa using List.find?_some hx, ho⟩
  have htotal : Ensures (resolveReconciliationCaseTx id case req) c fun _ _ => True := by
    simp only [resolveReconciliationCaseTx, ensures_bind, ensures_getRun,
      ensures_getStep]
    refine ⟨s, hf, ?_⟩
    rw [hx]
    simp only [ensures_bind, ensures_require, ensures_clockTimestamp]
    refine ⟨ho, hrev, h.unended, h.due, hpolicy s hf, ?_⟩
    have hfail : Ensures (resolveCaseTx id s.nodeID case
        (c.run.deployment.manifest.taskRetryPolicy c.run.workflowName s.nodeID) req
          (Platform.clock c.sys.ticks)) c.tick fun _ _ => True := by
      rw [resolveCaseTx, ha]
      exact resolveCaseFailTx_ensures (c := c.tick) hf hholds req.reason req.actorID hroom
    refine (hfail.and_commits (resolveCaseTx_reaches (c := c.tick) hf s.nodeID case (by exact rfl) req
      _)).mono fun _ c1 h1 => ?_
    exact (afterLastCaseTx_failed ha (h1.2.2.failed ha)).mono fun _ _ _ => trivial
  exact (htotal.and_commits (resolveReconciliationCaseTx_accepts hv id case req)).mono
    fun _ _ h => h.2

/-! ### Runs of the installation -/

/-- The run and step of an accepted request. -/
def World.accepts (w : World) (caseID : CaseID) (req : ResolveReconciliationRequest) :
    Option (RunID × StepID) :=
  match req.valid, w.db.stepOfCase? caseID with
  | .ok (), some (id, stepID) =>
    match onRun id (resolveReconciliationCaseTx stepID caseID req) w.db with
    | .ok _ => some (id, stepID)
    | .error _ => none
  | _, _ => none

omit [Platform] in
theorem World.attempt_of_ensures {α : Type} {x : DbTx α} {P : Db → Prop}
    (h : Ensures x w.db fun _ db => P db) : P (w.attempt x).db := by
  obtain ⟨a, db, he, h⟩ := h
  simpa only [attempt, transact, he] using h

theorem World.resolve_of_ensures {caseID : CaseID} {id : RunID} {k : StepID} {Q : Run → Prop}
    (hvalid : req.valid = .ok ()) (hcase : w.db.stepOfCase? caseID = some (id, k))
    (hr : w.db.runs.find? id = some r)
    (h : Ensures (resolveReconciliationCaseTx k caseID req) ⟨id, r, w.db.sys⟩
      fun _ c' => Q c'.run) : ∃ r', (w.resolve caseID req).db.runs.find? id = some r' ∧ Q r' := by
  simp only [resolve, hvalid, hcase]
  refine attempt_of_ensures (P := fun db => ∃ r', db.runs.find? id = some r' ∧ Q r') ?_
  rw [ensures_onRun]
  exact ⟨r, hr, h.mono fun _ c hc => ⟨c.run, by simp [hr], hc⟩⟩

theorem World.resolve_of_accepts (hw : w.Sound) {caseID : CaseID} {id : RunID} {k : StepID}
    (ha : w.accepts caseID req = some (id, k)) (hr : w.db.runs.find? id = some r) :
    ∃ r', (w.resolve caseID req).db.runs.find? id = some r' ∧ r.Accepts k caseID req r' := by
  unfold accepts at ha
  split at ha
  · next id' k' hvalid hcase =>
    split at ha
    · next a he =>
      cases ha
      have hon : Ensures (onRun id (resolveReconciliationCaseTx k caseID req)) w.db
          fun _ _ => True := ⟨a.1, a.2, he, trivial⟩
      obtain ⟨r', hr', h⟩ := (ensures_onRun id _ w.db _).mp hon
      obtain rfl := Option.mem_unique hr hr'
      refine resolve_of_ensures hvalid hcase hr ?_
      exact (h.and_commits (resolveReconciliationCaseTx_accepts (hw.db id r hr) k caseID req)).mono
        fun _ _ h => h.2
    · cases ha
  · cases ha

theorem exec_resolveCase (w : World) (caseID : CaseID) (req : ResolveReconciliationRequest) :
    installation.exec w [.engine (.resolveCase caseID req)] = w.resolve caseID req := by
  rw [exec_engine, World.step]

/-- The cases of a run are resolved once: a resolved case keeps its verdict ever after, an accepted
request found its case `OPEN`, and a held run leaves its hold only with all of its cases resolved. -/
theorem cases_resolved_once (fleet : Fleet) (os : List Operation) (id : RunID) (r : Run)
    (hr : (installation.exec (World.initial fleet) os).db.runs.find? id = some r) :
    (∀ ps r', (installation.exec (World.initial fleet) (os ++ ps)).db.runs.find? id = some r' →
      r.Files r' ∧ (r.onHold = true → ¬ r'.onHold = true →
        (∀ v ∈ (installation.exec (World.initial fleet) (os ++ ps)).db.sys.trace.drop
          (installation.exec (World.initial fleet) os).db.sys.trace.length,
            v.run.id = id → v.keepsHold = true) → r.Cleared r')) ∧
    ∀ caseID req k, (installation.exec (World.initial fleet) os).accepts caseID req = some (id, k) →
      ∃ r', (installation.exec (World.initial fleet)
          (os ++ [.engine (.resolveCase caseID req)])).db.runs.find? id = some r' ∧
        r.Accepts k caseID req r' := by
  obtain ⟨hs, hid⟩ := installation_sound hr
  refine ⟨fun ps r' hr' => ?_, fun caseID req k ha => ?_⟩
  · obtain ⟨r'', hr'', hop⟩ := installation_append ps hr
    obtain rfl := Option.mem_unique hr' hr''
    refine ⟨hop.files, fun hold hleft hP => ?_⟩
    obtain ⟨vs, hvs⟩ := hop.trace
    have hvs : (installation.exec (World.initial fleet) (os ++ ps)).db.sys.trace =
      (installation.exec (World.initial fleet) os).db.sys.trace ++ vs := hvs
    rw [hvs, List.drop_left] at hP
    exact hop.cleared hs hold hvs (by rw [hid]; exact hP) hleft
  · rw [System.exec_append, exec_resolveCase]
    exact World.resolve_of_accepts (installation_operates (World.sound_initial fleet) os).2 ha hr

end

def Sample.resolution (action : ResolveAction) : ResolveReconciliationRequest :=
  { action, evidence := "e", reason := "r", result := some (.num 7), expectedRevision := 1
    actorID := 1 }

/-- The task of a run with one task is held after a failure with an unknown effect. -/
def Sample.heldTask : List Operation := Sample.failedUnknown.map .engine

/-- A held task whose run the operator fails. -/
theorem cases_resolved_once_failed :
    ∃ r, ((@installation Sample.platform).exec (World.initial (Sample.single "reconcile" none))
        Sample.heldTask).db.runs.find? 0 = some r ∧ r.onHold = true ∧
      ∃ r', ((@installation Sample.platform).exec (World.initial (Sample.single "reconcile" none))
          (Sample.heldTask ++ [.engine (.resolveCase 3 (Sample.resolution .failRun))])).db.runs.find? 0 =
            some r' ∧ r'.onHold = false ∧ r.Accepts 1 3 (Sample.resolution .failRun) r' ∧
          r.Cleared r' := by
  obtain ⟨r, hr, hold⟩ := (Option.any_eq_true _ _).mp (by decide +kernel :
    (((@installation Sample.platform).exec (World.initial (Sample.single "reconcile" none))
      Sample.heldTask).db.runs.find? 0).any Run.onHold = true)
  have h := @cases_resolved_once Sample.platform (Sample.single "reconcile" none) Sample.heldTask 0 r hr
  obtain ⟨r', hr', ha⟩ := h.2 3 (Sample.resolution .failRun) 1 (by decide +kernel)
  have hleft : r'.onHold = false := by
    simp [Run.onHold, ha.failed rfl]
  have hkeeps : (((@installation Sample.platform).exec
      (World.initial (Sample.single "reconcile" none))
      (Sample.heldTask ++ [.engine (.resolveCase 3 (Sample.resolution .failRun))])).db.sys.trace.drop
        ((@installation Sample.platform).exec (World.initial (Sample.single "reconcile" none))
          Sample.heldTask).db.sys.trace.length).all Visit.keepsHold = true := by
    decide +kernel
  exact ⟨r, hr, hold, r', hr', hleft, ha, (h.1 _ r' hr').2 hold (by simp [hleft])
    fun v hv _ => List.all_eq_true.mp hkeeps v hv⟩

/-- The approval that node `c` waits for is requested, and the task beside it is held. -/
def Sample.heldBesideApproval : List Operation :=
  [.engine (.createRun request), .engine (.reconcileReadyWork []),
   .engine (.claimSnapshot session 1 []), .engine (.claimCommit 0 [true] [] []),
   .engine (.start session 5 1),
   .engine (.complete session (completion 5 .failed none) .unavailable)]

/-- A granted approval and a completion of a recovered step: the run leaves its hold while the case
of its other branch is open, and an accepted confirmation does not store its result. -/
theorem hold_left_with_open_case :
    (((@installation Sample.platform).exec (World.initial (Sample.fleet
        [Sample.taskManifest "a" "reconcile" none, Sample.taskManifest "c" "safe" none]
        [Sample.workflow "w" [Sample.taskNode "a" [], Sample.approvalNode "b" [],
          Sample.taskNode "c" ["b"]]]))
      Sample.heldBesideApproval).db.runs.find? 0).any (fun r => r.onHold && r.hasOpenCase) = true ∧
    (((@installation Sample.platform).exec (World.initial (Sample.fleet
        [Sample.taskManifest "a" "reconcile" none, Sample.taskManifest "c" "safe" none]
        [Sample.workflow "w" [Sample.taskNode "a" [], Sample.approvalNode "b" [],
          Sample.taskNode "c" ["b"]]]))
      (Sample.heldBesideApproval ++ [.engine (.decideApproval 4
        { decision := .approved, comment := "", expectedRevision := 1, actorID := 1 })])).db.runs.find?
        0).any (fun r => r.status == .running && r.hasOpenCase) = true ∧
    (((@installation Sample.platform).exec (World.initial (Sample.fleet
        [Sample.taskManifest "a" "reconcile" none, Sample.taskManifest "b" "reconcile" none]
        [Sample.workflow "w" [Sample.taskNode "a" [], Sample.taskNode "b" []]]))
      [.engine (.createRun Sample.request), .engine (.claimSnapshot Sample.session 1 []),
       .engine (.claimCommit 0 [true] [] []), .engine (.start Sample.session 3 1),
       .recover ⟨0, 1000⟩ [],
       .engine (.complete Sample.session (Sample.completion 3 .succeeded none) .unavailable),
       .engine (.resolveCase 4 (Sample.resolution .confirmSucceeded))]).db.runs.find? 0).any (fun r =>
        (r.steps.find? 1).any fun s => s.output.any (Json.same .null) && s.cases.any fun x =>
          x.id == 4 && x.resolution == some .succeed) = true := by
  decide +kernel

section

variable [Platform]

end

end Deadbolt.Execution

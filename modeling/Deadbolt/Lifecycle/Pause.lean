import Deadbolt.Lifecycle.Steps
import Deadbolt.Lifecycle.Terminal

/-!
# Paused runs

A pause stops claims by its flag and timers by the run status. Completions, lease losses and
the sweeps leave the status of a pausing or paused run alone, or end the run. The recomputation
after an approval was requested or granted does not: it makes such a run `RUNNING` or `WAITING`
again, with the flag still set.
-/

namespace Deadbolt.Execution

open Base Contracts

/-- The run is paused, or cancelled or ended since. -/
def Run.Quiesced (r : Run) : Prop :=
  r.pauseRequested = true ∧ (r.status = .pausing ∨ r.status = .paused ∨ r.status = .cancelling) ∨
    r.status.terminal = true

/-- Another approval than in a pausing or paused run, and no disaster recovery. -/
def Visit.keepsPause (v : Visit) : Bool :=
  match v.kind with
  | .openApproval _ | .control => !(v.run.status == .pausing || v.run.status == .paused)
  | .disasterHold => false
  | _ => true

namespace Run.Quiesced

variable {r r' : Run}

theorem not_schedulable (h : r.Quiesced) : r.status.schedulable = false := by
  rcases h with ⟨-, hs | hs | hs⟩ | ht
  · rw [hs]; rfl
  · rw [hs]; rfl
  · rw [hs]; rfl
  · cases hs : r.status <;> first | rfl | (rw [hs] at ht; cases ht)

theorem congr (h : r.Quiesced) (hs : r'.status = r.status)
    (hp : r'.pauseRequested = r.pauseRequested) : r'.Quiesced := by
  simpa [Quiesced, hs, hp] using h

theorem pauseRequested_of_open (h : r.Quiesced) (ht : r.status.terminal = false) :
    r.pauseRequested = true := by
  rcases h with ⟨hp, -⟩ | hterm
  · exact hp
  · rw [ht] at hterm
    cases hterm

theorem not_granted (h : r.Quiesced) (hopen : r.status.closing = false) :
    r.pauseRequested = true := by
  refine h.pauseRequested_of_open ?_
  cases hs : r.status <;> first | rfl | (rw [hs] at hopen; cases hopen)

theorem status_mem (h : r.Quiesced) :
    r.status ∈ [.pausing, .paused, .cancelling, .succeeded, .failed, .cancelled] := by
  rcases h with ⟨-, hs | hs | hs⟩ | ht
  · simp [hs]
  · simp [hs]
  · simp [hs]
  · cases hs : r.status <;> first | (rw [hs] at ht; cases ht; done) | simp

end Run.Quiesced

variable {r : Run} {vs : List Visit}

/-- A status write keeps a pause, but for a resume and the recomputation of an open run after an
approval. -/
theorem StatusMove.quiesced {u : StatusMove} (hu : u.Admissible r) (h : r.Quiesced)
    (hcontrol : u = .control → r.status.closing = true) (hresume : u ≠ .resume)
    (hclaim : u ≠ .leaveQuota) : (u.apply r).Quiesced := by
  have hns := h.not_schedulable
  cases u with
  | control =>
    have hc := hcontrol rfl
    simp only [apply, Run.recomputeAfterControl, hc, if_true]
    exact h
  | quota =>
    have := hu.1
    rw [RunStatus.active_eq_false hns] at this
    cases this
  | leaveQuota => exact absurd rfl hclaim
  | leaveReconciliation =>
    rw [hu.1] at hns
    cases hns
  | holdDrained =>
    rw [hu.1] at hns
    cases hns
  | pause =>
    refine .inl ⟨rfl, ?_⟩
    simp only [apply, Run.pause, Run.setStatus]
    split
    · exact .inl rfl
    · exact .inr (.inl rfl)
  | pauseDrained =>
    refine .inl ⟨?_, .inr (.inl rfl)⟩
    exact h.pauseRequested_of_open (by rw [hu.1]; rfl)
  | resume => exact absurd rfl hresume
  | clearPause => exact .inr hu
  | retryWait => rw [apply_of_not_schedulable hns (by simp)]; exact h
  | delayWait => rw [apply_of_not_schedulable hns (by simp)]; exact h
  | hold => rw [apply_of_not_schedulable hns (by simp)]; exact h
  | handoff => rw [apply_of_not_schedulable hns (by simp)]; exact h
  | started => rw [apply_of_not_schedulable hns (by simp)]; exact h
  | leaveRetry => rw [apply_of_not_schedulable hns (by simp)]; exact h
  | leaveHandoff => rw [apply_of_not_schedulable hns (by simp)]; exact h

/-- An approval in a quiesced run is one in a closing run. -/
theorem Run.Quiesced.closing (h : r.Quiesced)
    (hs : (!(r.status == .pausing || r.status == .paused)) = true) : r.status.closing = true := by
  rcases h with ⟨-, hp | hp | hp⟩ | ht
  · rw [hp] at hs
    cases hs
  · rw [hp] at hs
    cases hs
  · rw [hp]
    rfl
  · cases hst : r.status <;> first | rfl | (rw [hst] at ht; cases ht)

/-- The status write that comes with a write of a step. -/
theorem Step.Moves.quiesced {id : StepID} {s s' : Step} {k : Option VisitKind} {u : StatusMove}
    (hm : Moves r id s k (some u) s') (h : r.Quiesced)
    (hP : ∀ x ∈ k, Visit.keepsPause ⟨x, r⟩ = true) (hu : u.Admissible (r.setStep id s')) :
    (u.apply (r.setStep id s')).Quiesced := by
  have hset : (r.setStep id s').Quiesced := h.congr rfl rfl
  cases hm with
  | requestApproval =>
    exact StatusMove.quiesced hu hset (fun _ => h.closing (hP _ rfl)) nofun nofun
  | grant _ _ _ hopen hpause =>
    rw [h.not_granted hopen] at hpause
    cases hpause
  | park _ _ _ _ _ _ hp =>
    cases hp with
    | retry => exact StatusMove.quiesced hu hset nofun nofun nofun
    | hold => exact StatusMove.quiesced hu hset nofun nofun nofun
  | parkDelay => exact StatusMove.quiesced hu hset nofun nofun nofun
  | fireRetry => exact StatusMove.quiesced hu hset nofun nofun nofun
  | start => exact StatusMove.quiesced hu hset nofun nofun nofun
  | fence => exact StatusMove.quiesced hu hset nofun nofun nofun
  | claimHold => exact StatusMove.quiesced hu hset nofun nofun nofun
  | readyHandoff => exact StatusMove.quiesced hu hset nofun nofun nofun

theorem Run.Moves.quiesced {r' : Run} {tr : List Visit} (hm : r.Moves tr vs r') (h : r.Quiesced)
    (hP : ∀ v ∈ vs, v.run = r → v.keepsPause = true ∧ v.kind ≠ .resume) : r'.Quiesced := by
  cases hm with
  | idle => exact h
  | event => exact h.congr rfl rfl
  | checked => exact h.congr rfl rfl
  | @step id s s' k u _ hm hu =>
    cases u with
    | none => exact h.congr rfl rfl
    | some u =>
      refine hm.quiesced h (fun x hx => (hP ⟨x, r⟩ ?_ rfl).1) (hu u rfl)
      rw [Option.mem_def.mp hx]
      simp
  | status u halone hu =>
    have hvisit (k : VisitKind) (hk : u.visit = some k) :
        Visit.keepsPause ⟨k, r⟩ = true ∧ k ≠ .resume := hP ⟨k, r⟩ (by simp [hk]) rfl
    refine StatusMove.quiesced hu h (fun he => ?_) (fun he => ?_) fun he => ?_
    · subst he
      exact h.closing (hvisit .control rfl).1
    · subst he
      exact (hvisit .resume rfl).2 rfl
    · subst he
      cases halone
  | close hc he => exact .inr (he.status ▸ hc.terminal)
  | closeSilent => exact .inr rfl
  | requestCancel _ _ _ _ hopen =>
    exact .inl ⟨h.not_granted hopen, .inr (.inr rfl)⟩

theorem View.Change.quiesced {a b : View} (hc : a.Change b) (htr : b.trace = a.trace ++ vs)
    (h : a.run.Quiesced) (hP : ∀ v ∈ vs, v.run = a.run → v.keepsPause = true ∧ v.kind ≠ .resume) :
    b.run.Quiesced := by
  obtain ⟨r', tr'⟩ := b
  simp only at htr ⊢
  have heq {ws : List Visit} (hws : tr' = a.trace ++ ws) : ws = vs :=
    List.append_cancel_left (hws.symm.trans htr)
  rcases hc with (⟨ws, hm, hws⟩ | ⟨ws, hm, hws⟩) | ⟨ws, hm, hws⟩
  · exact hm.quiesced h (by rw [heq hws]; exact hP)
  · simp only at hm
    cases hm with
    | step => exact h.congr rfl rfl
  · have := heq hws
    subst this
    simp only at hm
    cases hm with
    | status => cases (hP _ (List.mem_singleton.mpr rfl) rfl).1
    | step => exact h.congr rfl rfl
    | event => exact h.congr rfl rfl

/-! ### Claims and timers -/

namespace Step

section

variable {r : Run} {id : StepID} {s s' : Step}

theorem fired_append {timers : List Timer} (s : Step) (h : ∀ t ∈ timers, t.state = .pending) :
    { s with timers := s.timers ++ timers }.fired = s.fired := by
  have hnone : timers.filter (fun t => t.state == .fired) = [] := by
    rw [List.filter_eq_nil_iff]
    intro t ht
    simp [h t ht]
  simp [fired, List.filter_append, hnone]

theorem Arms.armed {kind : TimerKind} {timer : Option Timer} (h : s.Arms kind timer) :
    ∀ t ∈ timer.toList, t.state = .pending :=
  fun t ht => (h.1 t (Option.mem_toList.mp ht)).2

theorem Moves.fired {k : Option VisitKind} {u : Option StatusMove} (hm : Moves r id s k u s')
    (h : r.status.schedulable = false) : s'.fired = s.fired := by
  cases hm with
  | mint now windowMs =>
    obtain ⟨v, hv⟩ := mintWindow_eq s (now + millis windowMs)
    rw [hv]
    rfl
  | derive x windowMs =>
    obtain ⟨v, hv⟩ := mintWindow_eq s (x.createdAt + durationMs windowMs)
    rw [hv]
    rfl
  | requestApproval a _ _ _ hs =>
    rw [requestApproval_blocked hs]
    rfl
  | lateApproval a _ _ _ hs =>
    rw [requestApproval_closed hs]
    rfl
  | parkDelay timer dueAt harms _ hs =>
    rw [parkDelay_blocked hs]
    exact fired_append s harms.armed
  | lateDelay timer dueAt harms _ hs =>
    rw [parkDelay_closed hs]
    exact fired_append s harms.armed
  | fireRetry _ _ hopen =>
    rw [h] at hopen
    cases hopen
  | fireDelay _ _ hopen =>
    rw [h] at hopen
    cases hopen
  | park a _ howns hc _ _ hp =>
    obtain ⟨_, _, _, _, _, _, rfl⟩ := hc.eq
    cases hp with
    | retry timer dueAt harms => exact fired_append s harms.armed
    | hold => rfl
  | fence a epoch error now =>
    unfold Step.fence
    split <;> rfl
  | _ => rfl

theorem Unsettles.fired {k : VisitKind} (hm : Unsettles r id s k s') : s'.fired = s.fired := by
  cases hm with
  | finish a howns hc _ =>
    obtain ⟨_, _, _, _, _, _, rfl⟩ := hc.eq
    rfl
  | confirm => split <;> rfl
  | retry case actor now timer dueAt _ _ harms => exact fired_append s harms.armed

theorem Transits.undisturbed {r' : Run} {tr : List Visit} (ht : Transits r r' tr id s s')
    (hs : s.Sound) (h : r.Quiesced) : s'.claims = s.claims ∧ s'.fired = s.fired := by
  have hns := h.not_schedulable
  refine ⟨?_, ?_⟩
  · rcases ht.frames hs with ⟨a, l, now, hc, -⟩ | hf
    · have := hc.unpaused
      rw [h.not_granted hc.unended] at this
      cases this
    · exact claims_of_ages hf.attempts
  · cases ht with
    | same => rfl
    | moves hm _ _ _ => exact hm.fired hns
    | unsettles hm _ _ => exact hm.fired
    | winds hw _ _ => exact hw.fired
    | closes _ hc hw _ _ =>
      obtain ⟨_, _, _, _, _, _, rfl⟩ := hc.eq
      exact hw.fired
    | held hs _ =>
      obtain ⟨cases, rfl⟩ := hs.eq
      rfl

end

end Step

/-! ### Every run -/

/-- No attempt of the run is created and no timer fires between two states. -/
def Run.Undisturbed (r r' : Run) : Prop :=
  ∀ k s', r'.steps.find? k = some s' →
    ∃ s, r.steps.find? k = some s ∧ s'.claims = s.claims ∧ s'.fired = s.fired

theorem View.Operates.quiesced {a b : View} (hab : a.Operates b) (ha : a.run.Sound)
    (htr : b.trace = a.trace ++ vs) (h : a.run.Quiesced)
    (hP : ∀ v ∈ vs, v.run.id = a.run.id → v.keepsPause = true ∧ v.kind ≠ .resume) :
    b.run.Quiesced ∧ a.run.Undisturbed b.run := by
  refine (hab.invariant_of_visits (J := fun v => v.run.id = a.run.id ∧ v.run.Quiesced ∧
    a.run.Undisturbed v.run) (P := fun v => v.run.id = a.run.id →
      v.keepsPause = true ∧ v.kind ≠ .resume) ?_ ha htr hP
    ⟨rfl, h, fun k s hs => ⟨s, hs, rfl, rfl⟩⟩).2
  rintro c d ws hc ⟨hid, hq, hund⟩ hws hP hchange
  refine ⟨(congrArg Prod.fst hchange.pinned).trans hid,
    hchange.quiesced hws hq fun v hv hrun => hP v hv (by rw [hrun, hid]), fun k s2 hs2 => ?_⟩
  obtain ⟨s1, hs1, ht⟩ := hchange.transits hc hs2
  obtain ⟨s, hs, hclaims, hfired⟩ := hund k s1 hs1
  obtain ⟨hclaims', hfired'⟩ := ht.undisturbed (hc.steps.find hs1) hq
  exact ⟨s, hs, hclaims'.trans hclaims, hfired'.trans hfired⟩

section

variable [Platform]

theorem pauseRunTx_quiesces (c : RunScope) (revision : Int) :
    Tx.Commits (pauseRunTx revision) c fun _ c' => c'.run.Quiesced := by
  simp only [pauseRunTx, Tx.commits_bind, RunTx.commits_getRun, Tx.commits_require]
  intro _ _ _
  refine (runDeadlineExceededTx_view c _).mono fun expired c1 hview _ => ?_
  have hrun : c1.run = c.run := congrArg View.run hview
  simp only [commitPauseTx, Tx.commits_ite, Tx.commits_bind, Tx.commits_pure, RunTx.commits_note,
    RunTx.commits_getRun, RunTx.commits_modifyRun, commits_appendRunEvent]
  refine ⟨fun hp => ?_, fun _ => ⟨fun hlive _ => ?_, fun hlive _ => ?_⟩⟩
  · rw [hrun]
    exact .inl ⟨hp.1, hp.2.imp_right .inl⟩
  · exact .inl ⟨rfl, .inl (if_pos hlive)⟩
  · exact .inl ⟨rfl, .inr (.inl (if_neg hlive))⟩

/-- From the commit of a pause until a resume of the run, it stays paused, is cancelled or ends, no
attempt of it is created and none of its timers fires: in every run in which no approval of it is
requested or granted while it is pausing or paused, and no disaster recovery holds it. -/
theorem pause_holds (fleet : Fleet) (os ps : List Operation) (id : RunID) (revision : Int) (db : Db)
    (haccepted : onRun id (pauseRunTx revision)
      (installation.exec (World.initial fleet) os).db = .ok ((), db))
    (hP : ∀ v ∈ (installation.exec (World.initial fleet)
        (os ++ [.engine (.pauseRun id revision)] ++ ps)).db.sys.trace.drop db.sys.trace.length,
      v.run.id = id → v.keepsPause = true ∧ v.kind ≠ .resume) :
    ∃ r r', db.runs.find? id = some r ∧
      (installation.exec (World.initial fleet)
        (os ++ [.engine (.pauseRun id revision)] ++ ps)).db.runs.find? id = some r' ∧
      r'.status ∈ [.pausing, .paused, .cancelling, .succeeded, .failed, .cancelled] ∧
      r.Undisturbed r' := by
  set w := installation.exec (World.initial fleet) (os ++ [.engine (.pauseRun id revision)]) with hw
  have hdb : w.db = db := by
    rw [hw, System.exec_append]
    change (World.attemptOn _ (some id) (pauseRunTx revision) _).db = db
    simp [World.attemptOn, World.transact, haccepted]
  obtain ⟨r, hr, hq⟩ : ∃ r, w.db.runs.find? id = some r ∧ r.Quiesced := by
    have hcommits : Tx.Commits (onRun id (pauseRunTx revision))
        (installation.exec (World.initial fleet) os).db fun _ db =>
          ∃ r, db.runs.find? id = some r ∧ r.Quiesced := by
      rw [commits_onRun]
      intro r hr
      refine (pauseRunTx_quiesces _ revision).mono fun _ c' hq => ?_
      exact ⟨c'.run, by simp [hr], hq⟩
    rw [hdb]
    exact hcommits () db haccepted
  obtain ⟨hsound, hid⟩ := installation_sound hr
  obtain ⟨r', hr', hop⟩ := installation_append ps hr
  obtain ⟨vs, hvs⟩ := hop.trace
  simp only at hvs
  rw [hvs, ← hw, hdb, List.drop_left] at hP
  obtain ⟨hq', hund⟩ := hop.quiesced hsound hvs hq (by rw [hid]; exact hP)
  exact ⟨r, r', hdb ▸ hr, hr', hq'.status_mem, hund⟩

end

/-! ### An approval after a pause -/

theorem pause_holds_claimed :
    ∃ db r r', @onRun _ 0 (@pauseRunTx Sample.platform 1) ((@installation Sample.platform).exec
        (World.initial (Sample.single "safe" none)) (Sample.claimed.map .engine)).db =
          .ok ((), db) ∧ db.runs.find? 0 = some r ∧
      ((@installation Sample.platform).exec (World.initial (Sample.single "safe" none))
        (Sample.claimed.map .engine ++ [.engine (.pauseRun 0 1)] ++
          [.engine (.start Sample.session 2 1)])).db.runs.find? 0 = some r' ∧
      r'.status ∈ [.pausing, .paused, .cancelling, .succeeded, .failed, .cancelled] := by
  have hvisits : ∀ v ∈ ((@installation Sample.platform).exec
      (World.initial (Sample.single "safe" none))
      (Sample.claimed.map .engine ++ [.engine (.pauseRun 0 1)] ++
        [.engine (.start Sample.session 2 1)])).db.sys.trace.drop 2,
      (v.keepsPause && v.kind != .resume) = true := List.all_eq_true.mp (by decide +kernel)
  obtain ⟨r, r', hr, hr', hs, -⟩ := @pause_holds Sample.platform (Sample.single "safe" none)
    (Sample.claimed.map .engine) [.engine (.start Sample.session 2 1)] 0 1 _ rfl
    fun v hv _ => by simpa using hvisits v hv
  exact ⟨_, r, r', rfl, hr, hr', hs⟩

def Sample.pausedBeforeApproval : List Operation :=
  [.engine (.createRun request), .engine (.claimSnapshot session 1 []),
   .engine (.claimCommit 0 [true] [] []), .engine (.start session 3 1), .engine (.pauseRun 0 1)]

/-- The task completes while the run is `PAUSING`: the approval behind it makes the run `WAITING`
with the pause still requested. -/
theorem pausing_run_waits :
    (((@installation Sample.platform).exec (World.initial (Sample.fleet
        [Sample.taskManifest "a" "safe" none]
        [Sample.workflow "w" [Sample.taskNode "a" [], Sample.approvalNode "b" ["a"]]]))
        Sample.pausedBeforeApproval).db.runs.find? 0).any (fun r =>
      r.pauseRequested && r.status == .pausing) = true ∧
    (((@installation Sample.platform).exec (World.initial (Sample.fleet
        [Sample.taskManifest "a" "safe" none]
        [Sample.workflow "w" [Sample.taskNode "a" [], Sample.approvalNode "b" ["a"]]]))
        (Sample.pausedBeforeApproval ++
          [.engine (.complete Sample.session (Sample.completion 3 .succeeded none) .unavailable)])
          ).db.runs.find? 0).any (fun r => r.pauseRequested && r.status == .waiting) = true := by
  decide +kernel

end Deadbolt.Execution

import Deadbolt.Lifecycle.Recovery

/-!
# What one move does to one step

An invariant of steps does not need to know which end a run came to. Every edge of the automaton
leaves a step alone, makes one of its moves, or winds it up together with the run (`Step.Winds`),
possibly after its attempt was closed.
-/

namespace Deadbolt.Execution

open Base Contracts

/-! ### Attempts -/

/-- The columns of an attempt that no statement writes after its claim. -/
def Attempt.claim (a : Attempt) : AttemptID × Int × SessionID × Int × Option Time × Int × Time :=
  (a.id, a.number, a.sessionID, a.epoch, a.claimStartDeadlineAt, a.timeoutMs, a.createdAt)

/-- An attempt is left alone, or its live owner is revoked. -/
def Attempt.Winds (a a' : Attempt) : Prop :=
  a' = a ∨ a.status.live = true ∧ a'.status = .cancelled ∧ a'.claim = a.claim ∧
    a'.startedAt = a.startedAt ∧ a'.outcomeDigest = a.outcomeDigest

theorem Attempt.winds_revoke (a : Attempt) (code message : String) (now grace : Time) :
    a.Winds (a.revoke code message now grace) := by
  unfold revoke
  split
  · next hl => exact .inr ⟨hl, rfl, rfl, rfl, rfl⟩
  · exact .inl rfl

variable {a : Attempt}

theorem Attempt.Winds.trans {b c : Attempt} (h : a.Winds b) (h' : b.Winds c) : a.Winds c := by
  rcases h with rfl | ⟨hl, hs, hc, hst, hd⟩
  · exact h'
  · rcases h' with rfl | ⟨hl', -⟩
    · exact .inr ⟨hl, hs, hc, hst, hd⟩
    · rw [hs] at hl'
      cases hl'

def Attempt.outcome (a : Attempt) : AttemptStatus × Option Time × Option String × Option Json :=
  (a.status, a.startedAt, a.outcomeDigest, a.error)

/-- What becomes of an attempt: it stays, it starts, or it ends. -/
def Attempt.Ages (a a' : Attempt) : Prop :=
  a'.claim = a.claim ∧ (a'.outcome = a.outcome ∨
    a.status = .claimed ∧ a'.status = .running ∧ a'.outcomeDigest = a.outcomeDigest ∨
    a.status.live = true ∧ a'.status.live = false ∧ a'.startedAt = a.startedAt)

theorem Attempt.Ages.refl (a : Attempt) : a.Ages a := ⟨rfl, .inl rfl⟩

theorem Attempt.Ages.outcome_of_ended {a' : Attempt} (h : a.Ages a') (hl : a.status.live = false) :
    a'.outcome = a.outcome := by
  rcases h.2 with ho | ⟨hs, -⟩ | ⟨hlive, -⟩
  · exact ho
  · rw [hs] at hl
    cases hl
  · rw [hl] at hlive
    cases hlive

theorem Attempt.Winds.ages {a' : Attempt} (h : a.Winds a') : a.Ages a' := by
  rcases h with rfl | ⟨hl, hs, hc, hst, -⟩
  · exact .refl a'
  · exact ⟨hc, .inr (.inr ⟨hl, by rw [hs]; rfl, hst⟩)⟩

namespace Step

def claims (s : Step) : List (AttemptID × Int × SessionID × Int × Option Time × Int × Time) :=
  s.attempts.map Attempt.claim

def fired (s : Step) : List TimerID :=
  (s.timers.filter fun t => t.state == .fired).map Timer.id

/-- What the end of a run does to a step. -/
structure Winds (s s' : Step) : Prop where
  node : s'.nodeID = s.nodeID ∧ s'.kind = s.kind
  attempts : List.Forall₂ Attempt.Winds s.attempts s'.attempts
  revoked : s'.attempts = s.attempts ∨ s'.hasLive = false ∧ s'.state.terminal = true
  counters : s'.currentEpoch = s.currentEpoch ∧ s'.nextAttemptNumber = s.nextAttemptNumber
  window : s'.idempotencyValidUntil = s.idempotencyValidUntil
  lease : s'.lease = s.lease ∨ s'.lease = none
  state : s'.state = s.state ∧ s'.waitReason = s.waitReason ∨ s'.Closed
  output : s'.output = s.output
  cases : s.retried = true → s'.retried = true
  fired : s'.fired = s.fired

theorem forall₂_winds_self (l : List Attempt) : List.Forall₂ Attempt.Winds l l :=
  List.forall₂_same.mpr fun _ _ => .inl rfl

variable {f : Attempt → Attempt} {s s' s1 s2 : Step} {id : AttemptID} {policy : RetryPolicy}
  {r : Run}

theorem forall₂_winds_map (l : List Attempt) (hf : ∀ a : Attempt, a.Winds (f a)) :
    List.Forall₂ Attempt.Winds l (l.map f) := by
  rw [List.forall₂_map_right_iff]
  exact List.forall₂_same.mpr fun a _ => hf a

/-- A write that changes neither ownership nor the state. -/
theorem winds_of_same (hn : s'.nodeID = s.nodeID ∧ s'.kind = s.kind) (ha : s'.attempts = s.attempts)
    (hcount : s'.currentEpoch = s.currentEpoch ∧ s'.nextAttemptNumber = s.nextAttemptNumber)
    (hw : s'.idempotencyValidUntil = s.idempotencyValidUntil) (hl : s'.lease = s.lease)
    (hs : s'.state = s.state ∧ s'.waitReason = s.waitReason ∨ s'.Closed) (ho : s'.output = s.output)
    (hc : s.retried = true → s'.retried = true) (ht : s'.fired = s.fired) : s.Winds s' where
  node := hn
  attempts := ha ▸ forall₂_winds_self _
  revoked := .inl ha
  counters := hcount
  window := hw
  lease := .inl hl
  state := hs
  output := ho
  cases := hc
  fired := ht

theorem Closed.terminal (h : s.Closed) : s.state.terminal = true := by
  rcases h with h | h <;> rw [h] <;> rfl

theorem Winds.refl (s : Step) : s.Winds s :=
  winds_of_same ⟨rfl, rfl⟩ rfl ⟨rfl, rfl⟩ rfl rfl (.inl ⟨rfl, rfl⟩) rfl (fun h => h) rfl

theorem Winds.trans {s3 : Step} (h : s1.Winds s2) (h' : s2.Winds s3) : s1.Winds s3 where
  node := ⟨h'.node.1.trans h.node.1, h'.node.2.trans h.node.2⟩
  attempts := by
    have := h.attempts
    have h3 := h'.attempts
    revert this h3
    generalize s1.attempts = l1
    generalize s2.attempts = l2
    generalize s3.attempts = l3
    intro h12 h23
    induction h12 generalizing l3 with
    | nil => cases h23; exact .nil
    | cons ha _ ih =>
      cases h23 with
      | cons hb hr => exact .cons (ha.trans hb) (ih _ hr)
  revoked := by
    rcases h'.revoked with he | hd
    · rcases h.revoked with he' | ⟨hd, ht⟩
      · exact .inl (he.trans he')
      · refine .inr ⟨by simpa [hasLive, he] using hd, ?_⟩
        rcases h'.state with ⟨hs, -⟩ | hs
        · rw [hs]
          exact ht
        · exact hs.terminal
    · exact .inr hd
  counters := ⟨h'.counters.1.trans h.counters.1, h'.counters.2.trans h.counters.2⟩
  window := h'.window.trans h.window
  lease := by
    rcases h'.lease with he | he
    · rw [he]
      exact h.lease
    · exact .inr he
  state := by
    rcases h'.state with ⟨hs, hw⟩ | hs
    · rw [hs, hw]
      rcases h.state with hs2 | hs2
      · exact .inl hs2
      · exact .inr (by rwa [Closed, hs])
    · exact .inr hs
  output := h'.output.trans h.output
  cases hr := h'.cases (h.cases hr)
  fired := h'.fired.trans h.fired

theorem retried_map {f : Case → Case} (hf : ∀ c, c.status = .resolved → f c = c)
    (h : s.retried = true) : { s with cases := s.cases.map f }.retried = true := by
  obtain ⟨c, hc, hp⟩ := List.any_eq_true.mp h
  have hs : c.status = .resolved := by
    simp only [Bool.and_eq_true, beq_iff_eq] at hp
    exact hp.1
  exact List.any_eq_true.mpr ⟨c, List.mem_map.mpr ⟨c, hc, hf c hs⟩, hp⟩

theorem winds_closeOpenCases (s : Step) (actor : Option ActorID) (resolution : CaseResolution)
    (now : Time) : s.Winds (s.closeOpenCases actor resolution now) :=
  winds_of_same ⟨rfl, rfl⟩ rfl ⟨rfl, rfl⟩ rfl rfl (.inl ⟨rfl, rfl⟩) rfl
    (retried_map fun c hc => if_neg (by simp [hc])) rfl

theorem winds_resolveCase (s : Step) (case : CaseID) (resolution : CaseResolution)
    (actor : ActorID) (now : Time) : s.Winds (s.resolveCase case resolution actor now) :=
  winds_of_same ⟨rfl, rfl⟩ rfl ⟨rfl, rfl⟩ rfl rfl (.inl ⟨rfl, rfl⟩) rfl
    (retried_map fun c hc => if_neg (by simp [hc])) rfl

theorem fired_cancelTimers (s : Step) : s.cancelTimers.fired = s.fired := by
  unfold fired cancelTimers
  simp only [List.filter_map, List.map_map]
  rw [List.filter_congr (q := fun t => t.state == .fired)]
  · refine List.map_congr_left fun t _ => ?_
    simp only [Function.comp_apply]
    split <;> rfl
  · intro t _
    simp only [Function.comp_apply]
    split
    · next h => simp [h]
    · rfl

theorem winds_cancelTimers (s : Step) : s.Winds s.cancelTimers :=
  winds_of_same ⟨rfl, rfl⟩ rfl ⟨rfl, rfl⟩ rfl rfl (.inl ⟨rfl, rfl⟩) rfl (fun h => h)
    s.fired_cancelTimers

theorem winds_updatePendingApproval (s : Step) (f : Approval → Approval) :
    s.Winds (s.updatePendingApproval f) :=
  winds_of_same ⟨rfl, rfl⟩ rfl ⟨rfl, rfl⟩ rfl rfl (.inl ⟨rfl, rfl⟩) rfl (fun h => h) rfl

theorem winds_failWith (s : Step) (reason : String) : s.Winds (s.failWith reason) :=
  winds_of_same ⟨rfl, rfl⟩ rfl ⟨rfl, rfl⟩ rfl rfl (.inr (.inr rfl)) rfl (fun h => h) rfl

theorem winds_cancelOpen (s : Step) : s.Winds s.cancelOpen := by
  unfold cancelOpen
  split
  · exact .refl s
  · exact winds_of_same ⟨rfl, rfl⟩ rfl ⟨rfl, rfl⟩ rfl rfl (.inr (.inl rfl)) rfl (fun h => h) rfl

theorem winds_cancelIdle (s : Step) : s.Winds s.cancelIdle := by
  unfold cancelIdle
  split
  · exact .refl s
  · exact winds_of_same ⟨rfl, rfl⟩ rfl ⟨rfl, rfl⟩ rfl rfl (.inr (.inl rfl)) rfl (fun h => h) rfl

theorem winds_failOverdue (s : Step) (closedAt : Time) : s.Winds (s.failOverdue closedAt) :=
  (s.winds_cancelOpen.trans (winds_cancelTimers _)).trans (winds_closeOpenCases ..)

/-- A write that revokes every live owner and ends the step. -/
theorem winds_of_revoked (hn : s'.nodeID = s.nodeID ∧ s'.kind = s.kind)
    (ha : s'.attempts = s.attempts.map f) (hf : ∀ a : Attempt, a.Winds (f a))
    (hlive : s'.hasLive = false)
    (hcount : s'.currentEpoch = s.currentEpoch ∧ s'.nextAttemptNumber = s.nextAttemptNumber)
    (hw : s'.idempotencyValidUntil = s.idempotencyValidUntil)
    (hl : s'.lease = s.lease ∨ s'.lease = none) (hterm : s'.state.terminal = true)
    (hs : s'.state = s.state ∧ s'.waitReason = s.waitReason ∨ s'.Closed) (ho : s'.output = s.output)
    (hc : s.retried = true → s'.retried = true) (ht : s'.fired = s.fired) : s.Winds s' where
  node := hn
  attempts := ha ▸ forall₂_winds_map _ hf
  revoked := .inr ⟨hlive, hterm⟩
  counters := hcount
  window := hw
  lease := hl
  state := hs
  output := ho
  cases := hc
  fired := ht

theorem terminal_cancelOpenWith (s : Step) (reason : Option String) :
    (s.cancelOpenWith reason).state.terminal = true := by
  unfold cancelOpenWith
  split
  · next h => exact h
  · rfl

theorem terminal_cancelOpen (s : Step) : s.cancelOpen.state.terminal = true := by
  unfold cancelOpen
  split
  · next h => exact h
  · rfl

theorem winds_failFast (h : s.Sound) (failing : Bool) (reason : String) (actor : Option ActorID)
    (now closedAt : Time) : s.Winds (s.failFast failing reason actor now closedAt) := by
  obtain ⟨hlive, hlease⟩ := revokeSiblings_idle h now
  have hcases : s.retried = true →
      ((s.revokeSiblings now).closeOpenCases actor .fail closedAt).retried = true :=
    (winds_closeOpenCases (s.revokeSiblings now) actor .fail closedAt).cases
  unfold Step.failFast
  cases failing with
  | true =>
    exact winds_of_revoked ⟨rfl, rfl⟩ rfl (fun a => a.winds_revoke ..) hlive ⟨rfl, rfl⟩ rfl
      (.inr hlease) rfl (.inr (.inr rfl)) rfl hcases (fired_cancelTimers _)
  | false =>
    have hterm := terminal_cancelOpenWith
      ((s.revokeSiblings now).closeOpenCases actor .fail closedAt) none
    simp only [Bool.false_eq_true, if_false]
    unfold cancelOpenWith at hterm ⊢
    split
    · next ht =>
      rw [if_pos ht] at hterm
      exact winds_of_revoked ⟨rfl, rfl⟩ rfl (fun a => a.winds_revoke ..) hlive ⟨rfl, rfl⟩ rfl
        (.inr hlease) hterm (.inl ⟨rfl, rfl⟩) rfl hcases (fired_cancelTimers _)
    · exact winds_of_revoked ⟨rfl, rfl⟩ rfl (fun a => a.winds_revoke ..) hlive ⟨rfl, rfl⟩ rfl
        (.inr hlease) rfl (.inr (.inl rfl)) rfl hcases (fired_cancelTimers _)

theorem winds_cancelAll (h : s.Sound) (actor : Option ActorID) (now graceUntil closedAt : Time) :
    s.Winds (s.cancelAll actor now graceUntil closedAt) := by
  obtain ⟨hlive, hlease⟩ := revokeCancelled_idle h now graceUntil
  have hcases (s' : Step) (hs : s'.cases = s.cases) : s.retried = true →
      (s'.closeOpenCases actor .cancel closedAt).retried = true := by
    intro hr
    refine (winds_closeOpenCases s' actor .cancel closedAt).cases ?_
    simpa [retried, hs] using hr
  have hterm := terminal_cancelOpenWith (s.revokeCancelled now graceUntil) (some "CANCEL_REQUESTED")
  unfold Step.cancelAll
  unfold cancelOpenWith at hterm ⊢
  split
  · next ht =>
    rw [if_pos ht] at hterm
    exact winds_of_revoked ⟨rfl, rfl⟩ rfl (fun a => a.winds_revoke ..) hlive ⟨rfl, rfl⟩ rfl
      (.inr hlease) hterm (.inl ⟨rfl, rfl⟩) rfl (hcases _ rfl) (fired_cancelTimers _)
  · exact winds_of_revoked ⟨rfl, rfl⟩ rfl (fun a => a.winds_revoke ..) hlive ⟨rfl, rfl⟩ rfl
      (.inr hlease) rfl (.inr (.inl rfl)) rfl (hcases _ rfl) (fired_cancelTimers _)

/-! ### Transitions -/

/-- A step that has succeeded stays so, unless `failRunForStepTx` was called for it. -/
def Spared (s s' : Step) (r : Run) (tr : List Visit) (id : StepID) : Prop :=
  s.state = .succeeded → s'.state = .succeeded ∨ ∃ v ∈ tr, v.kind = .failRun id ∧
    v.run.id = r.id ∧ ∃ s0, v.run.steps.find? id = some s0 ∧ s0.state = .succeeded

theorem state_cancelOpenWith (h : s.state = .succeeded) (reason : Option String) :
    (s.cancelOpenWith reason).state = .succeeded := by
  rw [cancelOpenWith, if_pos (by rw [h]; rfl)]
  exact h

theorem state_cancelOpen (h : s.state = .succeeded) : s.cancelOpen.state = .succeeded := by
  rw [cancelOpen, if_pos (by rw [h]; rfl)]
  exact h

theorem state_cancelIdle (h : s.state = .succeeded) : s.cancelIdle.state = .succeeded := by
  rw [cancelIdle, if_pos (by rw [h]; rfl)]
  exact h

/-- What an edge from `r` to `r'` that leaves the trace `tr` does to one step. -/
inductive Transits (r r' : Run) (tr : List Visit) (id : StepID) (s : Step) : Step → Prop
  | same : Transits r r' tr id s s
  | moves {k : Option VisitKind} {u : Option StatusMove} {s' : Step} (hm : Moves r id s k u s')
      (hu : ∀ x ∈ u, x.Admissible (r.setStep id s')) (hv : ∀ x ∈ k, ⟨x, r⟩ ∈ tr)
      (hr : r' = StatusMove.follow u (r.setStep id s')) : Transits r r' tr id s s'
  | unsettles {k : VisitKind} {s' : Step} (hm : Unsettles r id s k s') (hv : ⟨k, r⟩ ∈ tr)
      (hr : r' = r.setStep id s') : Transits r r' tr id s s'
  | winds {s' : Step} (hw : s.Winds s') (hr : r'.status.closing = true)
      (hk : s.Spared s' r tr id) : Transits r r' tr id s s'
  | closes {a : AttemptID} {status : AttemptStatus} {s1 s' : Step} (howns : s.Owns a)
      (hc : s.Closes (r.retryPolicy s) a status s1) (hw : s1.Winds s')
      (hs : s'.state.terminal = true) (hr : r'.status = .failed) : Transits r r' tr id s s'
  | held {s' : Step} (hs : s.Held s') (hv : ⟨.disasterHold, r⟩ ∈ tr) : Transits r r' tr id s s'

/-! ### Frames -/

/-- The columns that only a claim writes, and what else may become of the ownership. -/
structure Frames (s s' : Step) : Prop where
  node : s'.nodeID = s.nodeID ∧ s'.kind = s.kind
  attempts : List.Forall₂ Attempt.Ages s.attempts s'.attempts
  counters : s'.currentEpoch = s.currentEpoch ∧ s'.nextAttemptNumber = s.nextAttemptNumber
  lease : ∀ l', s'.lease = some l' → ∃ l, s.lease = some l ∧
    (l'.attemptID, l'.sessionID, l'.epoch) = (l.attemptID, l.sessionID, l.epoch)

/-- A claim of the step, as the visit shows it. -/
structure ClaimedBy (r : Run) (tr : List Visit) (id : StepID) (s : Step) (a : Attempt) (l : Lease)
    (now : Time) : Prop where
  visited : ⟨.claimAttempt id now, r⟩ ∈ tr
  unended : r.status.closing = false
  unpaused : r.pauseRequested = false
  ready : s.state = .ready
  unleased : s.lease = none
  rows : s.Grants a l now (assignmentTimeoutMs r.deployment.manifest r.workflowName s.nodeID)
  window : (r.retryPolicy s).window?.isSome = true → s.idempotencyValidUntil.isSome = true

theorem claims_of_ages {l l' : List Attempt} (h : List.Forall₂ Attempt.Ages l l') :
    l'.map Attempt.claim = l.map Attempt.claim := by
  induction h with
  | nil => rfl
  | cons ha _ ih => rw [List.map_cons, List.map_cons, ha.1, ih]

theorem forall₂_ages_self (l : List Attempt) : List.Forall₂ Attempt.Ages l l :=
  List.forall₂_same.mpr fun a _ => .refl a

theorem Frames.refl (s : Step) : s.Frames s :=
  ⟨⟨rfl, rfl⟩, forall₂_ages_self _, ⟨rfl, rfl⟩, fun l' h => ⟨l', h, rfl⟩⟩

/-- Every attempt after was one before, and every attempt before is one after. -/
theorem Frames.aged (h : s.Frames s') {a' : Attempt} (ha : a' ∈ s'.attempts) :
    ∃ a ∈ s.attempts, a.Ages a' := by
  have hall := h.attempts
  generalize s.attempts = l at hall ⊢
  generalize s'.attempts = l' at hall ha
  induction hall with
  | nil => cases ha
  | cons hab _ ih =>
    rcases List.mem_cons.mp ha with rfl | ha
    · exact ⟨_, List.mem_cons_self, hab⟩
    · obtain ⟨a, ha, hab⟩ := ih ha
      exact ⟨a, List.mem_cons_of_mem _ ha, hab⟩

theorem Frames.ages (h : s.Frames s') {a : Attempt} (ha : a ∈ s.attempts) :
    ∃ a' ∈ s'.attempts, a.Ages a' := by
  have hall := h.attempts
  generalize s.attempts = l at hall ha
  generalize s'.attempts = l' at hall ⊢
  induction hall with
  | nil => cases ha
  | cons hab _ ih =>
    rcases List.mem_cons.mp ha with rfl | ha
    · exact ⟨_, List.mem_cons_self, hab⟩
    · obtain ⟨a', ha', hab⟩ := ih ha
      exact ⟨a', List.mem_cons_of_mem _ ha', hab⟩

theorem Frames.hasLive_eq_false (hf : s.Frames s') (h : s.hasLive = false) :
    s'.hasLive = false := by
  rw [Step.hasLive_eq_false] at h ⊢
  intro a' ha'
  obtain ⟨a, ha, hages⟩ := hf.aged ha'
  have hs : a'.status = a.status := congrArg Prod.fst (hages.outcome_of_ended (h a ha))
  rw [hs]
  exact h a ha

theorem Frames.congr (h : s.Frames s1) (hn : s2.nodeID = s1.nodeID ∧ s2.kind = s1.kind)
    (ha : s2.attempts = s1.attempts)
    (hc : s2.currentEpoch = s1.currentEpoch ∧ s2.nextAttemptNumber = s1.nextAttemptNumber)
    (hl : s2.lease = s1.lease) : s.Frames s2 where
  node := ⟨hn.1.trans h.node.1, hn.2.trans h.node.2⟩
  attempts := ha ▸ h.attempts
  counters := ⟨hc.1.trans h.counters.1, hc.2.trans h.counters.2⟩
  lease := hl ▸ h.lease

theorem Winds.frames (h : s.Winds s') : s.Frames s' where
  node := h.node
  attempts := h.attempts.imp fun _ _ h => h.ages
  counters := h.counters
  lease l' hl' := by
    rcases h.lease with he | he
    · exact ⟨l', he ▸ hl', rfl⟩
    · rw [he] at hl'
      cases hl'

theorem forall₂_ages_update (s : Step) (id : AttemptID) (p : Attempt → Bool)
    (hf : ∀ a ∈ s.attempts, a.id = id → p a = true → a.Ages (f a)) :
    List.Forall₂ Attempt.Ages s.attempts (s.updateAttempt id p f).attempts := by
  unfold updateAttempt
  rw [List.forall₂_map_right_iff]
  refine List.forall₂_same.mpr fun a ha => ?_
  split
  · next h => exact hf a ha h.1 h.2
  · exact .refl a

theorem Owns.live (ho : s.Owns id) (h : s.Sound) {a : Attempt} (ha : a ∈ s.attempts)
    (hid : a.id = id) : a.status.live = true := by
  obtain ⟨x, hx, hxid, hlive⟩ := ho
  rw [h.eq_of_id ha hx (hid.trans hxid.symm)]
  exact hlive

theorem lease_of_deleteLeaseOf (id : AttemptID) {l' : Lease}
    (h : (s.deleteLeaseOf id).lease = some l') : s.lease = some l' := by
  simp only [deleteLeaseOf, Option.filter_eq_some_iff] at h
  exact h.1

theorem Closes.frames {status : AttemptStatus} (hc : s.Closes policy id status s1) (h : s.Sound)
    (ho : s.Owns id) : s.Frames s1 := by
  induction hc with
  | complete hstatus _ =>
    exact ⟨⟨rfl, rfl⟩, forall₂_ages_update s id _ fun a ha hid _ =>
      ⟨rfl, .inr (.inr ⟨ho.live h ha hid, hstatus, rfl⟩)⟩, ⟨rfl, rfl⟩,
      fun l' hl' => ⟨l', lease_of_deleteLeaseOf (s := s) id hl', rfl⟩⟩
  | lose hstatus _ _ =>
    exact ⟨⟨rfl, rfl⟩, forall₂_ages_update s id _ fun a ha hid _ =>
      ⟨rfl, .inr (.inr ⟨ho.live h ha hid, hstatus, rfl⟩)⟩, ⟨rfl, rfl⟩, nofun⟩
  | minted _ x windowMs _ _ ih =>
    obtain ⟨v, hv⟩ := mintWindow_eq _ (x.createdAt + durationMs windowMs)
    rw [hv]
    exact ih.congr ⟨rfl, rfl⟩ rfl ⟨rfl, rfl⟩ rfl

theorem frames_fence (h : s.Sound) (ho : s.Owns id) (epoch : Int) (error : Json) (now : Time) :
    s.Frames (s.fence id epoch error now) := by
  have hages := forall₂_ages_update s id (fun a => a.status.live)
    (f := fun a => { a with status := .lost, completedAt := some now, error := some error })
    fun a ha hid _ => ⟨rfl, .inr (.inr ⟨ho.live h ha hid, rfl, rfl⟩)⟩
  have hlost : s.Frames ((s.updateAttempt id (fun a => a.status.live) fun a =>
      { a with status := .lost, completedAt := some now, error := some error }).deleteLeaseOf id) :=
    ⟨⟨rfl, rfl⟩, hages, ⟨rfl, rfl⟩, fun l' hl' => ⟨l', lease_of_deleteLeaseOf _ hl', rfl⟩⟩
  unfold fence
  split
  · exact hlost.congr ⟨rfl, rfl⟩ rfl ⟨rfl, rfl⟩ rfl
  · exact hlost

theorem Parks.frames {effect : String} {u : StatusMove} (hp : s1.Parks policy effect u s2)
    (h : s.Frames s1) : s.Frames s2 := by
  cases hp <;> exact h.congr ⟨rfl, rfl⟩ rfl ⟨rfl, rfl⟩ rfl

theorem Moves.frames {tr : List Visit} {id : StepID} {k : Option VisitKind} {u : Option StatusMove}
    (hm : Moves r id s k u s') (hv : ∀ x ∈ k, ⟨x, r⟩ ∈ tr) (h : s.Sound) :
    (∃ a l now, ClaimedBy r tr id s a l now ∧ s' = s.grant a l) ∨ s.Frames s' := by
  have hsame {s2 : Step} (hn : s2.nodeID = s.nodeID ∧ s2.kind = s.kind)
      (ha : s2.attempts = s.attempts)
      (hc : s2.currentEpoch = s.currentEpoch ∧ s2.nextAttemptNumber = s.nextAttemptNumber)
      (hl : s2.lease = s.lease) : s.Frames s2 := (Frames.refl s).congr hn ha hc hl
  cases hm with
  | grant a l now hopen hpause hs hl hg hwindow =>
    exact .inl ⟨a, l, now, ⟨hv _ rfl, hopen, hpause, hs, hl, hg, hwindow⟩, rfl⟩
  | mint now windowMs =>
    obtain ⟨v, hv⟩ := mintWindow_eq s (now + millis windowMs)
    rw [hv]
    exact .inr (hsame ⟨rfl, rfl⟩ rfl ⟨rfl, rfl⟩ rfl)
  | derive x windowMs =>
    obtain ⟨v, hv⟩ := mintWindow_eq s (x.createdAt + durationMs windowMs)
    rw [hv]
    exact .inr (hsame ⟨rfl, rfl⟩ rfl ⟨rfl, rfl⟩ rfl)
  | requestApproval a _ _ _ hs =>
    rw [requestApproval_blocked hs]
    exact .inr (hsame ⟨rfl, rfl⟩ rfl ⟨rfl, rfl⟩ rfl)
  | lateApproval a _ _ _ hs =>
    rw [requestApproval_closed hs]
    exact .inr (hsame ⟨rfl, rfl⟩ rfl ⟨rfl, rfl⟩ rfl)
  | parkDelay timer dueAt _ _ hs =>
    rw [parkDelay_blocked hs]
    exact .inr (hsame ⟨rfl, rfl⟩ rfl ⟨rfl, rfl⟩ rfl)
  | lateDelay timer dueAt _ _ hs =>
    rw [parkDelay_closed hs]
    exact .inr (hsame ⟨rfl, rfl⟩ rfl ⟨rfl, rfl⟩ rfl)
  | start a started deadline ha hl =>
    obtain ⟨x, hx, hxid, hclaimed⟩ := ha
    refine .inr ⟨⟨rfl, rfl⟩, forall₂_ages_update s a _ fun b hb hid _ => ⟨rfl, .inr (.inl ?_)⟩,
      ⟨rfl, rfl⟩, fun l' hl' => ⟨l', hl', rfl⟩⟩
    rw [h.eq_of_id hb hx (hid.trans hxid.symm)]
    exact ⟨hclaimed, rfl, rfl⟩
  | renew a t =>
    refine .inr ⟨⟨rfl, rfl⟩, forall₂_ages_self _, ⟨rfl, rfl⟩, fun l' hl' => ?_⟩
    obtain ⟨l, hl, rfl⟩ := Option.map_eq_some_iff.mp hl'
    refine ⟨l, hl, ?_⟩
    split <;> rfl
  | acknowledge a now stopped =>
    exact .inr ⟨⟨rfl, rfl⟩, forall₂_ages_update s a _ fun b _ _ _ => ⟨rfl, .inl rfl⟩, ⟨rfl, rfl⟩,
      fun l' hl' => ⟨l', hl', rfl⟩⟩
  | park a _ howns hc _ _ hp => exact .inr (hp.frames (hc.frames h howns))
  | fence a epoch error now howns =>
    obtain ⟨x, hx, hxid, hlive, -⟩ := howns
    exact .inr (frames_fence h ⟨x, hx, hxid, hlive⟩ epoch error now)
  | skip => exact .inr (hsame ⟨rfl, rfl⟩ rfl ⟨rfl, rfl⟩ rfl)
  | succeedControl => exact .inr (hsame ⟨rfl, rfl⟩ rfl ⟨rfl, rfl⟩ rfl)
  | ready => exact .inr (hsame ⟨rfl, rfl⟩ rfl ⟨rfl, rfl⟩ rfl)
  | fireRetry => exact .inr (hsame ⟨rfl, rfl⟩ rfl ⟨rfl, rfl⟩ rfl)
  | fireDelay => exact .inr (hsame ⟨rfl, rfl⟩ rfl ⟨rfl, rfl⟩ rfl)
  | claimHold => exact .inr (hsame ⟨rfl, rfl⟩ rfl ⟨rfl, rfl⟩ rfl)
  | approve => exact .inr (hsame ⟨rfl, rfl⟩ rfl ⟨rfl, rfl⟩ rfl)
  | readyHandoff => exact .inr (hsame ⟨rfl, rfl⟩ rfl ⟨rfl, rfl⟩ rfl)

theorem Unsettles.frames {id : StepID} {k : VisitKind} (hm : Unsettles r id s k s') (h : s.Sound) :
    s.Frames s' := by
  cases hm with
  | finish a howns hc _ => exact hc.frames h howns
  | confirm case actor now result hc =>
    split <;> exact (Frames.refl s).congr ⟨rfl, rfl⟩ rfl ⟨rfl, rfl⟩ rfl
  | retry => exact (Frames.refl s).congr ⟨rfl, rfl⟩ rfl ⟨rfl, rfl⟩ rfl

theorem Held.frames (h : s.Held s') : s.Frames s' := by
  obtain ⟨cases, rfl⟩ := h.eq
  exact (Frames.refl s).congr ⟨rfl, rfl⟩ rfl ⟨rfl, rfl⟩ rfl

theorem Winds.attempts_of_idle (h : s.Winds s') (hl : s.hasLive = false) :
    s'.attempts = s.attempts := by
  have hdead := hasLive_eq_false.mp hl
  have hall := h.attempts
  generalize s.attempts = l at hdead hall
  generalize s'.attempts = l' at hall
  induction hall with
  | nil => rfl
  | @cons a a' l l' ha _ ih =>
    rcases ha with rfl | ⟨hlive, -⟩
    · rw [ih fun x hx => hdead x (List.mem_cons_of_mem _ hx)]
    · rw [hdead a (by simp)] at hlive
      cases hlive

/-- What closes an attempt and ends its run with it leaves neither a live attempt nor a lease. -/
theorem Closes.wound {status : AttemptStatus} (hc : s.Closes policy id status s1) (hw : s1.Winds s')
    (h : s.Sound) (ho : s.Owns id) :
    s'.attempts = s1.attempts ∧ s'.hasLive = false ∧ s'.lease = none := by
  obtain ⟨hlive, hlease⟩ := hc.idle h ho
  have ha := hw.attempts_of_idle hlive
  refine ⟨ha, by simpa [hasLive, ha] using hlive, ?_⟩
  rcases hw.lease with he | he
  · exact he.trans hlease
  · exact he

theorem Transits.frames {r' : Run} {tr : List Visit} {id : StepID} (ht : Transits r r' tr id s s')
    (h : s.Sound) : (∃ a l now, ClaimedBy r tr id s a l now ∧ s' = s.grant a l) ∨ s.Frames s' := by
  cases ht with
  | same => exact .inr (.refl s)
  | moves hm _ hv _ => exact hm.frames hv h
  | unsettles hm _ _ => exact .inr (hm.frames h)
  | winds hw _ _ => exact .inr hw.frames
  | closes howns hc hw _ _ =>
    obtain ⟨ha, -, hl⟩ := hc.wound hw h howns
    exact .inr ((hc.frames h howns).congr hw.node ha hw.counters
      (hl.trans (hc.idle h howns).2.symm))
  | held hs _ => exact .inr hs.frames

end Step

namespace Run

/-- The steps after an end of the run. -/
def Wound (r : Run) (tr : List Visit) (r1 : Run) : Prop :=
  ∀ id s', r1.steps.find? id = some s' → ∃ s, r.steps.find? id = some s ∧
    (s.Winds s' ∧ s.Spared s' r tr id ∨ ∃ a status s1, s.Owns a ∧ s.Closes (r.retryPolicy s) a status s1 ∧ s1.Winds s' ∧
      s'.state.terminal = true ∧ r1.status = .failed)

variable {r r1 r' : Run} {tr : List Visit} {id : StepID} {s' : Step}

theorem wound_of_mapRows {f : StepID → Step → Step} (hs : r1.steps = r.steps.mapRows f)
    (hf : ∀ id s, r.steps.find? id = some s → s.Winds (f id s) ∧
      (s.state = .succeeded → (f id s).state = .succeeded)) : r.Wound tr r1 := by
  intro id s' h
  rw [hs, Table.find?_mapRows] at h
  obtain ⟨s, hfind, rfl⟩ := Option.map_eq_some_iff.mp h
  obtain ⟨hw, hk⟩ := hf id s hfind
  exact ⟨s, hfind, .inl ⟨hw, fun h => .inl (hk h)⟩⟩

theorem wound_of_steps (tr : List Visit) (hs : r1.steps = r.steps) : r.Wound tr r1 :=
  fun _ s' h => ⟨s', hs ▸ h, .inl ⟨.refl s', .inl⟩⟩

/-- The rows of a failed step, whatever `failRunForStepTx` was started from. -/
theorem wound_failFast {r0 : Run} (h : r.Sound) (hf : r.FailsFrom id r0) (hl : r0.Logs r1)
    (reason : String) (actor : Option ActorID) (now closedAt : Time) (hv : ⟨.failRun id, r1⟩ ∈ tr) :
    r.Wound tr (r1.failFast id reason actor now closedAt) := by
  have h0 := h.failsFrom hf
  have hid := hf.id_logs hl
  intro k s' hk
  rw [failFast, steps_setStatus, steps_mapSteps, Table.find?_mapRows] at hk
  obtain ⟨s0, hfind1, rfl⟩ := Option.map_eq_some_iff.mp hk
  have hfind0 : r0.steps.find? k = some s0 := hl.steps ▸ hfind1
  have hspared (s : Step) (hs : s0.state = s.state) :
      s.Spared (s0.failFast (k == id) reason actor now closedAt) r tr k := by
    intro hstate
    rw [← hs] at hstate
    by_cases hki : k = id
    · subst hki
      exact .inr ⟨_, hv, rfl, hid, s0, hfind1, hstate⟩
    · left
      rw [show (k == id) = false from beq_false_of_ne hki]
      exact Step.state_cancelOpenWith (s := (s0.revokeSiblings now).closeOpenCases actor .fail closedAt)
        hstate none
  have hwind := Step.winds_failFast (h0.steps.find hfind0) (k == id) reason actor now closedAt
  have hterm : (s0.failFast (k == id) reason actor now closedAt).state.terminal = true := by
    unfold Step.failFast
    cases k == id with
    | true => rfl
    | false => exact Step.terminal_cancelOpenWith _ none
  -- The step was found as it is, or its caller wrote to it first.
  cases hf with
  | asFound => exact ⟨s0, hfind0, .inl ⟨hwind, hspared s0 rfl⟩⟩
  | @closed s s1 status hf a howns hc hs =>
    rw [find?_setStep] at hfind0
    split at hfind0
    · next he =>
      subst he
      rw [hf] at hfind0
      obtain rfl : s1 = s0 := Option.some.inj hfind0
      exact ⟨s, hf, .inr ⟨a, status, s1, howns, hc, hwind, hterm, rfl⟩⟩
    · exact ⟨s0, hfind0, .inl ⟨hwind, hspared s0 rfl⟩⟩
  | @expired s hf hp =>
    rw [find?_setStep] at hfind0
    split at hfind0
    · next he =>
      subst he
      rw [hf] at hfind0
      obtain rfl : s.expireApproval = s0 := Option.some.inj hfind0
      exact ⟨s, hf, .inl ⟨(Step.winds_updatePendingApproval s _).trans hwind, hspared s rfl⟩⟩
    · exact ⟨s0, hfind0, .inl ⟨hwind, hspared s0 rfl⟩⟩
  | @rejected s hf hopen hs hp status comment actor' now' hstatus =>
    rw [find?_setStep] at hfind0
    split at hfind0
    · next he =>
      subst he
      rw [hf] at hfind0
      obtain rfl : s.decideApproval status comment actor' now' = s0 := Option.some.inj hfind0
      exact ⟨s, hf, .inl ⟨(Step.winds_updatePendingApproval s _).trans hwind, hspared s rfl⟩⟩
    · exact ⟨s0, hfind0, .inl ⟨hwind, hspared s0 rfl⟩⟩
  | @resolved s hf case hc actor' now' closedAt' =>
    rw [steps_mapSteps, Table.find?_mapRows] at hfind0
    obtain ⟨s1, hfind2, rfl⟩ := Option.map_eq_some_iff.mp hfind0
    have hwind1 := (Step.winds_closeOpenCases s1 (some actor') .fail closedAt').trans hwind
    rw [find?_setStep] at hfind2
    split at hfind2
    · next he =>
      subst he
      rw [hf] at hfind2
      obtain rfl : s.resolveCase case .fail actor' now' = s1 := Option.some.inj hfind2
      exact ⟨s, hf, .inl ⟨(Step.winds_resolveCase s case .fail actor' now').trans hwind1,
        hspared s rfl⟩⟩
    · exact ⟨s1, hfind2, .inl ⟨hwind1, hspared s1 rfl⟩⟩

theorem Closes.wound {vs : List Visit} {t : EventType} (hc : r.Closes vs t r1) (h : r.Sound)
    (tr : List Visit) : r.Wound (tr ++ vs) r1 := by
  cases hc with
  | fail vs reason actor now closedAt hf hl =>
    exact wound_failFast h hf hl reason actor now closedAt (by simp)
  | failWithoutSteps closedAt =>
    exact wound_of_mapRows (f := fun _ s => s.cancelTimers.closeOpenCases none .fail closedAt) rfl
      fun _ s _ => ⟨s.winds_cancelTimers.trans (Step.winds_closeOpenCases ..), fun h => h⟩
  | settleFailed => exact wound_of_steps _ rfl
  | settleSucceeded => exact wound_of_steps _ rfl
  | cancel actor now graceUntil closedAt =>
    exact wound_of_mapRows (f := fun _ s => s.cancelAll actor now graceUntil closedAt) rfl
      fun _ s hs => ⟨Step.winds_cancelAll (h.steps.find hs) .., fun h =>
        Step.state_cancelOpenWith (s := s.revokeCancelled now graceUntil) h _⟩
  | settleCancelled => exact wound_of_steps _ rfl
  | @artifactFailure id s =>
    refine wound_of_mapRows (f := fun k s => (if k = id ∧ s.state = .ready then
      s.failWith "ARTIFACT_UNAVAILABLE" else s).cancelIdle) rfl fun k s _ => ?_
    split
    · next hready =>
      refine ⟨(s.winds_failWith _).trans (Step.winds_cancelIdle _), fun hs => ?_⟩
      rw [hready.2] at hs
      cases hs
    · exact ⟨s.winds_cancelIdle, Step.state_cancelIdle⟩
  | @deadlineLost id s s1 a closedAt hf hopen howns hc hs =>
    intro k s' hk
    rw [steps_setStatus, steps_mapSteps, Table.find?_mapRows, find?_setStep] at hk
    split at hk
    · next he =>
      subst he
      rw [hf] at hk
      obtain rfl : s1.failOverdue closedAt = s' := Option.some.inj hk
      refine ⟨s, hf, .inr ⟨a, .lost, s1, howns, hc, s1.winds_failOverdue closedAt, ?_, rfl⟩⟩
      exact s1.terminal_cancelOpen
    · obtain ⟨s0, hfind, rfl⟩ := Option.map_eq_some_iff.mp hk
      exact ⟨s0, hfind, .inl ⟨s0.winds_failOverdue closedAt, fun h => .inl (Step.state_cancelOpen h)⟩⟩
  | deadlineHandoff id closedAt =>
    exact wound_of_mapRows (f := fun _ s => s.failOverdue closedAt) rfl
      fun _ s _ => ⟨s.winds_failOverdue closedAt, Step.state_cancelOpen⟩
  | @handoffExhausted id s hf _ hw =>
    refine wound_of_mapRows (f := fun k s => (if k = id then
      s.failWith "MAX_ATTEMPTS_EXCEEDED" else s).cancelIdle) rfl fun k t ht => ?_
    split
    · next he =>
      subst he
      obtain rfl := Option.mem_unique hf ht
      refine ⟨(s.winds_failWith _).trans (Step.winds_cancelIdle _), fun hs => ?_⟩
      rw [(Step.waitsFor_eq_true.mp hw).1] at hs
      cases hs
    · exact ⟨t.winds_cancelIdle, Step.state_cancelIdle⟩
  | historyLimit =>
    exact wound_of_mapRows (f := fun _ s => s.cancelIdle) rfl
      fun _ s _ => ⟨s.winds_cancelIdle, Step.state_cancelIdle⟩

theorem Wound.transits (h : r.Wound tr r1) (hs : r'.steps = r1.steps) (hst : r'.status = r1.status)
    (hclosing : r1.status.closing = true) (hf : r'.steps.find? id = some s') :
    ∃ s, r.steps.find? id = some s ∧ Step.Transits r r' tr id s s' := by
  obtain ⟨s, hfind, ⟨hw, hk⟩ | ⟨a, status, s1, howns, hc, hw, hterm, hfailed⟩⟩ := h id s' (hs ▸ hf)
  · exact ⟨s, hfind, .winds hw (by rw [hst]; exact hclosing) hk⟩
  · exact ⟨s, hfind, .closes howns hc hw hterm (by rw [hst]; exact hfailed)⟩

theorem transits_setStep {k : StepID} {s s1 : Step} (hf : r.steps.find? id = some s)
    (hs : r'.steps = (r.setStep id s1).steps) (ht : Step.Transits r r' tr id s s1)
    (hk : r'.steps.find? k = some s') :
    ∃ s, r.steps.find? k = some s ∧ Step.Transits r r' tr k s s' := by
  rw [hs, find?_setStep] at hk
  split at hk
  · next he =>
    subst he
    rw [hf] at hk
    obtain rfl : s1 = s' := Option.some.inj hk
    exact ⟨s, hf, ht⟩
  · exact ⟨s', hk, .same⟩

theorem Moves.transits {vs : List Visit} (hm : r.Moves tr vs r') (h : r.Sound)
    (hf : r'.steps.find? id = some s') :
    ∃ s, r.steps.find? id = some s ∧ Step.Transits r r' (tr ++ vs) id s s' := by
  cases hm with
  | idle => exact ⟨s', hf, .same⟩
  | event => exact ⟨s', hf, .same⟩
  | checked => exact ⟨s', hf, .same⟩
  | @step k s s1 visit u hfind hm hu =>
    refine transits_setStep hfind (StatusMove.steps_follow u _) (.moves hm hu (fun x hx => ?_) rfl) hf
    rw [Option.mem_def.mp hx]
    simp
  | status u => exact ⟨s', u.steps_apply r ▸ hf, .same⟩
  | close hc he => exact (hc.wound h tr).transits he.steps he.status hc.closing hf
  | closeSilent =>
    exact (wound_of_mapRows (f := fun _ s => s.cancelIdle) rfl fun _ s _ =>
      ⟨s.winds_cancelIdle, Step.state_cancelIdle⟩).transits rfl rfl rfl hf
  | requestCancel actor now graceUntil closedAt =>
    exact (wound_of_mapRows (f := fun _ s => s.cancelAll actor now graceUntil closedAt) rfl
      fun _ s hs => ⟨Step.winds_cancelAll (h.steps.find hs) .., fun h => Step.state_cancelOpenWith
        (s := s.revokeCancelled now graceUntil) h _⟩).transits rfl rfl rfl hf

end Run

theorem View.Change.transits {a b : View} (he : a.Change b) (h : a.run.Sound) {id : StepID}
    {s' : Step} (hf : b.run.steps.find? id = some s') :
    ∃ s, a.run.steps.find? id = some s ∧ Step.Transits a.run b.run b.trace id s s' := by
  obtain ⟨r', tr'⟩ := b
  rcases he with (⟨vs, hm, htr⟩ | ⟨vs, hm, htr⟩) | ⟨vs, hm, htr⟩
  · rw [htr]
    exact hm.transits h hf
  · simp only at hm htr hf ⊢
    cases hm with
    | @step k s s1 visit hfind hm =>
      refine Run.transits_setStep hfind rfl (.unsettles hm ?_ rfl) hf
      rw [htr]
      simp
  · simp only at hm htr hf ⊢
    cases hm with
    | status => exact ⟨s', hf, .same⟩
    | @step k s s1 hfind hs =>
      refine Run.transits_setStep hfind rfl (.held hs ?_) hf
      rw [htr]
      simp
    | event => exact ⟨s', hf, .same⟩

end Deadbolt.Execution

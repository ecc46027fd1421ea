import Deadbolt.Lifecycle.Ownership

/-!
# Ambiguous ends and automatic retries

A task whose recovery mode is `reconcile`, or cannot be read, must not run again after an attempt
that may have had an effect, unless an operator says so. The completion and the lease sweep hold
such a step. Session fencing does not look at the policy: it hands the step off, and the sweep
makes it `READY`. A reported timeout is judged by the effect status the worker claims.
-/

namespace Deadbolt.Execution

open Base Contracts

/-- A policy under which only an operator may repeat an ambiguous attempt. -/
def RetryPolicy.guarded (p : RetryPolicy) : Bool :=
  recoveryMode p.recovery == "reconcile" || !isValidRecoveryPolicy p.recovery

/-- An unknown effect is never retried automatically under such a policy. -/
theorem RetryPolicy.not_clear_of_guarded {p : RetryPolicy} (h : p.guarded = true)
    (hvalid : isValidRecoveryPolicy p.recovery = true) {effect : String}
    (hclear : requiresReconciliation p.recovery effect = false) : isUnknownEffect effect = false := by
  simp only [guarded, hvalid, Bool.not_true, Bool.or_false, beq_iff_eq] at h
  simpa [requiresReconciliation, isUnknownEffect, h] using hclear

namespace Step

/-- Some attempt was started and ended without a known effect. -/
def ambiguous (s : Step) : Bool := s.attempts.any Attempt.ambiguous

/-- The step has ended or waits for an operator, and nothing executes it. -/
def Parked (s : Step) : Prop :=
  (s.state.terminal = true ∨ s.waitsFor "RECONCILIATION" = true) ∧ s.hasLive = false

section

variable {r : Run} {tr : List Visit} {id : StepID} {s s' : Step}

/-! ### Resolved cases stay resolved -/

theorem retried_append {cases : List Case} (h : s.retried = true) :
    { s with cases := s.cases ++ cases }.retried = true := by
  simp only [retried, List.any_append] at h ⊢
  rw [h, Bool.true_or]

theorem Moves.retried {k : Option VisitKind} {u : Option StatusMove} (hm : Moves r id s k u s')
    (h : s.retried = true) : s'.retried = true := by
  cases hm with
  | mint now windowMs =>
    obtain ⟨v, hv⟩ := mintWindow_eq s (now + millis windowMs)
    rw [hv]
    exact h
  | derive x windowMs =>
    obtain ⟨v, hv⟩ := mintWindow_eq s (x.createdAt + durationMs windowMs)
    rw [hv]
    exact h
  | requestApproval a _ _ _ hs =>
    rw [requestApproval_blocked hs]
    exact h
  | lateApproval a _ _ _ hs =>
    rw [requestApproval_closed hs]
    exact h
  | parkDelay timer dueAt _ _ hs =>
    rw [parkDelay_blocked hs]
    exact h
  | lateDelay timer dueAt _ _ hs =>
    rw [parkDelay_closed hs]
    exact h
  | park a _ howns hc _ _ hp =>
    obtain ⟨_, _, _, _, _, _, rfl⟩ := hc.eq
    cases hp with
    | retry => exact h
    | hold => exact retried_append h
  | fence a epoch error now =>
    unfold Step.fence
    split <;> exact h
  | claimHold => exact retried_append h
  | _ => exact h

theorem Unsettles.retried {k : VisitKind} (hm : Unsettles r id s k s') (h : s.retried = true) :
    s'.retried = true := by
  cases hm with
  | finish a howns hc _ =>
    obtain ⟨_, _, _, _, _, _, rfl⟩ := hc.eq
    exact h
  | confirm case actor now result =>
    refine (winds_resolveCase _ case .succeed actor now).cases ?_
    split <;> exact h
  | retry case actor now timer dueAt =>
    exact (winds_resolveCase (s.parkRetry timer dueAt) case .retry actor now).cases h

theorem Transits.retried {r' : Run} (ht : Transits r r' tr id s s') (h : s.retried = true) :
    s'.retried = true := by
  cases ht with
  | same => exact h
  | moves hm _ _ _ => exact hm.retried h
  | unsettles hm _ _ => exact hm.retried h
  | winds hw _ _ => exact hw.cases h
  | closes _ hc hw _ _ =>
    obtain ⟨_, _, _, _, _, _, rfl⟩ := hc.eq
    exact hw.cases h
  | held hs _ => exact hs.retried h

theorem retried_resolveCase {case : CaseID} (hc : s.Holds case) (actor : ActorID) (now : Time) :
    (s.resolveCase case .retry actor now).retried = true := by
  obtain ⟨c, hc, hid, hopen⟩ := hc
  refine List.any_eq_true.mpr ⟨_, List.mem_map.mpr ⟨c, hc, rfl⟩, ?_⟩
  rw [if_pos ⟨hid, hopen⟩]
  rfl

end

/-! ### Ambiguous attempts -/

theorem not_live_of_ambiguous {a : Attempt} (h : a.ambiguous = true) : a.status.live = false := by
  cases hs : a.status <;> simp_all [Attempt.ambiguous, AttemptStatus.live]

variable {a' : Attempt} {s : Step}

theorem ambiguous_of_outcome {a : Attempt} (h : a'.outcome = a.outcome) :
    a'.ambiguous = a.ambiguous := by
  obtain ⟨hs, h⟩ := Prod.mk.inj h
  obtain ⟨hst, h⟩ := Prod.mk.inj h
  obtain ⟨-, he⟩ := Prod.mk.inj h
  simp [Attempt.ambiguous, hs, hst, he]

theorem Frames.ambiguous {s' : Step} (hf : s.Frames s') (h : s.ambiguous = true) :
    s'.ambiguous = true := by
  obtain ⟨a, ha, hamb⟩ := List.any_eq_true.mp h
  obtain ⟨a', ha', hages⟩ := hf.ages ha
  refine List.any_eq_true.mpr ⟨a', ha', ?_⟩
  rw [ambiguous_of_outcome (hages.outcome_of_ended (not_live_of_ambiguous hamb))]
  exact hamb

theorem ambiguous_of_closed {s' : Step} {p : Attempt → Prop}
    (hmem : ∀ a' ∈ s'.attempts, a' ∈ s.attempts ∨ p a')
    (hp : ∀ a' ∈ s'.attempts, p a' → a'.ambiguous = false) (h : s.ambiguous = false) :
    s'.ambiguous = false := by
  rw [ambiguous, List.any_eq_false] at h ⊢
  intro a' ha'
  rcases hmem a' ha' with hold | hpa
  · exact h a' hold
  · simp [hp a' ha' hpa]

theorem mem_updateAttempt {id : AttemptID} {p : Attempt → Bool} {f : Attempt → Attempt}
    (h : a' ∈ (s.updateAttempt id p f).attempts) :
    a' ∈ s.attempts ∨ ∃ a ∈ s.attempts, a.id = id ∧ p a = true ∧ a' = f a := by
  obtain ⟨a, ha, rfl⟩ := List.mem_map.mp h
  split
  · next hp => exact .inr ⟨a, ha, hp.1, hp.2, rfl⟩
  · exact .inl ha

theorem Closes.mem {policy : RetryPolicy} {s1 : Step} {id : AttemptID} {status : AttemptStatus}
    (hc : s.Closes policy id status s1) (h : a' ∈ s1.attempts) :
    a' ∈ s.attempts ∨ a'.id = id ∧ a'.status = status := by
  induction hc with
  | complete =>
    rcases mem_updateAttempt (s := s) h with h | ⟨a, -, hid, -, rfl⟩
    · exact .inl h
    · exact .inr ⟨hid, rfl⟩
  | lose =>
    rcases mem_updateAttempt (s := s) h with h | ⟨a, -, hid, -, rfl⟩
    · exact .inl h
    · exact .inr ⟨hid, rfl⟩
  | minted _ x windowMs _ _ ih =>
    obtain ⟨v, hv⟩ := mintWindow_eq _ (x.createdAt + durationMs windowMs)
    rw [hv] at h
    exact ih h

/-! ### Parked steps stay parked -/

section

variable {r : Run} {tr : List Visit} {id : StepID} {s s' : Step}

theorem Parked.not_blocked (h : s.Parked) : s.state ≠ .blocked := by
  intro hb
  rcases h.1 with ht | hw
  · rw [hb] at ht
    cases ht
  · rw [waitsFor_eq_true, hb] at hw
    cases hw.1

theorem Parked.not_ready (h : s.Parked) : s.state ≠ .ready := by
  intro hb
  rcases h.1 with ht | hw
  · rw [hb] at ht
    cases ht
  · rw [waitsFor_eq_true, hb] at hw
    cases hw.1

theorem Parked.not_owned (h : s.Parked) {a : AttemptID} : ¬ s.Owns a := by
  intro ho
  have hlive := h.2
  rw [ho.hasLive] at hlive
  cases hlive

theorem Parked.reason_of_waits (h : s.Parked) {reason : String} (hw : s.waitsFor reason = true) :
    reason = "RECONCILIATION" := by
  rw [waitsFor_eq_true] at hw
  rcases h.1 with ht | hr
  · rw [hw.1] at ht
    cases ht
  · rw [waitsFor_eq_true] at hr
    exact Option.mem_unique hw.2 hr.2

/-- The part of `Parked` that is about the state. -/
def Rests (s : Step) : Prop := s.state.terminal = true ∨ s.waitsFor "RECONCILIATION" = true

theorem rests_congr (h : s.Rests) (hs : s'.state = s.state) (hw : s'.waitReason = s.waitReason) :
    s'.Rests := by
  simpa [Rests, waitsFor, hs, hw] using h

theorem Moves.rests {k : Option VisitKind} {u : Option StatusMove} (hm : Moves r id s k u s')
    (h : s.Parked) : s'.Rests := by
  have hrest : s.Rests := h.1
  cases hm with
  | mint now windowMs =>
    obtain ⟨v, hv⟩ := mintWindow_eq s (now + millis windowMs)
    rw [hv]
    exact rests_congr hrest rfl rfl
  | derive x windowMs =>
    obtain ⟨v, hv⟩ := mintWindow_eq s (x.createdAt + durationMs windowMs)
    rw [hv]
    exact rests_congr hrest rfl rfl
  | skip _ hs => exact absurd hs h.not_blocked
  | succeedControl _ hs => exact absurd hs h.not_blocked
  | ready _ hs => exact absurd hs h.not_blocked
  | requestApproval _ _ _ _ hs => exact absurd hs h.not_blocked
  | lateApproval a _ _ _ hs =>
    rw [requestApproval_closed hs]
    exact rests_congr hrest rfl rfl
  | parkDelay _ _ _ _ hs => exact absurd hs h.not_blocked
  | lateDelay timer dueAt _ _ hs =>
    rw [parkDelay_closed hs]
    exact rests_congr hrest rfl rfl
  | fireRetry _ _ _ hw => exact absurd (h.reason_of_waits hw) (by decide)
  | fireDelay _ _ _ hw => exact absurd (h.reason_of_waits hw) (by decide)
  | grant _ _ _ _ _ hs => exact absurd hs h.not_ready
  | start => exact rests_congr hrest rfl rfl
  | renew => exact rests_congr hrest rfl rfl
  | acknowledge => exact rests_congr hrest rfl rfl
  | park _ _ howns => exact absurd howns h.not_owned
  | fence a _ _ _ howns =>
    obtain ⟨x, hx, hid, hlive, -⟩ := howns
    exact absurd ⟨x, hx, hid, hlive⟩ h.not_owned
  | claimHold => exact .inr rfl
  | approve => exact .inl rfl
  | readyHandoff _ _ hw => exact absurd (h.reason_of_waits hw) (by decide)

theorem Unsettles.rests {k : VisitKind} (hm : Unsettles r id s k s') (h : s.Parked)
    (hr : s'.retried = false) : s'.Rests := by
  cases hm with
  | finish _ howns => exact absurd howns h.not_owned
  | confirm =>
    split
    · exact .inl rfl
    · exact rests_congr h.1 rfl rfl
  | retry case actor now timer dueAt _ hc =>
    have hholds : (s.parkRetry timer dueAt).Holds case := hc
    rw [retried_resolveCase hholds] at hr
    cases hr

/-- Only a confirmed retry opens a parked step. -/
theorem Transits.parked {r' : Run} (ht : Transits r r' tr id s s') (hs : s.Sound) (h : s.Parked)
    (hr : s'.retried = false) : s.Frames s' ∧ s'.Parked := by
  have hframes : s.Frames s' := by
    rcases ht.frames hs with ⟨a, l, now, hc, -⟩ | hf
    · exact absurd hc.ready h.not_ready
    · exact hf
  refine ⟨hframes, ?_, hframes.hasLive_eq_false h.2⟩
  change s'.Rests
  cases ht with
  | same => exact h.1
  | moves hm _ _ _ => exact hm.rests h
  | unsettles hm _ _ => exact hm.rests h hr
  | winds hw _ _ =>
    rcases hw.state with ⟨hst, hwr⟩ | ht
    · exact rests_congr h.1 hst hwr
    · exact .inl ht.terminal
  | closes _ _ _ hterm _ => exact .inl hterm
  | held hheld _ =>
    obtain ⟨cases, rfl⟩ := hheld.eq
    exact .inr rfl

end

end Step

/-! ### New ambiguous ends -/

/-- No started attempt of a guarded task is fenced, and no timeout of one is reported with another
effect status than `UNKNOWN`. -/
def Visit.effectGuarded (v : Visit) : Bool :=
  match v.kind with
  | .fence id => (v.run.steps.find? id).all fun s => !(v.run.retryPolicy s).guarded ||
      s.attempts.all fun a => !(a.status.live && a.startedAt.isSome)
  | .closeAttempt id .timedOut effect => (v.run.steps.find? id).all fun s =>
      !(v.run.retryPolicy s).guarded || isUnknownEffect effect
  | _ => true

section

variable {r : Run} {tr : List Visit} {id : StepID} {s s' : Step}

theorem Step.Parks.parked {p : RetryPolicy} {effect : String} {s1 s2 : Step} {u : StatusMove}
    (hp : s1.Parks p effect u s2) (hl : s1.hasLive = false)
    (hretry : isValidRecoveryPolicy p.recovery = true →
      requiresReconciliation p.recovery effect = false → s1.ambiguous = false)
    (ha : s2.ambiguous = true) : s2.Parked := by
  cases hp with
  | retry _ _ _ hvalid hclear =>
    have hno : s1.ambiguous = false := hretry hvalid hclear
    change s1.ambiguous = true at ha
    rw [hno] at ha
    cases ha
  | hold => exact ⟨.inr rfl, hl⟩

/-- A move that leaves a guarded step ambiguous parks it. -/
theorem Step.Moves.parks {k : Option VisitKind} {u : Option StatusMove} (hm : Moves r id s k u s')
    (hv : ∀ x ∈ k, ⟨x, r⟩ ∈ tr) (hP : ∀ v ∈ tr, v.effectGuarded = true)
    (hf : r.steps.find? id = some s) (hg : (r.retryPolicy s).guarded = true) (h : s.Sound)
    (hnew : s.ambiguous = false) (ha : s'.ambiguous = true) : s'.Parked := by
  -- Nothing else than a closed or fenced attempt becomes ambiguous.
  have hsame (hatt : s'.attempts = s.attempts) : s'.Parked := by
    rw [ambiguous, hatt] at ha
    rw [ambiguous, ha] at hnew
    cases hnew
  have hnone (hno : s'.ambiguous = false) : s'.Parked := by
    rw [hno] at ha
    cases ha
  cases hm with
  | mint now windowMs =>
    obtain ⟨v, hv⟩ := mintWindow_eq s (now + millis windowMs)
    exact hsame (by rw [hv])
  | derive x windowMs =>
    obtain ⟨v, hv⟩ := mintWindow_eq s (x.createdAt + durationMs windowMs)
    exact hsame (by rw [hv])
  | requestApproval a _ _ _ hs => exact hsame (by rw [requestApproval_blocked hs])
  | lateApproval a _ _ _ hs => exact hsame (by rw [requestApproval_closed hs])
  | parkDelay timer dueAt _ _ hs => exact hsame (by rw [parkDelay_blocked hs])
  | lateDelay timer dueAt _ _ hs => exact hsame (by rw [parkDelay_closed hs])
  | grant a l now _ _ _ _ hrows =>
    refine hnone (ambiguous_of_closed (p := fun a' => a' = a) (fun a' ha' => ?_) ?_ hnew)
    · rcases List.mem_append.mp ha' with hm | hm
      · exact .inl hm
      · exact .inr (List.mem_singleton.mp hm)
    · rintro _ - rfl
      simp [Attempt.ambiguous, hrows.status]
  | start a started deadline =>
    refine hnone (ambiguous_of_closed (p := fun a' => a'.status = .running) (fun a' ha' => ?_) ?_ hnew)
    · rcases mem_updateAttempt ha' with hm | ⟨x, -, -, -, rfl⟩
      · exact .inl hm
      · exact .inr rfl
    · intro a' _ hs
      simp [Attempt.ambiguous, hs]
  | acknowledge a now stopped =>
    refine hnone (ambiguous_of_closed (p := fun a' => ∃ x ∈ s.attempts, a'.outcome = x.outcome)
      (fun a' ha' => ?_) ?_ hnew)
    · rcases mem_updateAttempt ha' with hm | ⟨x, hx, -, -, rfl⟩
      · exact .inl hm
      · exact .inr ⟨x, hx, rfl⟩
    · rintro a' - ⟨x, hx, ho⟩
      rw [ambiguous_of_outcome ho]
      simpa using List.any_eq_false.mp hnew x hx
  | @park s1 s2 u status effect a _ howns hc hfailed hsaid hp =>
    refine hp.parked (hc.idle h howns).1 (fun hvalid hclear => ?_) ha
    -- A retry says that the effect is known, so the attempt timed out with a known effect.
    have hknown := RetryPolicy.not_clear_of_guarded hg hvalid hclear
    refine ambiguous_of_closed (p := fun a' => a'.id = a) (fun a' ha' => ?_) (fun a' ha' hid => ?_) hnew
    · exact (hc.mem ha').imp_right And.left
    · cases hamb : a'.ambiguous with
      | false => rfl
      | true =>
        rcases hsaid a' ha' hid hamb with hunknown | rfl
        · rw [hknown] at hunknown
          cases hunknown
        · have hvisit := hP _ (hv _ rfl)
          simp only [Visit.effectGuarded, hf, Option.all_some, hg, Bool.not_true, Bool.false_or]
            at hvisit
          rw [hknown] at hvisit
          cases hvisit
  | fence a epoch error now howns =>
    have hvisit := hP _ (hv _ rfl)
    simp only [Visit.effectGuarded, hf, Option.all_some, hg, Bool.not_true, Bool.false_or,
      List.all_eq_true] at hvisit
    have hatt : (s.fence a epoch error now).attempts =
        (s.updateAttempt a (fun a => a.status.live) fun a =>
          { a with status := .lost, completedAt := some now, error := some error }).attempts := by
      unfold Step.fence
      split <;> rfl
    refine hnone (ambiguous_of_closed (p := fun a' => a'.startedAt = none) (fun a' ha' => ?_) ?_ hnew)
    · rw [hatt] at ha'
      rcases mem_updateAttempt ha' with hm | ⟨x, hx, -, hlive, rfl⟩
      · exact .inl hm
      · have := hvisit x hx
        rw [hlive] at this
        exact .inr (by simpa using this)
    · intro a' _ hs
      simp [Attempt.ambiguous, hs]
  | _ => exact hsame rfl

theorem Step.Unsettles.parks {k : VisitKind} (hm : Unsettles r id s k s')
    (hnew : s.ambiguous = false) (ha : s'.ambiguous = true) : s'.Parked := by
  have hnone (hno : s'.ambiguous = false) : s'.Parked := by
    rw [hno] at ha
    cases ha
  cases hm with
  | finish a _ hc _ =>
    refine hnone (ambiguous_of_closed (p := fun a' => a'.status = .succeeded) (fun a' ha' => ?_) ?_ hnew)
    · exact (hc.mem ha').imp_right And.right
    · intro a' _ hs
      simp [Attempt.ambiguous, hs]
  | confirm =>
    refine hnone ?_
    split <;> exact hnew
  | retry => exact hnone hnew

theorem Step.Transits.parks {r' : Run} (ht : Transits r r' tr id s s')
    (hP : ∀ v ∈ tr, v.effectGuarded = true) (hf : r.steps.find? id = some s)
    (hg : (r.retryPolicy s).guarded = true) (h : s.Sound) (hnew : s.ambiguous = false)
    (ha : s'.ambiguous = true) : s'.Parked := by
  have hnone (hno : s'.ambiguous = false) : s'.Parked := by
    rw [hno] at ha
    cases ha
  cases ht with
  | same => exact hnone hnew
  | moves hm _ hv _ => exact hm.parks hv hP hf hg h hnew ha
  | unsettles hm _ _ => exact hm.parks hnew ha
  | winds hw _ _ =>
    rcases hw.revoked with hatt | ⟨hl, hterm⟩
    · exact hnone (by rw [ambiguous, hatt]; exact hnew)
    · exact ⟨.inl hterm, hl⟩
  | closes howns hc hw hterm _ => exact ⟨.inl hterm, (hc.wound hw h howns).2.1⟩
  | held hs _ =>
    obtain ⟨cases, rfl⟩ := hs.eq
    exact hnone hnew

end

/-! ### Every run -/

/-- A guarded step with an ambiguous attempt is parked until an operator confirms a retry. -/
def Run.Cautious (r : Run) : Prop :=
  ∀ id s, r.steps.find? id = some s → (r.retryPolicy s).guarded = true → s.ambiguous = true →
    s.retried = false → s.Parked

theorem Run.Created.cautious {r : Run} (h : r.Created) : r.Cautious := by
  intro id s hs _ ha
  obtain ⟨n, t, rfl⟩ := h.step hs
  cases ha

theorem View.Change.cautious {a b : View} (hc : a.Change b) (ha : a.run.Sound)
    (h : a.run.Cautious) (hP : ∀ v ∈ b.trace, v.effectGuarded = true) : b.run.Cautious := by
  intro id s' hs' hg hamb hr
  obtain ⟨s, hs, ht⟩ := hc.transits ha hs'
  have hsound : s.Sound := ha.steps.find hs
  obtain ⟨s1, hs1, hn, -⟩ := hc.keeps id s hs
  obtain rfl := Option.mem_unique hs' hs1
  rw [Run.retryPolicy_of_pinned hc.pinned hn] at hg
  have hr0 : s.retried = false := by
    cases hr0 : s.retried with
    | false => rfl
    | true =>
      rw [ht.retried hr0] at hr
      cases hr
  cases hold : s.ambiguous with
  | true => exact (ht.parked hsound (h id s hs hg hold hr0) hr).2
  | false => exact ht.parks hP hs hg hsound hold hamb

/-- What stays of an ambiguous step: the attempts it has, as long as no operator confirms a
retry. -/
theorem View.Operates.frozen {a b : View} {id : StepID} {s : Step} (hab : a.Operates b)
    (ha : a.run.Sound) (hP : ∀ v ∈ b.trace, v.effectGuarded = true) (h : a.run.Cautious)
    (hs : a.run.steps.find? id = some s) (hg : (a.run.retryPolicy s).guarded = true)
    (hamb : s.ambiguous = true) :
    b.run.Cautious ∧ ∃ s', b.run.steps.find? id = some s' ∧
      (b.run.retryPolicy s').guarded = true ∧ s'.ambiguous = true ∧
      (s'.retried = true ∨ s'.claims = s.claims) := by
  refine hab.invariant (J := fun v => v.run.Cautious ∧ ∃ s', v.run.steps.find? id = some s' ∧
    (v.run.retryPolicy s').guarded = true ∧ s'.ambiguous = true ∧
    (s'.retried = true ∨ s'.claims = s.claims)) ?_ ha hP ⟨h, s, hs, hg, hamb, .inr rfl⟩
  rintro a b ha ⟨hcau, s1, hs1, hg1, hamb1, hkept⟩ hP hc
  refine ⟨hc.cautious ha hcau hP, ?_⟩
  obtain ⟨s2, hs2, hn, -⟩ := hc.keeps id s1 hs1
  obtain ⟨s0, hs0, ht⟩ := hc.transits ha hs2
  obtain rfl := Option.mem_unique hs1 hs0
  have hsound : s1.Sound := ha.steps.find hs1
  refine ⟨s2, hs2, by rw [Run.retryPolicy_of_pinned hc.pinned hn]; exact hg1, ?_, ?_⟩
  · rcases ht.frames hsound with ⟨x, l, now, -, rfl⟩ | hf
    · rw [Step.ambiguous] at hamb1 ⊢
      simp [Step.grant, hamb1]
    · exact hf.ambiguous hamb1
  · cases hr2 : s2.retried with
    | true => exact .inl rfl
    | false =>
      have hr1 : s1.retried = false := by
        cases hr1 : s1.retried with
        | false => rfl
        | true =>
          rw [ht.retried hr1] at hr2
          cases hr2
      have hf := (ht.parked hsound (hcau id s1 hs1 hg1 hamb1 hr1) hr2).1
      refine .inr ((Step.claims_of_ages hf.attempts).trans ?_)
      exact hkept.resolve_left (by simp [hr1])

section

variable [Platform]

/-- In a run in which no started attempt of a guarded task is fenced and every reported timeout of
one has an unknown effect, a guarded step with an ambiguous attempt is never `READY` again and is
never claimed again, unless an operator confirmed a retry. -/
theorem ambiguous_never_repeated (fleet : Fleet) (os ps : List Operation)
    (hP : ∀ v ∈ (installation.exec (World.initial fleet) (os ++ ps)).db.sys.trace,
      v.effectGuarded = true) (id : RunID) (r : Run)
    (hr : (installation.exec (World.initial fleet) os).db.runs.find? id = some r) (k : StepID)
    (s : Step) (hs : r.steps.find? k = some s) (hg : (r.retryPolicy s).guarded = true)
    (ha : s.ambiguous = true) :
    ∃ r' s', (installation.exec (World.initial fleet) (os ++ ps)).db.runs.find? id = some r' ∧
      r'.steps.find? k = some s' ∧
      (s'.retried = true ∨ s'.state ≠ .ready ∧ s'.claims = s.claims) := by
  obtain ⟨r', hr', hop⟩ := installation_append ps hr
  have hP' : ∀ v ∈ (installation.exec (World.initial fleet) os).db.sys.trace,
      v.effectGuarded = true := by
    intro v hv
    obtain ⟨vs, hvs⟩ := hop.trace
    simp only at hvs
    exact hP v (by rw [hvs]; exact List.mem_append_left _ hv)
  obtain ⟨hsound, -, hcau⟩ := installation_invariant (J := fun v => v.run.Cautious)
    (P := fun v => v.effectGuarded = true) (fun _ _ hc => hc.cautious)
    (fun _ _ ha hJ hP hc => hc.cautious ha hJ hP) hP' hr
  obtain ⟨hcau', s', hs', hg', ha', hkept⟩ := hop.frozen hsound hP hcau hs hg ha
  refine ⟨r', s', hr', hs', ?_⟩
  cases hretried : s'.retried with
  | true => exact .inl rfl
  | false =>
    have hparked := hcau' k s' hs' hg' ha' hretried
    exact .inr ⟨hparked.not_ready, hkept.resolve_left (by simp [hretried])⟩

end

/-! ### The two ways out -/

theorem ambiguous_never_repeated_held :
    ∃ r s, ((@installation Sample.platform).exec (World.initial (Sample.single "reconcile" none))
        (Sample.failedUnknown.map .engine)).db.runs.find? 0 = some r ∧ r.steps.find? 1 = some s ∧
      s.ambiguous = true ∧
      ∃ r' s', ((@installation Sample.platform).exec
          (World.initial (Sample.single "reconcile" none))
          (Sample.failedUnknown.map .engine ++
            [.engine (.claimSnapshot Sample.session 1 [])])).db.runs.find? 0 =
            some r' ∧ r'.steps.find? 1 = some s' ∧
        (s'.retried = true ∨ s'.state ≠ .ready ∧ s'.claims = s.claims) :=
  ⟨_, _, rfl, rfl, rfl,
    @ambiguous_never_repeated Sample.platform (Sample.single "reconcile" none)
      (Sample.failedUnknown.map .engine) [.engine (.claimSnapshot Sample.session 1 [])] (List.all_eq_true.mp rfl)
      0 _ rfl 1 _ rfl rfl rfl⟩

/-- A worker is revoked while it executes a task that must be reconciled: the started attempt is
lost, and the lease sweep makes the step `READY`. -/
theorem fenced_ready_again :
    (((@installation Sample.platform).exec (World.initial (Sample.single "reconcile" none))
        (Sample.handedOff.map .engine)).db.runs.find? 0).any (fun r =>
      (r.steps.find? 1).any fun s => (r.retryPolicy s).guarded && s.ambiguous && !s.retried &&
        s.state == .ready) = true := by
  decide +kernel

end Deadbolt.Execution

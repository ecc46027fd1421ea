import Deadbolt.Lifecycle.Automaton

/-!
# Ownership and shape

What every move keeps, whatever the environment does: a live attempt owns the lease of its
step and a lease has a live owner, so a step has one live attempt at most; a closed run has
no `READY` or `BLOCKED` step; and the steps of a run are the nodes of its workflow.
-/

namespace Deadbolt.Execution

open Base Contracts

theorem RunStatus.closing_of_schedulable {s : RunStatus} (h : s.schedulable = true) :
    s.closing = false := by
  cases s <;> first | rfl | cases h

namespace Step

/-- Attempts and leases belong together. -/
structure Sound (s : Step) : Prop where
  owner : ∀ a ∈ s.attempts, a.status.live = true → ∃ l, s.lease = some l ∧ l.attemptID = a.id
  leased : ∀ l, s.lease = some l → s.Owns l.attemptID
  ids : s.attemptIDs.Nodup
  unstarted : ∀ a ∈ s.attempts, a.status = .claimed → a.startedAt = none
  handoff : s.waitsFor "RECOVERY_HANDOFF" = true → s.hasLive = false
  asked : s.approval.isSome = true → s.kind = .approval

variable {s s' s1 : Step} {id : AttemptID} {a : Attempt} {policy : RetryPolicy}
  {status : AttemptStatus} {r : Run} {k : Option VisitKind} {u : Option StatusMove}

@[simp] theorem waitsFor_eq_true {reason : String} :
    s.waitsFor reason = true ↔ s.state = .waiting ∧ s.waitReason = some reason := by
  simp [waitsFor]

theorem hasLive_eq_false : s.hasLive = false ↔ ∀ a ∈ s.attempts, a.status.live = false := by
  simp [hasLive]

theorem Owns.hasLive (h : s.Owns id) : s.hasLive = true := by
  obtain ⟨a, ha, -, hl⟩ := h
  exact List.any_eq_true.mpr ⟨a, ha, hl⟩

theorem Sound.of_idle (hl : s.hasLive = false) (hn : s.lease = none) (hids : s.attemptIDs.Nodup)
    (ha : s.approval.isSome = true → s.kind = .approval) : s.Sound where
  owner a ha hlive := by rw [hasLive_eq_false.mp hl a ha] at hlive; cases hlive
  leased l h := by rw [hn] at h; cases h
  ids := hids
  unstarted a ha hs := by simpa [hs, AttemptStatus.live] using hasLive_eq_false.mp hl a ha
  handoff _ := hl
  asked := ha

/-- Soundness looks at attempts and the lease, and at the state of a handed off step. -/
theorem Sound.congr (h : s.Sound) (ha : s'.attempts = s.attempts) (hl : s'.lease = s.lease)
    (hap : s'.approval.isSome = s.approval.isSome) (hk : s'.kind = s.kind)
    (hw : s'.waitsFor "RECOVERY_HANDOFF" = true →
      s.waitsFor "RECOVERY_HANDOFF" = true ∨ s.hasLive = false) : s'.Sound where
  owner a hmem hlive := by
    rw [hl]
    exact h.owner a (ha ▸ hmem) hlive
  leased l hlease := by
    obtain ⟨a, hmem, hid⟩ := h.leased l (hl ▸ hlease)
    exact ⟨a, ha ▸ hmem, hid⟩
  ids := by
    rw [attemptIDs, ha]
    exact h.ids
  unstarted a hmem := h.unstarted a (ha ▸ hmem)
  handoff hwait := by
    have hs : s'.hasLive = s.hasLive := by simp only [hasLive, ha]
    rw [hs]
    rcases hw hwait with hw | hw
    · exact h.handoff hw
    · exact hw
  asked := by
    rw [hap, hk]
    exact h.asked

theorem Sound.unique (h : s.Sound) (ho : s.Owns id) (ha : a ∈ s.attempts)
    (hlive : a.status.live = true) : a.id = id := by
  obtain ⟨b, hb, rfl, hbl⟩ := ho
  obtain ⟨l, hl, hlid⟩ := h.owner b hb hbl
  obtain ⟨l', hl', hlid'⟩ := h.owner a ha hlive
  rw [hl] at hl'
  cases hl'
  rw [← hlid', hlid]

theorem Sound.eq_of_id (h : s.Sound) {b : Attempt} (ha : a ∈ s.attempts) (hb : b ∈ s.attempts)
    (hid : a.id = b.id) : a = b :=
  List.inj_on_of_nodup_map h.ids ha hb hid

theorem Sound.lease_of_owns (h : s.Sound) (ho : s.Owns id) :
    ∃ l, s.lease = some l ∧ l.attemptID = id := by
  obtain ⟨a, ha, rfl, hlive⟩ := ho
  exact h.owner a ha hlive

private theorem updateAttempt_not_live (h : s.Sound) (ho : s.Owns id) (p : Attempt → Bool)
    (hp : ∀ a, a.status.live = true → p a = true) (f : Attempt → Attempt)
    (hf : ∀ a, (f a).status.live = false) : (s.updateAttempt id p f).hasLive = false := by
  rw [hasLive_eq_false]
  intro a ha
  obtain ⟨b, hb, rfl⟩ := List.mem_map.mp ha
  split
  · exact hf b
  · next hn =>
    cases hbl : b.status.live with
    | false => rfl
    | true => exact absurd ⟨h.unique ho hb hbl, hp b hbl⟩ hn

theorem attemptIDs_map {l : List Attempt} {f : Attempt → Attempt} (hf : ∀ a, (f a).id = a.id) :
    (l.map f).map Attempt.id = l.map Attempt.id := by
  rw [List.map_map]
  exact List.map_congr_left fun a _ => hf a

theorem attemptIDs_updateAttempt (s : Step) (id : AttemptID) (p : Attempt → Bool)
    {f : Attempt → Attempt} (hf : ∀ a, (f a).id = a.id) :
    (s.updateAttempt id p f).attemptIDs = s.attemptIDs := by
  refine attemptIDs_map fun a => ?_
  split
  · exact hf a
  · rfl

theorem attemptIDs_revoke (l : List Attempt) (code message : String) (now grace : Time) :
    (l.map fun a => a.revoke code message now grace).map Attempt.id = l.map Attempt.id := by
  refine attemptIDs_map fun a => ?_
  unfold Attempt.revoke
  split <;> rfl

theorem nodup_revokeSiblings (h : s.attemptIDs.Nodup) (now : Time) :
    (s.revokeSiblings now).attemptIDs.Nodup := by
  rw [attemptIDs, revokeSiblings, attemptIDs_revoke]
  exact h

theorem nodup_revokeCancelled (h : s.attemptIDs.Nodup) (now graceUntil : Time) :
    (s.revokeCancelled now graceUntil).attemptIDs.Nodup := by
  rw [attemptIDs, revokeCancelled, attemptIDs_revoke]
  exact h

theorem attemptIDs_fence (s : Step) (id : AttemptID) (epoch : Int) (error : Json) (now : Time) :
    (s.fence id epoch error now).attemptIDs = s.attemptIDs := by
  have := attemptIDs_updateAttempt s id (fun a => a.status.live)
    (f := fun a => { a with status := .lost, completedAt := some now, error := some error })
    fun _ => rfl
  unfold fence
  split <;> exact this

theorem mintWindow_eq (s : Step) (t : Time) :
    ∃ v, s.mintWindow t = { s with idempotencyValidUntil := v } := by
  unfold mintWindow
  split <;> exact ⟨_, rfl⟩

theorem Closes.idle (hc : s.Closes policy id status s1) (h : s.Sound) (ho : s.Owns id) :
    s1.hasLive = false ∧ s1.lease = none := by
  induction hc with
  | complete hstatus _ =>
    refine ⟨updateAttempt_not_live h ho _ (fun _ _ => rfl) _ fun _ => hstatus, ?_⟩
    obtain ⟨l, hl, hid⟩ := h.lease_of_owns ho
    simp [Step.complete, deleteLeaseOf, updateAttempt, hl, hid, Option.filter]
  | lose hstatus _ =>
    exact ⟨updateAttempt_not_live h ho _ (fun _ hl => hl) _ fun _ => hstatus, rfl⟩
  | minted _ x windowMs _ _ ih =>
    obtain ⟨v, hv⟩ := mintWindow_eq _ (x.createdAt + durationMs windowMs)
    rw [hv]
    exact ih

theorem Closes.eq (hc : s.Closes policy id status s1) :
    ∃ state reason output attempts lease v, s1 = { s with
      state := state, waitReason := reason, output := output, attempts := attempts, lease := lease
      idempotencyValidUntil := v } := by
  induction hc with
  | complete => exact ⟨_, _, _, _, _, _, rfl⟩
  | lose => exact ⟨_, _, _, _, _, _, rfl⟩
  | minted _ x windowMs _ _ ih =>
    obtain ⟨_, _, _, _, _, _, rfl⟩ := ih
    obtain ⟨v, hv⟩ := mintWindow_eq _ (x.createdAt + durationMs windowMs)
    exact ⟨_, _, _, _, _, v, hv⟩

theorem Closes.attemptIDs (hc : s.Closes policy id status s1) : s1.attemptIDs = s.attemptIDs := by
  induction hc with
  | complete => exact attemptIDs_updateAttempt s id _ fun _ => rfl
  | lose => exact attemptIDs_updateAttempt s id _ fun _ => rfl
  | minted _ x windowMs _ _ ih =>
    obtain ⟨v, hv⟩ := mintWindow_eq _ (x.createdAt + durationMs windowMs)
    rw [hv]
    exact ih

/-- A completion leaves the step terminal and a loss leaves it as it was. -/
theorem Closes.state (hc : s.Closes policy id status s1) :
    s1.state.terminal = true ∨ s.state.terminal = false ∧ s1.state = s.state := by
  induction hc with
  | complete _ hstate => rcases hstate with rfl | rfl | rfl <;> exact .inl rfl
  | lose _ _ hstate => exact .inr ⟨hstate, rfl⟩
  | minted _ x windowMs _ _ ih =>
    obtain ⟨v, hv⟩ := mintWindow_eq _ (x.createdAt + durationMs windowMs)
    rw [hv]
    exact ih

theorem Closes.sound (hc : s.Closes policy id status s1) (h : s.Sound) (ho : s.Owns id) :
    s1.Sound := by
  obtain ⟨hlive, hlease⟩ := hc.idle h ho
  refine .of_idle hlive hlease (hc.attemptIDs ▸ h.ids) ?_
  obtain ⟨_, _, _, _, _, _, rfl⟩ := hc.eq
  exact h.asked

@[simp] theorem isSome_updatePendingApproval (s : Step) (f : Approval → Approval) :
    (s.updatePendingApproval f).approval.isSome = s.approval.isSome := by
  simp [updatePendingApproval]

theorem fence_idle (h : s.Sound) (ho : s.Owns id) (epoch : Int) (error : Json) (now : Time) :
    (s.fence id epoch error now).hasLive = false ∧ (s.fence id epoch error now).lease = none := by
  obtain ⟨l, hl, hid⟩ := h.lease_of_owns ho
  have hn := updateAttempt_not_live h ho (fun a => a.status.live) (fun _ hl => hl)
    (fun a => { a with status := .lost, completedAt := some now, error := some error })
    fun _ => rfl
  unfold fence
  split
  · exact ⟨hn, by simp [deleteLeaseOf, updateAttempt, hl, hid, Option.filter]⟩
  · exact ⟨hn, by simp [deleteLeaseOf, updateAttempt, hl, hid, Option.filter]⟩

private theorem revoke_not_live (a : Attempt) (code message : String) (now grace : Time) :
    (a.revoke code message now grace).status.live = false := by
  unfold Attempt.revoke
  split
  · rfl
  · next h => simpa using h

theorem revokeSiblings_idle (h : s.Sound) (now : Time) :
    (s.revokeSiblings now).hasLive = false ∧ (s.revokeSiblings now).lease = none := by
  refine ⟨?_, ?_⟩
  · rw [hasLive_eq_false]
    intro a ha
    obtain ⟨b, -, rfl⟩ := List.mem_map.mp ha
    exact revoke_not_live b ..
  · cases hl : s.lease with
    | none => simp [revokeSiblings, hl]
    | some l =>
      obtain ⟨a, ha, hid, hlive⟩ := h.leased l hl
      have hany : (s.attempts.any fun a => a.id == l.attemptID && a.status.live) = true :=
        List.any_eq_true.mpr ⟨a, ha, by simp [hid, hlive]⟩
      simp [revokeSiblings, hl, Option.filter, hany]

theorem revokeCancelled_idle (h : s.Sound) (now grace : Time) :
    (s.revokeCancelled now grace).hasLive = false ∧
      (s.revokeCancelled now grace).lease = none := by
  refine ⟨?_, ?_⟩
  · rw [hasLive_eq_false]
    intro a ha
    obtain ⟨b, -, rfl⟩ := List.mem_map.mp ha
    exact revoke_not_live b ..
  · cases hl : s.lease with
    | none => simp [revokeCancelled, hl]
    | some l => simp [revokeCancelled, (h.leased l hl).hasLive]

private theorem Sound.start (h : s.Sound) {a : AttemptID} (started deadline : Time)
    (ha : ∃ x ∈ s.attempts, x.id = a ∧ x.status = .claimed) :
    (s.start a started deadline).Sound := by
  have howns : s.Owns a := by
    obtain ⟨x, hx, hid, hs⟩ := ha
    exact ⟨x, hx, hid, by simp [hs, AttemptStatus.live]⟩
  obtain ⟨l, hl, hlid⟩ := h.lease_of_owns howns
  refine ⟨?_, ?_, ?_, ?_, ?_, h.asked⟩
  · intro b hb hlive
    obtain ⟨x, hx, rfl⟩ := List.mem_map.mp hb
    by_cases hxa : x.id = a
    · exact ⟨l, hl, by simp [hxa, hlid]⟩
    · simp only [hxa, false_and, if_false] at hlive ⊢
      exact h.owner x hx hlive
  · intro l' hl'
    have hle : l' = l := Option.mem_unique hl' hl
    obtain ⟨x, hx, hid, -⟩ := ha
    refine ⟨{ x with status := .running, startedAt := some started, deadlineAt := some deadline },
      List.mem_map.mpr ⟨x, hx, by simp [hid]⟩, by simp [hle, hlid, hid], rfl⟩
  · rw [Step.start, attemptIDs_updateAttempt]
    · exact h.ids
    · exact fun _ => rfl
  · intro b hb hclaimed
    obtain ⟨x, hx, rfl⟩ := List.mem_map.mp hb
    by_cases hxa : x.id = a
    · simp [hxa] at hclaimed
    · simp only [hxa, false_and, if_false] at hclaimed ⊢
      exact h.unstarted x hx hclaimed
  · intro hw
    have := h.handoff hw
    rw [howns.hasLive] at this
    cases this

private theorem Sound.renewLease (h : s.Sound) (a : AttemptID) (t : Time) :
    (s.renewLease a t).Sound := by
  refine ⟨?_, ?_, h.ids, h.unstarted, h.handoff, h.asked⟩
  · intro b hb hlive
    obtain ⟨l, hl, hid⟩ := h.owner b hb hlive
    refine ⟨if l.attemptID = a then { l with expiresAt := t } else l, ?_, ?_⟩
    · simp [Step.renewLease, hl]
    · split <;> exact hid
  · intro l hl
    obtain ⟨l', hl', rfl⟩ := Option.map_eq_some_iff.mp hl
    have := h.leased l' hl'
    split <;> exact this

private theorem Sound.acknowledge (h : s.Sound) (a : AttemptID) (now : Time) (stopped : Bool) :
    (s.updateAttempt a (fun _ => true) fun x => x.acknowledge now stopped).Sound := by
  have hsame (x : Attempt) : (if x.id = a ∧ true = true then x.acknowledge now stopped else x).id =
      x.id ∧ (if x.id = a ∧ true = true then x.acknowledge now stopped else x).status = x.status ∧
        (if x.id = a ∧ true = true then x.acknowledge now stopped else x).startedAt = x.startedAt := by
    split <;> exact ⟨rfl, rfl, rfl⟩
  refine ⟨?_, ?_, ?_, ?_, ?_, h.asked⟩
  · intro b hb hlive
    obtain ⟨x, hx, rfl⟩ := List.mem_map.mp hb
    rw [(hsame x).2.1] at hlive
    rw [(hsame x).1]
    exact h.owner x hx hlive
  · intro l hl
    obtain ⟨x, hx, hid, hlive⟩ := h.leased l hl
    exact ⟨_, List.mem_map.mpr ⟨x, hx, rfl⟩, by rw [(hsame x).1, hid],
      by rw [(hsame x).2.1, hlive]⟩
  · rw [attemptIDs_updateAttempt]
    · exact h.ids
    · exact fun _ => rfl
  · intro b hb hclaimed
    obtain ⟨x, hx, rfl⟩ := List.mem_map.mp hb
    rw [(hsame x).2.1] at hclaimed
    rw [(hsame x).2.2]
    exact h.unstarted x hx hclaimed
  · intro hw
    have hn := hasLive_eq_false.mp (h.handoff hw)
    rw [hasLive_eq_false]
    intro b hb
    obtain ⟨x, hx, rfl⟩ := List.mem_map.mp hb
    rw [(hsame x).2.1]
    exact hn x hx

private theorem Sound.grant (h : s.Sound) {l : Lease} (hl : s.lease = none)
    (ha : a.status = .claimed) (hid : l.attemptID = a.id) (hstarted : a.startedAt = none)
    (hfresh : ∀ x ∈ s.attempts, x.id ≠ a.id) : (s.grant a l).Sound := by
  have hidle : ∀ b ∈ s.attempts, b.status.live = false := by
    intro b hb
    cases hbl : b.status.live with
    | false => rfl
    | true =>
      obtain ⟨l', hl', -⟩ := h.owner b hb hbl
      rw [hl] at hl'
      cases hl'
  refine ⟨?_, ?_, ?_, ?_, by simp [Step.grant], h.asked⟩
  · intro b hb hlive
    rcases List.mem_append.mp hb with hb | hb
    · rw [hidle b hb] at hlive
      cases hlive
    · obtain rfl := List.mem_singleton.mp hb
      exact ⟨l, rfl, hid⟩
  · intro l' hl'
    obtain rfl : l = l' := Option.some.inj hl'
    exact ⟨a, List.mem_append.mpr (.inr (List.mem_singleton.mpr rfl)), hid.symm,
      by simp [ha, AttemptStatus.live]⟩
  · have hids : (s.grant a l).attemptIDs = s.attemptIDs ++ [a.id] := by
      simp [attemptIDs, Step.grant]
    rw [hids, List.nodup_append]
    refine ⟨h.ids, by simp, ?_⟩
    intro x hx y hy
    obtain ⟨b, hb, rfl⟩ := List.mem_map.mp hx
    obtain rfl := List.mem_singleton.mp hy
    exact hfresh b hb
  · intro b hb hclaimed
    rcases List.mem_append.mp hb with hb | hb
    · exact h.unstarted b hb hclaimed
    · obtain rfl := List.mem_singleton.mp hb
      exact hstarted

theorem Sound.moves {id : StepID} (h : s.Sound) (hm : Step.Moves r id s k u s') : s'.Sound := by
  cases hm with
  | mint => unfold mintWindow; split <;> exact h.congr rfl rfl rfl rfl .inl
  | derive => unfold mintWindow; split <;> exact h.congr rfl rfl rfl rfl .inl
  | skip => exact h.congr rfl rfl rfl rfl (by simp [Step.skip])
  | succeedControl => exact h.congr rfl rfl rfl rfl (by simp [succeed])
  | ready => exact h.congr rfl rfl rfl rfl (by simp [makeReady])
  | requestApproval _ _ _ hk hs =>
    rw [requestApproval_blocked hs]
    exact ⟨h.owner, h.leased, h.ids, h.unstarted, by simp, fun _ => hk⟩
  | lateApproval _ _ _ hk hs =>
    rw [requestApproval_closed hs]
    exact ⟨h.owner, h.leased, h.ids, h.unstarted, h.handoff, fun _ => hk⟩
  | parkDelay _ _ _ _ hs =>
    rw [parkDelay_blocked hs]
    exact h.congr rfl rfl rfl rfl (by simp)
  | lateDelay _ _ _ _ hs =>
    rw [parkDelay_closed hs]
    exact h.congr rfl rfl rfl rfl .inl
  | fireRetry => exact h.congr rfl rfl rfl rfl (by simp [makeReady])
  | fireDelay => exact h.congr rfl rfl rfl rfl (by simp [succeed])
  | grant a l now _ _ _ hl hg => exact h.grant hl hg.status hg.owner hg.startedAt hg.fresh
  | start a started deadline ha => exact h.start started deadline ha
  | renew a t => exact h.renewLease a t
  | acknowledge a now stopped => exact h.acknowledge a now stopped
  | park a _ howns hc _ _ hp =>
    obtain ⟨hlive, hlease⟩ := hc.idle h howns
    have hs1 := hc.sound h howns
    cases hp <;> exact .of_idle hlive hlease hs1.ids hs1.asked
  | fence a epoch error now howns =>
    obtain ⟨x, hx, hid, hl, -⟩ := howns
    obtain ⟨hlive, hlease⟩ := fence_idle h ⟨x, hx, hid, hl⟩ epoch error now
    refine .of_idle hlive hlease (attemptIDs_fence s a epoch error now ▸ h.ids) ?_
    unfold Step.fence
    split <;> exact h.asked
  | claimHold => exact h.congr rfl rfl rfl rfl (by simp [hold])
  | approve =>
    exact h.congr rfl rfl (isSome_updatePendingApproval ..) rfl (by simp [succeed])
  | readyHandoff => exact h.congr rfl rfl rfl rfl (by simp [makeReady])

theorem Sound.unsettles {id : StepID} {k : VisitKind} (h : s.Sound)
    (hm : Step.Unsettles r id s k s') : s'.Sound := by
  cases hm with
  | finish a howns hc => exact hc.sound h howns
  | confirm =>
    split
    · exact h.congr rfl rfl rfl rfl (by simp [succeed, resolveCase])
    · exact h.congr rfl rfl rfl rfl .inl
  | retry => exact h.congr rfl rfl rfl rfl (by simp [parkRetry, resolveCase])

theorem Moves.node {id : StepID} (hm : Step.Moves r id s k u s') :
    s'.nodeID = s.nodeID ∧ s'.kind = s.kind := by
  cases hm with
  | mint => unfold mintWindow; split <;> exact ⟨rfl, rfl⟩
  | derive => unfold mintWindow; split <;> exact ⟨rfl, rfl⟩
  | requestApproval a => unfold Step.requestApproval; split <;> exact ⟨rfl, rfl⟩
  | lateApproval a => unfold Step.requestApproval; split <;> exact ⟨rfl, rfl⟩
  | parkDelay timer dueAt => unfold Step.parkDelay; split <;> exact ⟨rfl, rfl⟩
  | lateDelay timer dueAt => unfold Step.parkDelay; split <;> exact ⟨rfl, rfl⟩
  | park a _ _ hc _ _ hp =>
    obtain ⟨_, _, _, _, _, _, rfl⟩ := hc.eq
    cases hp <;> exact ⟨rfl, rfl⟩
  | fence => unfold Step.fence; split <;> exact ⟨rfl, rfl⟩
  | _ => exact ⟨rfl, rfl⟩

theorem Unsettles.node {id : StepID} {k : VisitKind} (hm : Step.Unsettles r id s k s') :
    s'.nodeID = s.nodeID ∧ s'.kind = s.kind := by
  cases hm with
  | finish a _ hc => obtain ⟨_, _, _, _, _, _, rfl⟩ := hc.eq; exact ⟨rfl, rfl⟩
  | confirm => split <;> exact ⟨rfl, rfl⟩
  | retry => exact ⟨rfl, rfl⟩

/-- In a closed run no move makes a step `READY` or `BLOCKED`. -/
theorem Moves.quiet {id : StepID} (hm : Step.Moves r id s k u s')
    (hclosing : r.status.closing = true) (hs : s.state ≠ .ready ∧ s.state ≠ .blocked) :
    s'.state ≠ .ready ∧ s'.state ≠ .blocked := by
  cases hm with
  | mint => unfold mintWindow; split <;> exact hs
  | derive => unfold mintWindow; split <;> exact hs
  | skip => simp [Step.skip]
  | succeedControl => simp [succeed]
  | ready t hb => exact absurd hb hs.2
  | requestApproval _ _ _ _ hb => exact absurd hb hs.2
  | lateApproval _ _ _ _ hcl => rw [requestApproval_closed hcl]; exact hs
  | parkDelay _ _ _ _ hb => exact absurd hb hs.2
  | lateDelay _ _ _ _ hcl => rw [parkDelay_closed hcl]; exact hs
  | fireRetry timer now hopen => exact absurd hclosing (by simp [RunStatus.closing_of_schedulable hopen])
  | fireDelay timer now hopen => exact absurd hclosing (by simp [RunStatus.closing_of_schedulable hopen])
  | grant a l now hopen => exact absurd hclosing (by simp [hopen])
  | start => exact hs
  | renew => exact hs
  | acknowledge => exact hs
  | park a hopen => exact absurd hclosing (by simp [hopen])
  | fence => unfold Step.fence; split <;> simp_all [deleteLeaseOf, updateAttempt]
  | claimHold => simp [hold]
  | approve _ _ _ _ _ hopen => exact absurd hclosing (by simp [hopen])
  | readyHandoff t hopen => exact absurd hclosing (by simp [hopen])

theorem Unsettles.quiet {id : StepID} {k : VisitKind} (hm : Step.Unsettles r id s k s')
    (hs : s.state ≠ .ready ∧ s.state ≠ .blocked) : s'.state ≠ .ready ∧ s'.state ≠ .blocked := by
  cases hm with
  | finish a _ _ h => simp [h]
  | confirm => split <;> simp_all [succeed, resolveCase]
  | retry => simp [parkRetry, resolveCase]

end Step

/-! ### Runs -/

namespace Run

/-- The steps of the run are the nodes of its workflow, in order. -/
def Shaped (r : Run) : Prop :=
  ∃ wf, r.workflow? = some wf ∧
    (r.steps.rows.map fun e => (e.2.nodeID, e.2.kind)) = (wf.nodes.map fun n => (n.id, n.type)) ∧
    (wf.nodes.map WorkflowNode.id).Nodup

/-- What every move of a run keeps. -/
structure Sound (r : Run) : Prop where
  steps : r.EachStep fun _ s => s.Sound
  quiet : r.status.closing = true → r.EachStep fun _ s => s.state ≠ .ready ∧ s.state ≠ .blocked
  shaped : r.Shaped

variable {r r' : Run} {t : EventType}

theorem Logs.eq (h : r.Logs r') : ∃ n events outbox,
    r' = { r with lastEventSequence := n, events := events, outbox := outbox } := by
  induction h with
  | refl => exact ⟨_, _, _, rfl⟩
  | tail _ t x _ _ _ ih =>
    obtain ⟨n, events, outbox, rfl⟩ := ih
    exact ⟨_, _, _, rfl⟩

theorem FailsFrom.id_logs {r0 r1 : Run} {id : StepID} (hf : r.FailsFrom id r0) (hl : r0.Logs r1) :
    r1.id = r.id := by
  obtain ⟨_, _, _, rfl⟩ := hl.eq
  cases hf <;> rfl

theorem Ends.eq (h : Ends t r r') : ∃ n events outbox,
    r' = { r with lastEventSequence := n, events := events, outbox := outbox } := by
  obtain ⟨r1, x, hl, -, rfl⟩ := h
  obtain ⟨n, events, outbox, rfl⟩ := hl.eq
  exact ⟨_, _, _, rfl⟩

theorem Logs.ends {r1 : Run} (h : r.Logs r1) (hslot : r1.hasEventSlot t = true) (x : Payload) :
    Ends t r (r1.pushEvent t x) := ⟨r1, x, h, hslot, rfl⟩

theorem Logs.status (h : r.Logs r') : r'.status = r.status := by
  obtain ⟨_, _, _, rfl⟩ := h.eq
  rfl

theorem Logs.steps (h : r.Logs r') : r'.steps = r.steps := by
  obtain ⟨_, _, _, rfl⟩ := h.eq
  rfl

theorem Ends.status (h : Ends t r r') : r'.status = r.status := by
  obtain ⟨_, _, _, rfl⟩ := h.eq
  rfl

theorem Ends.steps (h : Ends t r r') : r'.steps = r.steps := by
  obtain ⟨_, _, _, rfl⟩ := h.eq
  rfl

theorem Sound.congr (h : r.Sound) (hs : r'.steps = r.steps)
    (hst : r'.status.closing = r.status.closing) (hw : r'.workflow? = r.workflow?) : r'.Sound where
  steps := by
    have := h.steps
    unfold EachStep at this ⊢
    rwa [hs]
  quiet hc := by
    have := h.quiet (hst ▸ hc)
    unfold EachStep at this ⊢
    rwa [hs]
  shaped := by
    obtain ⟨wf, hwf, hrows, hnd⟩ := h.shaped
    exact ⟨wf, hw ▸ hwf, hs ▸ hrows, hnd⟩

theorem Sound.ends (h : r.Sound) (he : Ends t r r') : r'.Sound := by
  obtain ⟨n, events, outbox, rfl⟩ := he.eq
  exact h.congr rfl rfl rfl

theorem Sound.logs (h : r.Sound) (hl : r.Logs r') : r'.Sound := by
  obtain ⟨n, events, outbox, rfl⟩ := hl.eq
  exact h.congr rfl rfl rfl

theorem Shaped.mapRows (h : r.Shaped) {f : StepID → Step → Step} (hs : r'.steps = r.steps.mapRows f)
    (hw : r'.workflow? = r.workflow?)
    (hf : ∀ k s, (f k s).nodeID = s.nodeID ∧ (f k s).kind = s.kind) : r'.Shaped := by
  obtain ⟨wf, hwf, hrows, hnd⟩ := h
  refine ⟨wf, hw ▸ hwf, ?_, hnd⟩
  rw [hs, ← hrows]
  simp [List.map_map, Function.comp_def, hf]

/-- A replaced step keeps a run sound when it is sound, executes the same node and, in a
closed run, is neither `READY` nor `BLOCKED`. -/
theorem Sound.setStep (h : r.Sound) {id : StepID} {s s' : Step} (hf : r.steps.find? id = some s)
    (hs : s'.Sound) (hn : s'.nodeID = s.nodeID ∧ s'.kind = s.kind)
    (hq : r.status.closing = true → s'.state ≠ .ready ∧ s'.state ≠ .blocked) :
    (r.setStep id s').Sound where
  steps := h.steps.setStep hs
  quiet hc := (h.quiet hc).setStep (hq hc)
  shaped := by
    have he : r.setStep id s' = r.updateStep id (fun _ => true) fun old =>
        { s' with nodeID := old.nodeID, kind := old.kind } := by
      rw [updateStep_of_find hf rfl, ← hn.1, ← hn.2]
    rw [he]
    refine h.shaped.mapRows (steps_updateStep ..) rfl ?_
    intro k a
    split <;> exact ⟨rfl, rfl⟩

end Run

/-- A write to every step of a run that ends. -/
structure Step.Ending (f : Step → Step) : Prop where
  node : ∀ s, (f s).nodeID = s.nodeID ∧ (f s).kind = s.kind
  sound : ∀ s, s.Sound → (f s).Sound
  quiet : ∀ s, (f s).state ≠ .ready ∧ (f s).state ≠ .blocked

namespace Step

theorem ending_failFast (failing : Bool) (reason : String) (actor : Option ActorID)
    (now closedAt : Time) : Ending fun s => s.failFast failing reason actor now closedAt where
  node s := by
    unfold Step.failFast cancelOpenWith
    cases failing <;> simp only [Bool.false_eq_true, if_true, if_false]
    · split <;> exact ⟨rfl, rfl⟩
    · exact ⟨rfl, rfl⟩
  sound s h := by
    obtain ⟨hlive, hlease⟩ := revokeSiblings_idle h now
    have hids := nodup_revokeSiblings h.ids now
    unfold Step.failFast cancelOpenWith
    cases failing <;> simp only [Bool.false_eq_true, if_true, if_false]
    · split <;> exact .of_idle hlive hlease hids h.asked
    · exact .of_idle hlive hlease hids h.asked
  quiet s := by
    unfold Step.failFast cancelOpenWith
    cases failing <;> simp only [Bool.false_eq_true, if_true, if_false]
    · split
      · next ht => constructor <;> (intro hs; simp_all [cancelTimers, StepState.terminal])
      · simp [cancelTimers]
    · simp [cancelTimers, failWith, closeOpenCases]

theorem ending_cancelAll (actor : Option ActorID) (now graceUntil closedAt : Time) :
    Ending fun s => s.cancelAll actor now graceUntil closedAt where
  node s := by
    unfold Step.cancelAll cancelOpenWith
    split <;> exact ⟨rfl, rfl⟩
  sound s h := by
    obtain ⟨hlive, hlease⟩ := revokeCancelled_idle h now graceUntil
    have hids := nodup_revokeCancelled h.ids now graceUntil
    have hasked (s' : Step) (hap : s'.approval = s.approval) (hk : s'.kind = s.kind) :
        s'.cancelApproval.approval.isSome = true → s'.kind = .approval := by
      simpa [cancelApproval, hap, hk] using h.asked
    unfold Step.cancelAll cancelOpenWith
    split <;> exact .of_idle hlive hlease hids (hasked _ rfl rfl)
  quiet s := by
    unfold Step.cancelAll cancelOpenWith
    split
    · next ht =>
      constructor <;> (intro hs; simp_all [cancelTimers, cancelApproval, updatePendingApproval,
        closeOpenCases, StepState.terminal])
    · simp [cancelTimers, cancelApproval, updatePendingApproval, closeOpenCases]

theorem ending_failOverdue (closedAt : Time) : Ending fun s => s.failOverdue closedAt where
  node s := by
    unfold Step.failOverdue cancelOpen
    split <;> exact ⟨rfl, rfl⟩
  sound s h := by
    unfold Step.failOverdue cancelOpen
    split
    · exact h.congr rfl rfl rfl rfl .inl
    · exact h.congr rfl rfl rfl rfl (by simp [cancelTimers, closeOpenCases])
  quiet s := by
    unfold Step.failOverdue cancelOpen
    split
    · next ht =>
      constructor <;> (intro hs; simp_all [cancelTimers, closeOpenCases, StepState.terminal])
    · simp [cancelTimers, closeOpenCases]

theorem ending_cancelIdle : Ending cancelIdle where
  node s := by
    unfold cancelIdle
    split <;> exact ⟨rfl, rfl⟩
  sound s h := by
    unfold cancelIdle
    split
    · exact h
    · exact h.congr rfl rfl rfl rfl (by simp)
  quiet s := by
    unfold cancelIdle
    split
    · next ht => constructor <;> (intro hs; simp_all [StepState.terminal])
    · simp

theorem Ending.after_failWith {f : Step → Step} (h : Ending f) (p : Step → Bool)
    (reason : String) : Ending fun s => f (if p s then s.failWith reason else s) where
  node s := by
    split
    · exact h.node _
    · exact h.node _
  sound s hs := by
    split
    · exact h.sound _ (hs.congr rfl rfl rfl rfl (by simp [failWith]))
    · exact h.sound _ hs
  quiet s := h.quiet _

theorem ending_artifactFailure (k id : StepID) : Ending fun s =>
    (if k = id ∧ s.state = .ready then s.failWith "ARTIFACT_UNAVAILABLE" else s).cancelIdle := by
  have := ending_cancelIdle.after_failWith (fun s => decide (k = id ∧ s.state = .ready))
    "ARTIFACT_UNAVAILABLE"
  simpa only [decide_eq_true_eq] using this

theorem ending_handoffExhausted (k id : StepID) : Ending fun s =>
    (if k = id then s.failWith "MAX_ATTEMPTS_EXCEEDED" else s).cancelIdle := by
  have := ending_cancelIdle.after_failWith (fun _ => decide (k = id)) "MAX_ATTEMPTS_EXCEEDED"
  simpa only [decide_eq_true_eq] using this

end Step

namespace Run

theorem Sound.ending {r r' : Run} (h : r.Sound) {f : StepID → Step → Step}
    (hs : r'.steps = r.steps.mapRows f) (hw : r'.workflow? = r.workflow?)
    (hf : ∀ k, Step.Ending (f k)) : r'.Sound where
  steps := by
    unfold EachStep
    rw [hs]
    exact Table.All.mapRows h.steps f fun k s hsound => (hf k).sound s hsound
  quiet _ := by
    unfold EachStep
    rw [hs]
    exact Table.All.mapRows (P := fun _ _ => True) (fun _ _ => trivial) f fun k s _ => (hf k).quiet s
  shaped := h.shaped.mapRows hs hw fun k s => (hf k).node s

end Run

namespace StatusMove

/-- A status write changes the status, the reason, the pause flag and the revision. -/
theorem apply_eq (u : StatusMove) (r : Run) : ∃ status reason pause revision,
    u.apply r = { r with
      status := status, reasonCode := reason, pauseRequested := pause, revision := revision } := by
  cases u <;>
    simp only [apply, Run.recomputeForRetry, Run.recomputeForDelay, Run.recomputeAfterControl,
      Run.parkForReconciliation, Run.parkForQuota, Run.parkForHandoff, Run.leaveQuota,
      Run.markStarted, Run.leaveRetry, Run.leaveHandoff, Run.leaveReconciliation, Run.pause,
      Run.markPaused, Run.resume, Run.clearPause, Run.setStatusIf] <;>
    (repeat' split) <;> exact ⟨_, _, _, _, rfl⟩

@[simp] theorem steps_apply (u : StatusMove) (r : Run) : (u.apply r).steps = r.steps := by
  obtain ⟨_, _, _, _, h⟩ := u.apply_eq r
  rw [h]

theorem steps_follow (u : Option StatusMove) (r : Run) : (follow u r).steps = r.steps := by
  cases u with
  | none => rfl
  | some u => exact u.steps_apply r

@[simp] theorem workflow?_apply (u : StatusMove) (r : Run) : (u.apply r).workflow? = r.workflow? := by
  obtain ⟨_, _, _, _, h⟩ := u.apply_eq r
  rw [h]
  rfl

/-- A status write neither closes an open run nor touches a closed one. -/
theorem closing_apply {u : StatusMove} {r : Run} (hu : u.Admissible r) :
    (u.apply r).status.closing = r.status.closing := by
  cases u with
  | retryWait =>
    simp only [apply, Run.recomputeForRetry, Run.setStatusIf]
    cases hs : r.status <;> (repeat' split) <;> simp_all [RunStatus.schedulable,
      RunStatus.active, RunStatus.closing, RunStatus.terminal]
  | delayWait =>
    simp only [apply, Run.recomputeForDelay, Run.setStatusIf]
    cases hs : r.status <;> (repeat' split) <;> simp_all [RunStatus.schedulable,
      RunStatus.active, RunStatus.closing, RunStatus.terminal]
  | control =>
    simp only [apply, Run.recomputeAfterControl]
    cases hs : r.status <;> (repeat' split) <;> simp_all [RunStatus.closing, RunStatus.terminal]
  | hold =>
    simp only [apply, Run.parkForReconciliation, Run.setStatusIf]
    cases hs : r.status <;> split <;> simp_all [RunStatus.schedulable, RunStatus.active,
      RunStatus.closing, RunStatus.terminal]
  | handoff =>
    simp only [apply, Run.parkForHandoff, Run.setStatusIf]
    cases hs : r.status <;> split <;> simp_all [RunStatus.active, RunStatus.closing, RunStatus.terminal]
  | quota =>
    have := hu.1
    cases hs : r.status <;> simp_all [apply, Run.parkForQuota, RunStatus.active, RunStatus.closing, RunStatus.terminal]
  | leaveQuota =>
    have hc : r.status.closing = false := hu
    simp only [apply, Run.leaveQuota, Run.setStatusIf]
    split <;> simp_all [RunStatus.closing, RunStatus.terminal]
  | started =>
    simp only [apply, Run.markStarted, Run.setStatusIf]
    split <;> simp_all [RunStatus.closing, RunStatus.terminal]
  | leaveRetry =>
    simp only [apply, Run.leaveRetry, Run.setStatusIf, Run.reopened]
    (repeat' split) <;> simp_all [RunStatus.closing, RunStatus.terminal]
  | leaveHandoff =>
    simp only [apply, Run.leaveHandoff, Run.setStatusIf, Run.reopened]
    (repeat' split) <;> simp_all [RunStatus.closing, RunStatus.terminal]
  | leaveReconciliation retry =>
    have := hu.1
    simp only [apply, Run.leaveReconciliation, Run.reopened]
    (repeat' split) <;> simp_all [RunStatus.closing, RunStatus.terminal]
  | holdDrained =>
    have := hu.1
    cases hs : r.status <;> simp_all [apply, RunStatus.schedulable, RunStatus.active,
      RunStatus.closing, RunStatus.terminal]
  | pause =>
    have hc : r.status.closing = false := hu
    simp only [apply, Run.pause]
    split <;> simp_all [RunStatus.closing, RunStatus.terminal, Run.setStatus]
  | pauseDrained =>
    have := hu.1
    simp_all [apply, Run.markPaused, RunStatus.closing, RunStatus.terminal]
  | resume =>
    have hc : r.status.closing = false := hu
    simp only [apply, Run.resume, Run.clearPause, Run.resumeTarget]
    (repeat' split) <;> simp_all [RunStatus.closing, RunStatus.terminal, Run.setStatus]
  | clearPause => rfl

end StatusMove

namespace Run

variable {r r' : Run} {vs : List Visit}

/-- Writes to other columns than the ones soundness looks at keep it. -/
theorem Sound.mapSteps (h : r.Sound) (f : StepID → Step → Step) (hs : r'.steps = r.steps.mapRows f)
    (hr : (r'.status, r'.workflow?) = (r.status, r.workflow?))
    (hf : ∀ k s, (f k s).attempts = s.attempts ∧ (f k s).lease = s.lease ∧
      (f k s).state = s.state ∧ (f k s).waitReason = s.waitReason ∧
      (f k s).nodeID = s.nodeID ∧ (f k s).kind = s.kind ∧ (f k s).approval = s.approval) :
    r'.Sound := by
  obtain ⟨hst, hw⟩ := Prod.mk.inj hr
  refine ⟨?_, ?_, h.shaped.mapRows hs hw fun k s =>
    ⟨(hf k s).2.2.2.2.1, (hf k s).2.2.2.2.2.1⟩⟩
  · unfold EachStep
    rw [hs]
    refine Table.All.mapRows h.steps f fun k s hsound => ?_
    obtain ⟨ha, hl, hstate, hwait, -, hk, hap⟩ := hf k s
    exact hsound.congr ha hl (by rw [hap]) hk fun hwf => .inl (by simpa [hstate, hwait] using hwf)
  · intro hc
    have hq := h.quiet (hst ▸ hc)
    unfold EachStep
    rw [hs]
    refine Table.All.mapRows hq f fun k s hqs => ?_
    rw [(hf k s).2.2.1]
    exact hqs

theorem Sound.follow (h : r.Sound) {u : Option StatusMove} (hu : ∀ x ∈ u, x.Admissible r) :
    (StatusMove.follow u r).Sound := by
  cases u with
  | none => exact h
  | some u =>
    exact h.congr (u.steps_apply r) (StatusMove.closing_apply (hu u rfl)) (u.workflow?_apply r)

theorem Sound.settled (h : r.Sound) (hall : r.AllTerminal) (hs : r'.steps = r.steps)
    (hw : r'.workflow? = r.workflow?) : r'.Sound := by
  refine ⟨?_, fun _ => ?_, ?_⟩
  · have := h.steps
    unfold EachStep at this ⊢
    rwa [hs]
  · unfold EachStep
    rw [hs]
    intro e he
    have ht : e.2.state.terminal = true := hall e he
    constructor <;> (intro hst; simp [hst, StepState.terminal] at ht)
  · obtain ⟨wf, hwf, hrows, hnd⟩ := h.shaped
    exact ⟨wf, hw ▸ hwf, hs ▸ hrows, hnd⟩

theorem Sound.setStatus_settled (h : r.Sound) (hall : r.AllTerminal) (status : RunStatus)
    (reason : Option String) : (r.setStatus status reason).Sound :=
  h.settled hall rfl rfl

theorem Sound.failsFrom {r0 : Run} {id : StepID} (h : r.Sound) (hf : r.FailsFrom id r0) :
    r0.Sound := by
  cases hf with
  | asFound => exact h
  | closed hfind a howns hc hs =>
    refine h.setStep hfind (hc.sound (h.steps.find hfind) howns) ?_ ?_
    · obtain ⟨_, _, _, _, _, _, rfl⟩ := hc.eq
      exact ⟨rfl, rfl⟩
    · intro hcl
      have hq := (h.quiet hcl).find hfind
      rcases hc.state with ht | ⟨-, he⟩
      · constructor <;> (intro hst; simp [hst, StepState.terminal] at ht)
      · rwa [he]
  | expired hfind =>
    refine h.setStep hfind ((h.steps.find hfind).congr rfl rfl
      (Step.isSome_updatePendingApproval ..) rfl .inl) ⟨rfl, rfl⟩ ?_
    intro hcl
    have hq := (h.quiet hcl).find hfind
    exact hq
  | rejected hfind =>
    refine h.setStep hfind ((h.steps.find hfind).congr rfl rfl
      (Step.isSome_updatePendingApproval ..) rfl .inl) ⟨rfl, rfl⟩ ?_
    intro hcl
    have hq := (h.quiet hcl).find hfind
    exact hq
  | @resolved s hfind case hc actor now closedAt =>
    have h1 : (r.setStep id (s.resolveCase case .fail actor now)).Sound := by
      refine h.setStep hfind ((h.steps.find hfind).congr rfl rfl rfl rfl .inl) ⟨rfl, rfl⟩ ?_
      intro hcl
      have hq := (h.quiet hcl).find hfind
      exact hq
    exact h1.mapSteps (fun _ s => s.closeOpenCases (some actor) .fail closedAt) rfl rfl
      fun _ _ => ⟨rfl, rfl, rfl, rfl, rfl, rfl, rfl⟩

theorem Sound.closes {r1 : Run} {t : EventType} (h : r.Sound) (hc : r.Closes vs t r1) :
    r1.Sound := by
  cases hc with
  | fail vs reason actor now closedAt hf hl =>
    exact ((h.failsFrom hf).logs hl).ending (f := fun k s => s.failFast (k == _) reason actor now closedAt)
      rfl rfl fun k => Step.ending_failFast ..
  | failWithoutSteps closedAt hopen hall =>
    exact (h.setStatus_settled hall .failed (some "RUN_DEADLINE_EXCEEDED")).mapSteps
        (fun _ s => s.cancelTimers.closeOpenCases none .fail closedAt) rfl rfl
        fun _ _ => ⟨rfl, rfl, rfl, rfl, rfl, rfl, rfl⟩
  | settleFailed reason hopen hall => exact h.settled hall rfl rfl
  | settleSucceeded output hopen hall => exact h.settled hall rfl rfl
  | cancel actor now graceUntil closedAt hopen =>
    exact h.ending (f := fun _ s => s.cancelAll actor now graceUntil closedAt) rfl rfl
      fun _ => Step.ending_cancelAll ..
  | settleCancelled confirmed hs =>
    refine h.congr rfl ?_ rfl
    rw [hs]
    rfl
  | artifactFailure => exact h.ending rfl rfl fun k => Step.ending_artifactFailure k _
  | @deadlineLost id s s1 a closedAt hf hopen howns hc hs =>
    have hn : s1.nodeID = s.nodeID ∧ s1.kind = s.kind := by
      obtain ⟨_, _, _, _, _, _, rfl⟩ := hc.eq
      exact ⟨rfl, rfl⟩
    have h1 := h.setStep hf (hc.sound (h.steps.find hf) howns) hn fun hcl => by
      rw [hopen] at hcl
      cases hcl
    exact h1.ending (f := fun _ s => s.failOverdue closedAt) rfl rfl
      fun _ => Step.ending_failOverdue closedAt
  | deadlineHandoff id closedAt hopen =>
    exact h.ending (f := fun _ s => s.failOverdue closedAt) rfl rfl
      fun _ => Step.ending_failOverdue closedAt
  | handoffExhausted => exact h.ending rfl rfl fun k => Step.ending_handoffExhausted k _
  | historyLimit hopen =>
    exact h.ending (f := fun _ s => s.cancelIdle) rfl rfl fun _ => Step.ending_cancelIdle

theorem Sound.moves {tr : List Visit} (h : r.Sound) (hm : r.Moves tr vs r') : r'.Sound := by
  cases hm with
  | idle => exact h
  | event => exact h.congr rfl rfl rfl
  | checked => exact h.congr rfl rfl rfl
  | step hf hm hu =>
    refine Sound.follow ?_ hu
    refine h.setStep hf ((h.steps.find hf).moves hm) hm.node ?_
    intro hc
    exact hm.quiet hc ((h.quiet hc).find hf)
  | status u _ hu => exact h.congr (u.steps_apply r) (StatusMove.closing_apply hu) (u.workflow?_apply r)
  | close hc he => exact (h.closes hc).ends he
  | closeSilent => exact h.ending (f := fun _ s => s.cancelIdle) rfl rfl fun _ => Step.ending_cancelIdle
  | requestCancel actor now graceUntil closedAt hopen =>
    exact h.ending (f := fun _ s => s.cancelAll actor now graceUntil closedAt) rfl rfl
      fun _ => Step.ending_cancelAll ..

theorem Sound.unsettles (h : r.Sound) (hm : r.Unsettles vs r') : r'.Sound := by
  cases hm with
  | step hf hm =>
    exact h.setStep hf ((h.steps.find hf).unsettles hm) hm.node fun hc =>
      hm.quiet ((h.quiet hc).find hf)

end Run

/-- The columns of a run that no statement writes after its creation. -/
def Run.pinned (r : Run) :
    RunID × EnvironmentID × Deployment × String × Option Time × String × Time × Json :=
  (r.id, r.environmentID, r.deployment, r.workflowName, r.deadlineAt, r.idempotencyKey,
    r.createdAt, r.input)

variable {r r' : Run} {vs : List Visit} {a b : View}

theorem Run.environmentID_of_pinned (h : r'.pinned = r.pinned) :
    r'.environmentID = r.environmentID := congrArg (fun p => p.2.1) h

theorem Run.workflow?_of_pinned (h : r'.pinned = r.pinned) : r'.workflow? = r.workflow? := by
  simp only [Run.pinned, Prod.mk.injEq] at h
  rw [Run.workflow?, Run.workflow?, h.2.2.1, h.2.2.2.1]

theorem Run.retryPolicy_of_pinned (h : r'.pinned = r.pinned) {s s' : Step}
    (hn : s'.nodeID = s.nodeID) : r'.retryPolicy s' = r.retryPolicy s := by
  simp only [Run.pinned, Prod.mk.injEq] at h
  rw [Run.retryPolicy, Run.retryPolicy, h.2.2.1, h.2.2.2.1, hn]

theorem StatusMove.pinned_apply (u : StatusMove) (r : Run) : (u.apply r).pinned = r.pinned := by
  obtain ⟨_, _, _, _, h⟩ := u.apply_eq r
  rw [h]
  rfl

theorem Run.Closes.pinned {r1 : Run} {t : EventType} (hc : r.Closes vs t r1) :
    r1.pinned = r.pinned := by
  cases hc with
  | fail vs reason actor now closedAt hf hl =>
    obtain ⟨_, _, _, rfl⟩ := hl.eq
    cases hf <;> rfl
  | _ => rfl

theorem Run.Closes.closing {r1 : Run} {t : EventType} (hc : r.Closes vs t r1) :
    r1.status.closing = true := by
  cases hc <;> rfl

theorem Run.Moves.pinned {tr : List Visit} (hm : r.Moves tr vs r') : r'.pinned = r.pinned := by
  cases hm with
  | @step _ _ _ _ u => cases u with
    | none => rfl
    | some u => exact u.pinned_apply _
  | status u => exact u.pinned_apply r
  | close hc he =>
    obtain ⟨_, _, _, rfl⟩ := he.eq
    exact hc.pinned
  | _ => rfl

theorem Run.Moves.closing {tr : List Visit} (hm : r.Moves tr vs r') (hc : r.status.closing = true) :
    r'.status.closing = true := by
  cases hm with
  | @step _ _ _ _ u _ _ hu => cases u with
    | none => exact hc
    | some u => exact (StatusMove.closing_apply (hu u rfl)).trans hc
  | status u _ hu => exact (StatusMove.closing_apply hu).trans hc
  | close hc he =>
    rw [he.status]
    exact hc.closing
  | closeSilent => rfl
  | requestCancel => rfl
  | _ => exact hc

theorem Run.Unsettles.pinned (hm : r.Unsettles vs r') : r'.pinned = r.pinned := by
  cases hm
  rfl

/-! ### Steps along a path -/

/-- Every step of `r` is a step of `r'` and executes the same node. -/
def Run.Keeps (r r' : Run) : Prop :=
  ∀ id s, r.steps.find? id = some s →
    ∃ s', r'.steps.find? id = some s' ∧ s'.nodeID = s.nodeID ∧ s'.kind = s.kind

namespace Run

variable {r r' : Run} {vs : List Visit}

theorem Keeps.of_mapRows {f : StepID → Step → Step} (hs : r'.steps = r.steps.mapRows f)
    (hf : ∀ k s, (f k s).nodeID = s.nodeID ∧ (f k s).kind = s.kind) : r.Keeps r' := by
  intro id s h
  exact ⟨f id s, by rw [hs, Table.find?_mapRows, h]; rfl, hf id s⟩

theorem Keeps.of_steps (hs : r'.steps = r.steps) : r.Keeps r' :=
  fun _ s h => ⟨s, hs ▸ h, rfl, rfl⟩

theorem Keeps.trans {r1 r2 r3 : Run} (h1 : r1.Keeps r2) (h2 : r2.Keeps r3) : r1.Keeps r3 := by
  intro id s hs
  obtain ⟨s2, hs2, hn2, hk2⟩ := h1 id s hs
  obtain ⟨s3, hs3, hn3, hk3⟩ := h2 id s2 hs2
  exact ⟨s3, hs3, hn3.trans hn2, hk3.trans hk2⟩

theorem Keeps.setStep {id : StepID} {s s' : Step} (hf : r.steps.find? id = some s)
    (hn : s'.nodeID = s.nodeID ∧ s'.kind = s.kind) : r.Keeps (r.setStep id s') := by
  intro k t hk
  by_cases hki : k = id
  · subst hki
    obtain rfl := Option.mem_unique hf hk
    exact ⟨s', find?_setStep_self s' hf, hn⟩
  · exact ⟨t, by rw [find?_setStep, if_neg hki, hk], rfl, rfl⟩

theorem Keeps.ending {f : StepID → Step → Step} (hs : r'.steps = r.steps.mapRows f)
    (hf : ∀ k, Step.Ending (f k)) : r.Keeps r' := .of_mapRows hs fun k s => (hf k).node s

theorem FailsFrom.keeps {r0 : Run} {id : StepID} (h : r.FailsFrom id r0) : r.Keeps r0 := by
  cases h with
  | asFound => exact .of_steps rfl
  | closed hf a howns hc =>
    refine .setStep hf ?_
    obtain ⟨_, _, _, _, _, _, rfl⟩ := hc.eq
    exact ⟨rfl, rfl⟩
  | expired hf => exact .setStep hf ⟨rfl, rfl⟩
  | rejected hf => exact .setStep hf ⟨rfl, rfl⟩
  | resolved hf =>
    refine (Keeps.setStep hf ?_).trans (.of_mapRows (steps_mapSteps ..) fun _ _ => ⟨rfl, rfl⟩)
    exact ⟨rfl, rfl⟩

theorem Closes.keeps {r1 : Run} {t : EventType} (h : r.Closes vs t r1) : r.Keeps r1 := by
  cases h with
  | fail vs reason actor now closedAt hf hl =>
    refine (hf.keeps.trans (.of_steps hl.steps)).trans ?_
    exact .ending (f := fun k s => s.failFast (k == _) reason actor now closedAt) rfl
      fun _ => Step.ending_failFast ..
  | failWithoutSteps closedAt =>
    exact .of_mapRows (f := fun _ s => s.cancelTimers.closeOpenCases none .fail closedAt) rfl
      fun _ _ => ⟨rfl, rfl⟩
  | settleFailed => exact .of_steps rfl
  | settleSucceeded => exact .of_steps rfl
  | cancel actor now graceUntil closedAt =>
    exact .ending (f := fun _ s => s.cancelAll actor now graceUntil closedAt) rfl
      fun _ => Step.ending_cancelAll ..
  | settleCancelled => exact .of_steps rfl
  | artifactFailure => exact .ending rfl fun k => Step.ending_artifactFailure k _
  | @deadlineLost id s s1 a closedAt hf hopen howns hc =>
    have hnode : s1.nodeID = s.nodeID ∧ s1.kind = s.kind := by
      obtain ⟨_, _, _, _, _, _, rfl⟩ := hc.eq
      exact ⟨rfl, rfl⟩
    exact (Keeps.setStep hf hnode).trans
      (.ending (f := fun _ s => s.failOverdue closedAt) rfl fun _ => Step.ending_failOverdue closedAt)
  | deadlineHandoff id closedAt =>
    exact .ending (f := fun _ s => s.failOverdue closedAt) rfl
      fun _ => Step.ending_failOverdue closedAt
  | handoffExhausted => exact .ending rfl fun k => Step.ending_handoffExhausted k _
  | historyLimit =>
    exact .ending (f := fun _ s => s.cancelIdle) rfl fun _ => Step.ending_cancelIdle

theorem Moves.keeps {tr : List Visit} (hm : r.Moves tr vs r') : r.Keeps r' := by
  cases hm with
  | idle => exact .of_steps rfl
  | event => exact .of_steps rfl
  | checked => exact .of_steps rfl
  | @step id s s' k u hf hm hu =>
    refine (Keeps.setStep hf hm.node).trans (.of_steps ?_)
    cases u with
    | none => rfl
    | some u => exact u.steps_apply _
  | status u => exact .of_steps (u.steps_apply r)
  | close hc he => exact hc.keeps.trans (.of_steps he.steps)
  | closeSilent => exact .ending (f := fun _ s => s.cancelIdle) rfl fun _ => Step.ending_cancelIdle
  | requestCancel actor now graceUntil closedAt =>
    exact .ending (f := fun _ s => s.cancelAll actor now graceUntil closedAt) rfl
      fun _ => Step.ending_cancelAll ..

theorem Unsettles.keeps (hm : r.Unsettles vs r') : r.Keeps r' := by
  cases hm with
  | step hf hm => exact .setStep hf hm.node

end Run

theorem View.Edge.keeps (h : a.Edge b) : a.run.Keeps b.run := by
  rcases h with ⟨_, hm, -⟩ | ⟨_, hm, -⟩
  · exact hm.keeps
  · exact hm.keeps

theorem View.Reaches.keeps (h : a.Reaches b) : a.run.Keeps b.run := by
  induction h with
  | refl => exact .of_steps rfl
  | tail _ hedge ih => exact ih.trans hedge.keeps

theorem View.Reaches.trace (h : a.Reaches b) : ∃ vs, b.trace = a.trace ++ vs := by
  induction h with
  | refl => exact ⟨[], by simp⟩
  | tail _ hedge ih =>
    obtain ⟨vs, hvs⟩ := ih
    rcases hedge with ⟨ws, -, hws⟩ | ⟨ws, -, hws⟩
    all_goals exact ⟨vs ++ ws, by rw [hws, hvs, List.append_assoc]⟩

theorem View.Edge.pinned (h : a.Edge b) : b.run.pinned = a.run.pinned := by
  rcases h with ⟨_, hm, -⟩ | ⟨_, hm, -⟩
  · exact hm.pinned
  · exact hm.pinned

theorem View.Reaches.pinned (hl : a.Reaches b) : b.run.pinned = a.run.pinned := by
  induction hl with
  | refl => rfl
  | tail _ hedge ih => rw [hedge.pinned, ih]

theorem View.Reaches.workflow? (hl : a.Reaches b) :
    b.run.workflow? = a.run.workflow? := Run.workflow?_of_pinned hl.pinned

theorem View.Reaches.sound (hl : a.Reaches b) (h : a.run.Sound) : b.run.Sound := by
  induction hl with
  | refl => exact h
  | tail _ hedge ih =>
    rcases hedge with ⟨vs, hm, -⟩ | ⟨vs, hm, -⟩
    · exact ih.moves hm
    · exact ih.unsettles hm

theorem View.Leads.reaches (hl : a.Leads b) : a.Reaches b := by
  induction hl with
  | refl => exact Relation.ReflTransGen.refl
  | tail _ hlink ih => exact ih.tail (.inl hlink)

theorem View.Leads.closing (hl : a.Leads b) (hc : a.run.status.closing = true) :
    b.run.status.closing = true := by
  induction hl with
  | refl => exact hc
  | tail _ hlink ih =>
    obtain ⟨_, hm, -⟩ := hlink
    exact hm.closing ih

theorem View.Leads.workflow? (hl : a.Leads b) : b.run.workflow? = a.run.workflow? :=
  hl.reaches.workflow?

theorem View.Leads.sound (hl : a.Leads b) (h : a.run.Sound) : b.run.Sound :=
  hl.reaches.sound h

end Deadbolt.Execution

import Deadbolt.Execution.Sample
import Deadbolt.Lifecycle.Steps

/-!
# Succeeded steps

A live attempt keeps its step `RUNNING` until the run closes, so whatever ends an attempt leaves a
step alone that has succeeded. Two writes test no state: the hold of a claim, which a second worker
may commit from an older snapshot, and the failure of a run for a step.
-/

namespace Deadbolt.Execution

open Base Contracts

/-- A hold of a claim finds its step `READY`, and no disaster recovery holds the run. -/
def Visit.holdsReady (v : Visit) : Bool :=
  match v.kind with
  | .claimHold id => (v.run.steps.find? id).any fun s => s.state == .ready
  | .disasterHold => false
  | _ => true

/-- A hold of a claim finds its step `READY`, no run fails for a step that has succeeded, and no
disaster recovery holds the run. -/
def Visit.sparesSucceeded (v : Visit) : Bool :=
  match v.kind with
  | .claimHold id => (v.run.steps.find? id).any fun s => s.state == .ready
  | .failRun id => !(v.run.steps.find? id).any fun s => s.state == .succeeded
  | .disasterHold => false
  | _ => true

theorem Visit.holdsReady_of_sparesSucceeded {v : Visit} (h : v.sparesSucceeded = true) :
    v.holdsReady = true := by
  unfold sparesSucceeded at h
  unfold holdsReady
  split at h <;> simp_all

namespace Step

/-- A step with a live attempt is running or was closed with its run. -/
def Engaged (s : Step) : Prop := s.hasLive = true → s.state = .running ∨ s.Closed

section

variable {r r' : Run} {tr : List Visit} {id : StepID} {s s' : Step}

theorem engaged_of_idle (h : s.hasLive = false) : s.Engaged := by
  intro hl
  rw [h] at hl
  cases hl

/-- A state in which nothing executes the step. -/
theorem Engaged.idle (h : s.Engaged) (hr : s.state ≠ .running) (hc : ¬ s.Closed) :
    s.hasLive = false := by
  by_contra hl
  rcases h (by simpa using hl) with hs | hs
  · exact hr hs
  · exact hc hs

theorem ne_of_engaged (h : s.state = .running ∨ s.Closed) :
    s.state ≠ .blocked ∧ s.state ≠ .ready ∧ s.state ≠ .waiting := by
  rcases h with h | h | h <;> rw [h] <;> exact ⟨nofun, nofun, nofun⟩

theorem Moves.engaged {k : Option VisitKind} {u : Option StatusMove} (hm : Moves r id s k u s')
    (hs : s.Sound) (hf : r.steps.find? id = some s) (h : s.state = .running ∨ s.Closed)
    (hP : ∀ x ∈ k, Visit.holdsReady ⟨x, r⟩ = true) (hlive : s'.hasLive = true) :
    s'.state = .running ∨ s'.Closed := by
  obtain ⟨hb, hready, hwaiting⟩ := ne_of_engaged h
  cases hm with
  | mint now windowMs =>
    obtain ⟨v, hv⟩ := mintWindow_eq s (now + millis windowMs)
    rw [hv]
    exact h
  | derive x windowMs =>
    obtain ⟨v, hv⟩ := mintWindow_eq s (x.createdAt + durationMs windowMs)
    rw [hv]
    exact h
  | skip _ hs => exact absurd hs hb
  | succeedControl _ hs => exact absurd hs hb
  | ready _ hs => exact absurd hs hb
  | requestApproval _ _ _ _ hs => exact absurd hs hb
  | lateApproval a _ _ _ hc =>
    rw [requestApproval_closed hc]
    exact h
  | parkDelay _ _ _ _ hs => exact absurd hs hb
  | lateDelay timer dueAt _ _ hc =>
    rw [parkDelay_closed hc]
    exact h
  | fireRetry _ _ _ hw => exact absurd (waitsFor_eq_true.mp hw).1 hwaiting
  | fireDelay _ _ _ hw => exact absurd (waitsFor_eq_true.mp hw).1 hwaiting
  | grant => exact .inl rfl
  | start => exact h
  | renew => exact h
  | acknowledge => exact h
  | park a _ howns hc _ _ hp =>
    have hidle := (hc.idle hs howns).1
    cases hp with
    | retry => cases hidle.symm.trans hlive
    | hold => cases hidle.symm.trans hlive
  | fence a epoch error now howns =>
    obtain ⟨x, hx, hid, hl, -⟩ := howns
    rw [(fence_idle hs ⟨x, hx, hid, hl⟩ epoch error now).1] at hlive
    cases hlive
  | claimHold =>
    have hhold := hP _ rfl
    simp only [Visit.holdsReady, hf, Option.any_some, beq_iff_eq] at hhold
    exact absurd hhold hready
  | approve _ _ _ _ _ _ hs => exact absurd hs hwaiting
  | readyHandoff _ _ hw => exact absurd (waitsFor_eq_true.mp hw).1 hwaiting

theorem Transits.engaged (ht : Transits r r' tr id s s') (hs : s.Sound)
    (hf : r.steps.find? id = some s) (h : s.Engaged)
    (hP : ∀ v ∈ tr, v.run.id = r.id → v.holdsReady = true) : s'.Engaged := by
  intro hlive'
  rcases ht.frames hs with ⟨a, l, now, -, rfl⟩ | hframes
  · exact .inl rfl
  have hlive : s.hasLive = true := by
    by_contra hl
    rw [hframes.hasLive_eq_false (by simpa using hl)] at hlive'
    cases hlive'
  have hstate := h hlive
  obtain ⟨-, -, hwaiting⟩ := ne_of_engaged hstate
  cases ht with
  | same => exact hstate
  | moves hm _ hv _ => exact hm.engaged hs hf hstate (fun x hx => hP _ (hv x hx) rfl) hlive'
  | unsettles hm _ _ =>
    cases hm with
    | finish a howns hc _ =>
      rw [(hc.idle hs howns).1] at hlive'
      cases hlive'
    | confirm =>
      split
      · next hw => exact absurd (waitsFor_eq_true.mp hw).1 hwaiting
      · exact hstate
    | retry _ _ _ _ _ hw => exact absurd (waitsFor_eq_true.mp hw).1 hwaiting
  | winds hw _ _ =>
    rcases hw.state with ⟨hst, -⟩ | hc
    · rw [hst, Closed, hst]
      exact hstate
    · exact .inr hc
  | closes howns hc hw _ _ =>
    rw [(hc.wound hw hs howns).2.1] at hlive'
    cases hlive'
  | held _ hv => cases hP _ hv rfl

/-! ### A step that has succeeded -/

theorem Moves.succeeded {k : Option VisitKind} {u : Option StatusMove} (hm : Moves r id s k u s')
    (hf : r.steps.find? id = some s) (hidle : s.hasLive = false) (h : s.state = .succeeded)
    (hP : ∀ x ∈ k, Visit.sparesSucceeded ⟨x, r⟩ = true) :
    s'.state = .succeeded ∧ s'.output = s.output := by
  have hne {t : StepState} (ht : s.state = t) (hd : t ≠ .succeeded) : False := hd (ht.symm.trans h)
  have hclosed (hc : s.Closed) : False := by
    rcases hc with hc | hc
    · exact hne hc nofun
    · exact hne hc nofun
  have hdead {x : Attempt} (hx : x ∈ s.attempts) (hl : x.status.live = true) : False := by
    rw [hasLive_eq_false] at hidle
    rw [hidle x hx] at hl
    cases hl
  cases hm with
  | mint now windowMs =>
    obtain ⟨v, hv⟩ := mintWindow_eq s (now + millis windowMs)
    rw [hv]
    exact ⟨h, rfl⟩
  | derive x windowMs =>
    obtain ⟨v, hv⟩ := mintWindow_eq s (x.createdAt + durationMs windowMs)
    rw [hv]
    exact ⟨h, rfl⟩
  | skip _ hs => exact (hne hs nofun).elim
  | succeedControl _ hs => exact (hne hs nofun).elim
  | ready _ hs => exact (hne hs nofun).elim
  | requestApproval _ _ _ _ hs => exact (hne hs nofun).elim
  | lateApproval _ _ _ _ hc => exact (hclosed hc).elim
  | parkDelay _ _ _ _ hs => exact (hne hs nofun).elim
  | lateDelay _ _ _ _ hc => exact (hclosed hc).elim
  | fireRetry _ _ _ hw => exact (hne (waitsFor_eq_true.mp hw).1 nofun).elim
  | fireDelay _ _ _ hw => exact (hne (waitsFor_eq_true.mp hw).1 nofun).elim
  | grant _ _ _ _ _ hs => exact (hne hs nofun).elim
  | start _ _ _ ha =>
    obtain ⟨x, hx, -, hc⟩ := ha
    exact (hdead hx (by rw [hc]; rfl)).elim
  | renew => exact ⟨h, rfl⟩
  | acknowledge => exact ⟨h, rfl⟩
  | park _ _ howns =>
    obtain ⟨x, hx, -, hl⟩ := howns
    exact (hdead hx hl).elim
  | fence _ _ _ _ howns =>
    obtain ⟨x, hx, -, hl, -⟩ := howns
    exact (hdead hx hl).elim
  | claimHold =>
    have hhold := hP _ rfl
    simp only [Visit.sparesSucceeded, hf, Option.any_some, beq_iff_eq] at hhold
    exact (hne hhold nofun).elim
  | approve _ _ _ _ _ _ hs => exact (hne hs nofun).elim
  | readyHandoff _ _ hw => exact (hne (waitsFor_eq_true.mp hw).1 nofun).elim

theorem Transits.succeeded (ht : Transits r r' tr id s s') (hs : s.Sound)
    (hf : r.steps.find? id = some s) (he : s.Engaged) (h : s.state = .succeeded)
    (hP : ∀ v ∈ tr, v.run.id = r.id → v.sparesSucceeded = true) :
    s'.state = .succeeded ∧ s'.output = s.output ∧ s'.claims = s.claims := by
  have hidle : s.hasLive = false :=
    he.idle (by rw [h]; nofun) fun hc => by rcases hc with hc | hc <;> rw [h] at hc <;> cases hc
  have hclaims : s'.claims = s.claims := by
    rcases ht.frames hs with ⟨a, l, now, hc, -⟩ | hframes
    · have := hc.ready
      rw [h] at this
      cases this
    · exact claims_of_ages hframes.attempts
  have howned {a : AttemptID} (ho : s.Owns a) : False := by
    rw [ho.hasLive] at hidle
    cases hidle
  rw [← and_assoc]
  refine ⟨?_, hclaims⟩
  cases ht with
  | same => exact ⟨h, rfl⟩
  | moves hm _ hv _ => exact hm.succeeded hf hidle h fun x hx => hP _ (hv x hx) rfl
  | unsettles hm _ _ =>
    cases hm with
    | finish a howns => exact (howned howns).elim
    | confirm =>
      split
      · next hw =>
        rw [waitsFor_eq_true, h] at hw
        cases hw.1
      · exact ⟨h, rfl⟩
    | retry _ _ _ _ _ hw =>
      rw [waitsFor_eq_true, h] at hw
      cases hw.1
  | winds hw _ hk =>
    refine ⟨?_, hw.output⟩
    rcases hk h with hk | ⟨v, hv, hkind, hid, s0, hs0, hstate⟩
    · exact hk
    · have hspare := hP v hv hid
      simp [Visit.sparesSucceeded, hkind, hs0, hstate] at hspare
  | closes howns => exact (howned howns).elim
  | held _ hv => cases hP _ hv rfl

end

end Step

/-! ### Every run -/

def Run.Engaged (r : Run) : Prop := ∀ k s, r.steps.find? k = some s → s.Engaged

theorem Run.Created.engaged {r : Run} (h : r.Created) : r.Engaged := by
  intro k s hs
  obtain ⟨n, t, rfl⟩ := h.step hs
  exact Step.engaged_of_idle rfl

theorem View.Change.engaged {a b : View} (hc : a.Change b) (hs : a.run.Sound) (h : a.run.Engaged)
    (hP : ∀ v ∈ b.trace, v.run.id = a.run.id → v.holdsReady = true) : b.run.Engaged := by
  intro k s' hs'
  obtain ⟨s, hf, ht⟩ := hc.transits hs hs'
  exact ht.engaged (hs.steps.find hf) hf (h k s hf) hP

/-- Once a step has succeeded, its state and output stay and no attempt is created for it, in every
run of the installation in which no hold of a claim finds a step that is not `READY`, no run fails
for a step that has succeeded and no disaster recovery holds the run. -/
theorem succeeded_step_final [Platform] (fleet : Fleet) (os ps : List Operation) (id : RunID)
    (r : Run) (hr : (installation.exec (World.initial fleet) os).db.runs.find? id = some r)
    (k : StepID) (s : Step) (hs : r.steps.find? k = some s) (hstate : s.state = .succeeded)
    (hP : ∀ v ∈ (installation.exec (World.initial fleet) (os ++ ps)).db.sys.trace,
      v.run.id = id → v.sparesSucceeded = true) :
    ∃ r' s', (installation.exec (World.initial fleet) (os ++ ps)).db.runs.find? id = some r' ∧
      r'.steps.find? k = some s' ∧ s'.state = .succeeded ∧ s'.output = s.output ∧
      s'.claims = s.claims := by
  obtain ⟨r', hr', hop⟩ := installation_append ps hr
  obtain ⟨vs, hvs⟩ := hop.trace
  simp only at hvs
  have hP0 : ∀ v ∈ (installation.exec (World.initial fleet) os).db.sys.trace,
      v.run.id = id → v.sparesSucceeded = true :=
    fun v hv => hP v (by rw [hvs]; exact List.mem_append_left _ hv)
  obtain ⟨hsound, hid, heng⟩ := installation_run_invariant (fun _ h => h.engaged)
    (fun a b hs h hP hc => hc.engaged hs h fun v hv hv' =>
      Visit.holdsReady_of_sparesSucceeded (hP v hv hv')) hP0 hr
  have hfinal := hop.invariant (J := fun v => v.run.id = id ∧ v.run.Engaged ∧
      ∃ s', v.run.steps.find? k = some s' ∧ s'.state = .succeeded ∧ s'.output = s.output ∧
        s'.claims = s.claims) (P := fun v => v.run.id = id → v.sparesSucceeded = true)
    (fun a b ha hJ hP hc => by
      obtain ⟨hida, he, s1, hs1, hst, hout, hclaims⟩ := hJ
      have hPa : ∀ v ∈ b.trace, v.run.id = a.run.id → v.sparesSucceeded = true := by
        rw [hida]
        exact hP
      refine ⟨(congrArg Prod.fst hc.pinned).trans hida, hc.engaged ha he fun v hv hid =>
        Visit.holdsReady_of_sparesSucceeded (hPa v hv hid), ?_⟩
      obtain ⟨s2, hs2, -⟩ := hc.keeps k s1 hs1
      obtain ⟨s0, hs0, ht⟩ := hc.transits ha hs2
      obtain rfl := Option.mem_unique hs0 hs1
      obtain ⟨hst', hout', hclaims'⟩ := ht.succeeded (ha.steps.find hs0) hs0 (he k s0 hs0) hst hPa
      exact ⟨s2, hs2, hst', hout'.trans hout, hclaims'.trans hclaims⟩)
    hsound hP ⟨hid, heng, s, hs, hstate, rfl, rfl⟩
  obtain ⟨-, -, s', hs', hst, hout, hclaims⟩ := hfinal
  exact ⟨r', s', hr', hs', hst, hout, hclaims⟩

def Sample.succeededOnce : List Action :=
  started ++ [.complete session (completion 2 .succeeded none) .unavailable]

theorem succeeded_step_final_once :
    ∃ r s r' s', ((@installation Sample.platform).exec (World.initial (Sample.single "safe" none))
        (Sample.succeededOnce.map .engine)).db.runs.find? 0 = some r ∧
      r.steps.find? 1 = some s ∧ s.state = .succeeded ∧
      ((@installation Sample.platform).exec (World.initial (Sample.single "safe" none))
        (Sample.succeededOnce.map .engine ++ [.engine (.reconcileExpiredLeases [])])
          ).db.runs.find? 0 = some r' ∧
      r'.steps.find? 1 = some s' ∧ s'.state = .succeeded := by
  obtain ⟨r, hr, hs⟩ := (Option.any_eq_true (fun r : Run => (r.steps.find? 1).any fun s =>
    s.state == .succeeded) (((@installation Sample.platform).exec
      (World.initial (Sample.single "safe" none)) (Sample.succeededOnce.map .engine)
        ).db.runs.find? 0)).mp (by decide +kernel)
  obtain ⟨s, hs, hstate⟩ := (Option.any_eq_true ..).mp hs
  have hvisits : ∀ v ∈ ((@installation Sample.platform).exec
      (World.initial (Sample.single "safe" none)) (Sample.succeededOnce.map .engine ++
        [.engine (.reconcileExpiredLeases [])])).db.sys.trace,
      v.sparesSucceeded = true := List.all_eq_true.mp (by decide +kernel)
  obtain ⟨r', s', hr', hs', hst, -, -⟩ := @succeeded_step_final Sample.platform
    (Sample.single "safe" none) (Sample.succeededOnce.map .engine)
    [.engine (.reconcileExpiredLeases [])] 0 r hr 1 s hs (by simpa using hstate)
    fun v hv _ => hvisits v hv
  exact ⟨r, s, r', s', hr, hs, by simpa using hstate, hr', hs', hst⟩

/-- Two workers take the same snapshot of an idempotent task with a short window beside another
one. The first worker completes it; the second commits its claim after the window has closed. -/
def Sample.claimedTwice : List Action :=
  [.createRun request, .claimSnapshot session 1 [], .claimSnapshot otherSession 1 [],
   .claimCommit 0 [true] [] [], .start session 3 1,
   .complete session (completion 3 .succeeded none) .unavailable]

/-- The hold of the second claim takes the step that has succeeded back to `WAITING`. -/
theorem succeeded_step_held :
    ((Sample.run (Sample.fleet [Sample.taskManifest "a" "idempotent" (some 70000),
        Sample.taskManifest "b" "safe" none]
        [Sample.workflow "w" [Sample.taskNode "a" [], Sample.taskNode "b" []]])
        Sample.claimedTwice).db.runs.find? 0).any (fun r =>
      (r.steps.find? 1).any fun s => s.state == .succeeded) = true ∧
    ((Sample.run (Sample.fleet [Sample.taskManifest "a" "idempotent" (some 70000),
        Sample.taskManifest "b" "safe" none]
        [Sample.workflow "w" [Sample.taskNode "a" [], Sample.taskNode "b" []]])
        (Sample.claimedTwice ++ [.elapse 10000000, .claimCommit 0 [true] [] []])).db.runs.find? 0
      ).any (fun r => (r.steps.find? 1).any fun s => s.state == .waiting) = true := by
  decide +kernel

end Deadbolt.Execution

import Deadbolt.Lifecycle.Succeeded
import Deadbolt.Lifecycle.Terminal

/-!
# The history of a run

The terminal event of a run is the last statement of every write that ends it, and names the status
that the write has set. A run that is failed a second time reports it a second time.
-/

namespace Deadbolt.Execution

open Base Contracts

def RunStatus.endEvent : RunStatus → Option EventType
  | succeeded => some .runCompleted
  | failed => some .runFailed
  | cancelled => some .runCancelled
  | _ => none

def Run.ends (r : Run) : List EventType := (r.events.map Event.type).filter EventType.terminal

/-- A run fails unended and with room for the report, a success is confirmed for a held step, no
decision output is rejected after its decision, and no write takes a step back that has
succeeded. -/
def Visit.reportsOnce (v : Visit) : Bool :=
  v.failsOpenRun && v.sparesSucceeded &&
    match v.kind with
    | .historyLimit => v.run.hasEventSlot .runFailed
    | .approvalOutputRejected _ => false
    | .confirmSucceeded id => (v.run.steps.find? id).any (Step.waitsFor "RECONCILIATION")
    | _ => true

/-- The history reports the end of the run and succeeded steps as they are. -/
structure Run.Reported (r : Run) : Prop where
  ends : r.ends = r.status.endEvent.toList
  succeeded : ∀ e ∈ r.events, e.type = .stepSucceeded → ∃ k s,
    e.payload.lookup "stepId" = some (idJson k) ∧ r.steps.find? k = some s ∧ s.state = .succeeded

theorem RunStatus.endEvent_eq_none {s : RunStatus} (h : s.terminal = false) : s.endEvent = none := by
  cases s <;> first | rfl | cases h

namespace Run

variable {r r1 r' : Run} {t : EventType} {tr vs : List Visit}

/-! ### Events of a move -/

/-- The events that a write appends, none of them terminal or a success. -/
def Appends (r r' : Run) : Prop :=
  ∃ es : List Event, r'.events = r.events ++ es ∧
    ∀ e ∈ es, e.type.terminal = false ∧ e.type ≠ .stepSucceeded

theorem Appends.of_events (h : r'.events = r.events) : r.Appends r' :=
  ⟨[], by simp [h], nofun⟩

theorem Appends.ends (h : r.Appends r') : r'.ends = r.ends := by
  obtain ⟨es, hes, hnone⟩ := h
  have hnil : (es.map Event.type).filter EventType.terminal = [] := by
    rw [List.filter_eq_nil_iff]
    intro t ht
    obtain ⟨e, he, rfl⟩ := List.mem_map.mp ht
    simp [(hnone e he).1]
  simp only [Run.ends, hes, List.map_append, List.filter_append, hnil, List.append_nil]

theorem Appends.mem (h : r.Appends r') {e : Event} (he : e ∈ r'.events)
    (hs : e.type = .stepSucceeded) : e ∈ r.events := by
  obtain ⟨es, hes, hnone⟩ := h
  rw [hes] at he
  rcases List.mem_append.mp he with he | he
  · exact he
  · exact absurd hs (hnone e he).2

theorem Logs.appends (h : r.Logs r') : r.Appends r' := by
  induction h with
  | refl => exact .of_events rfl
  | tail _ t x ht hs _ ih =>
    obtain ⟨es, hes, hnone⟩ := ih
    refine ⟨es ++ [⟨_, t, x⟩], by rw [events_pushEvent, hes, List.append_assoc], fun e he => ?_⟩
    rcases List.mem_append.mp he with he | he
    · exact hnone e he
    · rw [List.mem_singleton.mp he]
      exact ⟨ht, hs⟩

theorem Closes.appends (hc : r.Closes vs t r1) : r.Appends r1 := by
  cases hc with
  | @fail id r0 r2 ws reason actor now closedAt hf hl =>
    obtain ⟨es, hes, hnone⟩ := hl.appends
    have hevents : r0.events = r.events := by cases hf <;> rfl
    exact ⟨es, by rw [← hevents]; exact hes, hnone⟩
  | _ => exact .of_events rfl

theorem Closes.endEvent (hc : r.Closes vs t r1) : r1.status.endEvent = some t := by
  cases hc <;> rfl

theorem Ends.ends (h : Ends t r r') (ht : t.terminal = true) : r'.ends = r.ends ++ [t] := by
  obtain ⟨r1, x, hl, -, rfl⟩ := h
  rw [← hl.appends.ends]
  simp [Run.ends, ht]

theorem Ends.mem (h : Ends t r r') (ht : t ≠ .stepSucceeded) {e : Event} (he : e ∈ r'.events)
    (hs : e.type = .stepSucceeded) : e ∈ r.events := by
  obtain ⟨r1, x, hl, -, rfl⟩ := h
  rw [events_pushEvent, List.mem_append, List.mem_singleton] at he
  rcases he with he | rfl
  · exact hl.appends.mem he hs
  · exact absurd hs ht

theorem Closes.event_ne (hc : r.Closes vs t r1) : t.terminal = true ∧ t ≠ .stepSucceeded := by
  cases hc <;> exact ⟨rfl, nofun⟩

end Run

theorem StatusMove.events_apply (u : StatusMove) (r : Run) : (u.apply r).events = r.events := by
  obtain ⟨_, _, _, _, h⟩ := u.apply_eq r
  rw [h]

variable {r : Run}

theorem StatusMove.endEvent_apply {u : StatusMove} (hu : u.Admissible r) :
    (u.apply r).status.endEvent = r.status.endEvent := by
  cases hc : r.status.closing with
  | true => rw [show (u.apply r).status = r.status from congrArg Prod.fst (verdict_apply hu hc)]
  | false =>
    have hc' := (closing_apply hu).trans hc
    rw [RunStatus.endEvent_eq_none (RunStatus.terminal_of_closing hc),
      RunStatus.endEvent_eq_none (RunStatus.terminal_of_closing hc')]

namespace Run

variable {r r' : Run} {tr vs : List Visit}

/-- What a move adds to the history, and the status it leaves. -/
theorem Moves.ends (hm : r.Moves tr vs r') (h : r.ends = r.status.endEvent.toList)
    (hP : ∀ v ∈ tr ++ vs, v.run.id = r.id → v.reportsOnce = true) :
    r'.ends = r'.status.endEvent.toList := by
  cases hm with
  | idle => exact h
  | event t x ht =>
    have happ : (r.pushEvent t x).ends = r.ends := by simp [Run.ends, ht]
    rw [happ]
    exact h
  | checked => exact h
  | @step id s s' k u _ _ hu =>
    cases u with
    | none => exact h
    | some u =>
      have hevents : (u.apply (r.setStep id s')).ends = r.ends := by
        simp only [Run.ends, StatusMove.events_apply, events_setStep]
      have hend : (u.apply (r.setStep id s')).status.endEvent = r.status.endEvent :=
        StatusMove.endEvent_apply (hu u rfl)
      exact hevents.trans (h.trans (congrArg Option.toList hend.symm))
  | status u _ hu =>
    have hevents : (u.apply r).ends = r.ends := by simp only [Run.ends, StatusMove.events_apply]
    rw [hevents, StatusMove.endEvent_apply hu]
    exact h
  | @close t _ r1 _ hc he =>
    have hopen : r.status.terminal = false := by
      by_contra ht
      obtain ⟨-, v, hv, hid, hfails⟩ := hc.of_terminal (by simpa using ht)
      have hreports := hP v (List.mem_append_right _ hv) hid
      simp [Visit.reportsOnce, hfails] at hreports
    rw [he.ends hc.event_ne.1, hc.appends.ends, h, RunStatus.endEvent_eq_none hopen, he.status,
      hc.endEvent]
    rfl
  | closeSilent hopen hslot =>
    have hreports := hP _ (List.mem_append_right _ (List.mem_singleton_self _)) rfl
    simp [Visit.reportsOnce, hslot] at hreports
  | requestCancel actor now graceUntil closedAt hopen =>
    rw [RunStatus.endEvent_eq_none (RunStatus.terminal_of_closing hopen)] at h
    exact h

/-- A new `STEP_SUCCEEDED` event is justified. -/
theorem Moves.event_mem (hm : r.Moves tr vs r') {e : Event} (he : e ∈ r'.events)
    (hs : e.type = .stepSucceeded) : e ∈ r.events ∨ r'.steps = r.steps ∧ Justified r tr e.payload := by
  cases hm with
  | idle => exact .inl he
  | event t x ht _ hx =>
    rw [events_pushEvent, List.mem_append, List.mem_singleton] at he
    rcases he with he | rfl
    · exact .inl he
    · exact .inr ⟨rfl, hx hs⟩
  | checked => exact .inl he
  | @step id s s' k u =>
    left
    cases u with
    | none => exact he
    | some u =>
      have hevents : (u.apply (r.setStep id s')).events = r.events := u.events_apply _
      exact hevents ▸ he
  | status u => exact .inl (u.events_apply r ▸ he)
  | close hc hends => exact .inl (hc.appends.mem (hends.mem hc.event_ne.2 he hs) hs)
  | closeSilent => exact .inl he
  | requestCancel => exact .inl he

end Run

/-! ### Every run -/

theorem Visit.sparesSucceeded_of_reportsOnce {v : Visit} (h : v.reportsOnce = true) :
    v.sparesSucceeded = true := by
  rw [reportsOnce, Bool.and_eq_true, Bool.and_eq_true] at h
  exact h.1.2

theorem Justified.succeeded {tr : List Visit} {x : Payload} (h : Justified r tr x)
    (hP : ∀ v ∈ tr, v.reportsOnce = true) : ∃ k s,
      x.lookup "stepId" = some (idJson k) ∧ r.steps.find? k = some s ∧ s.state = .succeeded := by
  obtain ⟨k, hk, ⟨s, hs, hst⟩ | ⟨v, hv, hkind⟩ | ⟨v, hv, hkind, hwait⟩⟩ := h
  · exact ⟨k, s, hk, hs, hst⟩
  · have hreports := hP v hv
    simp [Visit.reportsOnce, hkind] at hreports
  · have hreports := hP v hv
    simp only [Visit.reportsOnce, hkind, Bool.and_eq_true] at hreports
    obtain ⟨s, hs, hw⟩ := (Option.any_eq_true ..).mp hreports.2
    rw [hwait s hs] at hw
    cases hw

theorem Run.Created.reported (h : r.Created) : r.Reported := by
  obtain ⟨req, d, runID, now, steps, wf, rfl, -⟩ := h
  refine ⟨rfl, fun e he hs => ?_⟩
  rw [List.mem_singleton.mp he] at hs
  cases hs

theorem View.Change.succeeded {a b : View} (hc : a.Change b) (hs : a.run.Sound)
    (he : a.run.Engaged) (hP : ∀ v ∈ b.trace, v.reportsOnce = true) {k : StepID} {s : Step}
    (hk : a.run.steps.find? k = some s) (hst : s.state = .succeeded) :
    ∃ s', b.run.steps.find? k = some s' ∧ s'.state = .succeeded := by
  obtain ⟨s', hs', -⟩ := hc.keeps k s hk
  obtain ⟨s0, hs0, ht⟩ := hc.transits hs hs'
  obtain rfl := Option.mem_unique hs0 hk
  exact ⟨s', hs', (ht.succeeded (hs.steps.find hk) hk (he k s0 hk) hst fun v hv _ =>
    Visit.sparesSucceeded_of_reportsOnce (hP v hv)).1⟩

theorem View.Change.reported {a b : View} (hc : a.Change b) (hs : a.run.Sound) (he : a.run.Engaged)
    (h : a.run.Reported) (hP : ∀ v ∈ b.trace, v.reportsOnce = true) : b.run.Reported := by
  have hold {e : Event} (hmem : e ∈ a.run.events) (htype : e.type = .stepSucceeded) : ∃ k s,
      e.payload.lookup "stepId" = some (idJson k) ∧ b.run.steps.find? k = some s ∧
        s.state = .succeeded := by
    obtain ⟨k, s, hpay, hk, hst⟩ := h.succeeded e hmem htype
    obtain ⟨s', hs', hst'⟩ := hc.succeeded hs he hP hk hst
    exact ⟨k, s', hpay, hs', hst'⟩
  obtain ⟨r', tr'⟩ := b
  rcases hc with (⟨vs, hm, htr⟩ | ⟨vs, hm, htr⟩) | ⟨vs, hm, htr⟩
  · simp only at hm htr hP
    rw [htr] at hP
    refine ⟨hm.ends h.ends fun v hv _ => hP v hv, fun e hmem htype => ?_⟩
    rcases hm.event_mem hmem htype with hmem | ⟨hsteps, hj⟩
    · exact hold hmem htype
    · simp only [hsteps]
      exact hj.succeeded fun v hv => hP v (List.mem_append_left _ hv)
  · simp only at hm
    cases hm
    exact ⟨h.ends, fun e hmem htype => hold hmem htype⟩
  · simp only at hm htr hP
    cases hm with
    | status => cases Visit.sparesSucceeded_of_reportsOnce (hP ⟨.disasterHold, a.run⟩ (by simp [htr]))
    | step => cases Visit.sparesSucceeded_of_reportsOnce (hP ⟨.disasterHold, a.run⟩ (by simp [htr]))
    | event x =>
      refine ⟨?_, fun e hmem htype => ?_⟩
      · have happ : (a.run.pushHoldEvent x).ends = a.run.ends := by
          simp [Run.ends, Run.pushHoldEvent, EventType.terminal]
        exact happ.trans h.ends
      · rcases List.mem_append.mp hmem with hmem | hmem
        · exact hold hmem htype
        · rw [List.mem_singleton.mp hmem] at htype
          cases htype

/-- A run has one terminal event, the one that names its status, if it has ended, and none
otherwise; and the step of every `STEP_SUCCEEDED` event has succeeded: in every run of the
installation whose writes all fail unended runs, confirm held steps, reject no output of a decision
and take back no step that has succeeded. -/
theorem history_reports [Platform] (fleet : Fleet) (os : List Operation) (id : RunID) (r : Run)
    (hr : (installation.exec (World.initial fleet) os).db.runs.find? id = some r)
    (hP : ∀ v ∈ (installation.exec (World.initial fleet) os).db.sys.trace, v.reportsOnce = true) :
    r.ends = r.status.endEvent.toList ∧
      ∀ e ∈ r.events, e.type = .stepSucceeded → ∃ k s,
        e.payload.lookup "stepId" = some (idJson k) ∧ r.steps.find? k = some s ∧
          s.state = .succeeded := by
  obtain ⟨-, -, -, h⟩ := installation_invariant (J := fun v => v.run.Engaged ∧ v.run.Reported)
    (P := fun v => v.reportsOnce = true) (fun _ _ h => ⟨h.engaged, h.reported⟩)
    (fun a b hs h hP hc => ⟨hc.engaged hs h.1 fun v hv _ => Visit.holdsReady_of_sparesSucceeded
      (Visit.sparesSucceeded_of_reportsOnce (hP v hv)), hc.reported hs h.1 h.2 hP⟩) hP hr
  exact ⟨h.ends, h.succeeded⟩

theorem history_reports_succeeded :
    ∃ r, ((@installation Sample.platform).exec (World.initial (Sample.single "safe" none))
        (Sample.succeededOnce.map .engine)).db.runs.find? 0 = some r ∧
      r.status = .succeeded ∧ r.ends = [.runCompleted] := by
  obtain ⟨r, hr, hst⟩ := (Option.any_eq_true (fun r : Run => r.status == .succeeded)
    (((@installation Sample.platform).exec (World.initial (Sample.single "safe" none))
      (Sample.succeededOnce.map .engine)).db.runs.find? 0)).mp (by decide +kernel)
  rw [beq_iff_eq] at hst
  have hreports := @history_reports Sample.platform (Sample.single "safe" none)
    (Sample.succeededOnce.map .engine) 0 r hr (List.all_eq_true.mp (by decide +kernel))
  refine ⟨r, hr, hst, ?_⟩
  rw [hreports.1, hst]
  rfl

/-- The run that fails again has two `RUN_FAILED` events. -/
theorem run_failed_twice :
    ((Sample.run Sample.besideApproval (Sample.failedBesideApproval ++
      [.elapse 2000000, .sweepExpiredApprovals])).db.runs.find? 0).any (fun r =>
      r.ends == [.runFailed, .runFailed]) = true := by
  decide +kernel

end Deadbolt.Execution

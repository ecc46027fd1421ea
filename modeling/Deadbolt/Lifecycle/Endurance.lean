import Deadbolt.Lifecycle.Creation
import Deadbolt.Lifecycle.Replay
import Deadbolt.Lifecycle.Resolution

/-!
# What lasts

Between any two states of an installation its runs follow the automaton, and nothing that a run has
recorded is taken back. A disaster recovery always commits, and leaves no open run to the engine.
-/

namespace Deadbolt.Execution

open Base Contracts Tx RunTx

/-- The step has ended, or waits for an operator with an open case. -/
def Step.Awaits (s : Step) : Prop :=
  s.state.terminal = true ∨ s.waitsFor "RECONCILIATION" = true ∧ s.hasOpenCase = true

/-- The run has ended, or it and its open steps wait for an operator. -/
def Run.Frozen (r : Run) : Prop :=
  r.status.terminal = true ∨ r.onHold = true ∧ r.EachStep fun _ s => s.Awaits

/-! ### Recoveries -/

variable [Platform]

theorem holdStepTx_held {c : RunScope} (i : Incident) {id : StepID} (nodeID : String) {s : Step}
    (hf : c.run.steps.find? id = some s) (hs : s.state.terminal = false) :
    Ensures (holdStepTx i id nodeID) c fun _ c' =>
      ∃ s' x, s.Held s' ∧ c'.run = (c.run.setStep id s').pushHoldEvent x := by
  have hfind : (c.visit .disasterHold).run.steps.find? id = some s := hf
  have hdraw : (c.visit .disasterHold).draw.run.steps.find? id = some s := hf
  simp only [holdStepTx, newID, ensures_bind, ensures_note, ensures_getRun, ensures_getStep,
    ensures_ite, ensures_updateStep, ensures_modifyRun, ensures_read, ensures_write, ensures_pure]
  refine ⟨s, hf, fun ho => ?_, fun _ => ?_⟩
  · rw [Run.updateStep_of_find hfind rfl]
    exact ⟨_, _, Step.held_attachEvidence hs ho _, rfl⟩
  · rw [Run.updateStep_of_find hdraw rfl]
    exact ⟨_, _, Step.held_newCase hs rfl, rfl⟩

theorem holdRunTx_frozen (i : Incident) {c : RunScope} (hc : c.run.status.terminal = false) :
    Ensures (holdRunTx i) c fun _ c' => c'.run.status.terminal = false ∧ c'.run.Frozen := by
  simp only [holdRunTx, ensures_bind, ensures_getRun, hc, if_false, ensures_note, ensures_modifyRun,
    Bool.false_eq_true]
  refine (ensures_forEach_rows (fun c k => c.run.steps.find? k) (fun s => s.state.terminal)
    (J := fun c => c.run.onHold = true) (D := Step.Awaits) (fun _ => .inl) ?_ rfl ?_).mono ?_
  · intro e c a hold ha ho
    refine (holdStepTx_held i e.2.nodeID ha ho).mono ?_
    rintro _ c' ⟨s', x, hs, hc⟩
    have hstate : s'.waitsFor "RECONCILIATION" = true := by
      obtain ⟨cases, rfl⟩ := hs.eq
      rfl
    rw [hc]
    refine ⟨hold, s', ?_, .inr ⟨hstate, hs.opens⟩, fun k => ?_⟩
    · rw [(Step.waitsFor_eq_true.mp hstate).1]
      rfl
    · change (c.run.setStep e.1 s').steps.find? k = _
      rw [Run.find?_setStep, ha, Option.map_some]
  · simp [Table.find?_eq_some_iff]
  · rintro _ c' ⟨hold, hsteps⟩
    refine ⟨?_, .inr ⟨hold, (Run.eachStep_iff _ _).mpr hsteps⟩⟩
    rw [(Run.onHold_iff.mp hold).1]
    rfl

/-- A recovery commits; it revokes the stale sessions and leaves every run frozen. -/
theorem recovery_freezes (i : Incident) (stale : List SessionID) (db : Db) :
    Ensures (prepareDisasterRecoveryTx i stale) db fun _ db' =>
      (db'.fleet.sessions.All fun id s => id ∈ stale → s.revokedAt.isSome = true) ∧
        ∀ id r, db'.runs.find? id = some r → r.Frozen := by
  simp only [prepareDisasterRecoveryTx, dbClock, ensures_bind, ensures_read, ensures_write,
    ensures_pure]
  refine ensures_forEach_rows (fun (db : Db) k => db.runs.find? k) (fun r => r.status.terminal)
    (fun _ => .inl) ?_ ?_ (by simp [Table.find?_eq_some_iff])
  · intro e db r hdb hr ho
    refine (ensures_onRun ..).mpr ⟨r, hr, (holdRunTx_frozen i ho).mono fun _ c hc => ?_⟩
    refine ⟨hdb, c.run, hc.1, hc.2, fun k => ?_⟩
    rw [Db.find?_putScope]
    split
    · next hk => rw [hk, hr, Option.map_some]
    · exact Option.map_id'
  · dsimp only
    refine Table.All.mapRows (P := fun _ _ => True) (fun _ _ => trivial) _ fun id s _ hid => ?_
    split
    · rfl
    · next h => simpa [hid, Option.isSome_iff_ne_none] using h

/-! ### Whole histories -/

/-- What no operation takes back: pinned columns, steps, ended attempts, resolved cases, closed
approvals, and the end of the run. -/
structure Run.Endures (r r' : Run) : Prop where
  pinned : r'.pinned = r.pinned
  keeps : r.Keeps r'
  retains : r.Retains r'
  lasts : r.Lasts r'
  ended : r.status.terminal = true → r'.status.terminal = true

def Db.Endures (db db' : Db) : Prop :=
  ∀ id r, db.runs.find? id = some r → ∃ r', db'.runs.find? id = some r' ∧ r.Endures r'

/-- From every reachable state on, the runs follow the automaton and stay sound. -/
theorem installation_follows_automaton (fleet : Fleet) (os ps : List Operation) :
    let w := installation.exec (World.initial fleet) os
    w.db.Operates (installation.exec w ps).db ∧ (installation.exec w ps).Sound :=
  installation_operates (installation_operates (World.sound_initial fleet) os).2 ps

/-- No operation takes back what a run has recorded. -/
theorem runs_endure (fleet : Fleet) (os ps : List Operation) :
    (installation.exec (World.initial fleet) os).db.Endures
      (installation.exec (World.initial fleet) (os ++ ps)).db := by
  intro id r hr
  obtain ⟨r', hr', h⟩ := installation_append ps hr
  have hs := (installation_sound hr).1
  exact ⟨r', hr', h.pinned, h.keeps, h.retains hs, h.lasts, h.terminal⟩

end Deadbolt.Execution

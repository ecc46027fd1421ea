import Deadbolt.Execution.Engine

/-!
# Calculus of row writes

How the writes of `Execution/Rows.lean` and `Execution/Status.lean` act on a run: a `WHERE id = …`
update of a known step is the replacement of that step, event writes commute with step
writes, and each write changes only its own columns.
-/

namespace Deadbolt.Execution

open Base

namespace Run

def setStep (r : Run) (id : StepID) (s : Step) : Run :=
  r.mapSteps fun k old => if k = id then s else old

def EachStep (r : Run) (P : StepID → Step → Prop) : Prop := r.steps.All P

/-! ### Columns a write leaves alone -/

section Columns

variable (r : Run) (f : StepID → Step → Step) (id : StepID) (p : Step → Bool) (g : Step → Step)
  (s : Step) (t : EventType) (x : Payload) (st : RunStatus) (reason : Option String) (b : Bool)

@[simp] theorem lastEventSequence_mapSteps :
    (r.mapSteps f).lastEventSequence = r.lastEventSequence := rfl
@[simp] theorem steps_mapSteps : (r.mapSteps f).steps = r.steps.mapRows f := rfl
@[simp] theorem hasEventSlot_mapSteps : (r.mapSteps f).hasEventSlot t = r.hasEventSlot t := rfl

@[simp] theorem events_setStep : (r.setStep id s).events = r.events := rfl
theorem steps_updateStep : (r.updateStep id p g).steps =
    r.steps.mapRows fun k s => if k = id ∧ p s = true then g s else s := rfl
@[simp] theorem status_pushEvent : (r.pushEvent t x).status = r.status := rfl
@[simp] theorem reasonCode_pushEvent : (r.pushEvent t x).reasonCode = r.reasonCode := rfl
@[simp] theorem steps_pushEvent : (r.pushEvent t x).steps = r.steps := rfl
@[simp] theorem events_pushEvent :
    (r.pushEvent t x).events = r.events ++ [⟨r.lastEventSequence + 1, t, x⟩] := rfl
@[simp] theorem lastEventSequence_pushEvent :
    (r.pushEvent t x).lastEventSequence = r.lastEventSequence + 1 := rfl

@[simp] theorem status_setStatus : (r.setStatus st reason).status = st := rfl
@[simp] theorem reasonCode_setStatus : (r.setStatus st reason).reasonCode = reason := rfl
@[simp] theorem output_setStatus : (r.setStatus st reason).output = r.output := rfl
@[simp] theorem steps_setStatus : (r.setStatus st reason).steps = r.steps := rfl
@[simp] theorem events_setStatus : (r.setStatus st reason).events = r.events := rfl
@[simp] theorem lastEventSequence_setStatus :
    (r.setStatus st reason).lastEventSequence = r.lastEventSequence := rfl
@[simp] theorem pauseRequested_setStatus :
    (r.setStatus st reason).pauseRequested = r.pauseRequested := rfl
@[simp] theorem hasEventSlot_setStatus : (r.setStatus st reason).hasEventSlot t = r.hasEventSlot t := rfl

end Columns

/-! ### Steps after a write -/

theorem find?_setStep (r : Run) (id k : StepID) (s : Step) :
    (r.setStep id s).steps.find? k =
      if k = id then (r.steps.find? id).map fun _ => s else r.steps.find? k := by
  simp only [setStep, steps_mapSteps, Table.find?_mapRows]
  split
  · next h => subst h; rfl
  · cases r.steps.find? k <;> rfl

variable {r : Run} {id : StepID} {s : Step}

@[simp] theorem find?_setStep_self {old : Step} (s : Step) (h : r.steps.find? id = some old) :
    (r.setStep id s).steps.find? id = some s := by
  simp [find?_setStep, h]

theorem updateStep_of_find (h : r.steps.find? id = some s) {p : Step → Bool} (hp : p s = true)
    (f : Step → Step) : r.updateStep id p f = r.setStep id (f s) := by
  unfold updateStep setStep mapSteps
  congr 1
  apply Table.mapRows_congr
  intro k a ha
  by_cases hk : k = id
  · subst hk
    have : a = s := by
      have := (r.steps.find?_eq_some_iff k a).mpr ha
      rw [h] at this
      exact (Option.some.inj this).symm
    subst this
    simp [hp]
  · simp [hk]

theorem updateStep_of_not (h : r.steps.find? id = some s) {p : Step → Bool} (hp : p s = false)
    (f : Step → Step) : r.updateStep id p f = r := by
  have he : r.updateStep id p f = r.mapSteps fun _ a => a := by
    unfold updateStep mapSteps
    congr 1
    apply Table.mapRows_congr
    intro k a ha
    have hne : ¬ (k = id ∧ p a = true) := by
      rintro ⟨rfl, hpa⟩
      have := (r.steps.find?_eq_some_iff k a).mpr ha
      rw [h] at this
      cases this
      simp [hp] at hpa
    simp [hne]
  rw [he]
  simp [mapSteps]

@[simp] theorem setStep_setStep (r : Run) (id : StepID) (s s' : Step) :
    (r.setStep id s).setStep id s' = r.setStep id s' := by
  unfold setStep mapSteps
  simp only [Table.mapRows_mapRows]
  congr 1
  apply Table.mapRows_congr
  intro k a _
  by_cases hk : k = id <;> simp [hk]

theorem setStep_self (h : r.steps.find? id = some s) : r.setStep id s = r := by
  rw [← updateStep_of_find h (p := fun _ => true) rfl fun s => s]
  simp [updateStep, mapSteps]

@[simp] theorem mapSteps_mapSteps (r : Run) (f g : StepID → Step → Step) :
    (r.mapSteps f).mapSteps g = r.mapSteps fun k s => g k (f k s) := by
  simp [mapSteps]

theorem mapSteps_setStatus (r : Run) (f : StepID → Step → Step) (st : RunStatus)
    (reason : Option String) :
    (r.setStatus st reason).mapSteps f = (r.mapSteps f).setStatus st reason := rfl

theorem EachStep.setStep {P : StepID → Step → Prop} (h : r.EachStep P) (hs : P id s) :
    (r.setStep id s).EachStep P := by
  refine Table.All.mapRows h _ ?_
  intro k a ha
  split
  · next hk => exact hk ▸ hs
  · exact ha

theorem EachStep.find {P : StepID → Step → Prop} (h : r.EachStep P)
    (hs : r.steps.find? id = some s) : P id s :=
  (Table.all_iff_find? P r.steps).mp h id s hs

theorem eachStep_iff (r : Run) (P : StepID → Step → Prop) :
    r.EachStep P ↔ ∀ id s, r.steps.find? id = some s → P id s :=
  Table.all_iff_find? P r.steps

theorem anyStep_eq_true (r : Run) (p : Step → Bool) :
    r.anyStep p = true ↔ ∃ id s, r.steps.find? id = some s ∧ p s = true := by
  simp only [anyStep, Table.any_eq_true, Table.find?_eq_some_iff]
  constructor
  · rintro ⟨e, he, hp⟩
    exact ⟨e.1, e.2, he, hp⟩
  · rintro ⟨id, s, he, hp⟩
    exact ⟨(id, s), he, hp⟩

theorem anyStep_eq_false (r : Run) (p : Step → Bool) :
    r.anyStep p = false ↔ ∀ id s, r.steps.find? id = some s → p s = false := by
  rw [← Bool.not_eq_true, anyStep_eq_true]
  simp

end Run

end Deadbolt.Execution

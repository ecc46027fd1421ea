import Deadbolt.Execution.Sample
import Deadbolt.Inspect.Snapshot

/-!
# What a reader without `payload:read` sees

The answers to a caller without the capability are computed from the run without its input, its
outputs, its attempt errors and the event members that `SanitizeEventPayload` drops. The payload of
an approval and the evidence of a case are shown to every reader.
-/

namespace Deadbolt.Inspect

open Base Contracts Execution

/-! ### The run without the masked columns -/

def hideAttempt (a : Attempt) : Attempt := { a with error := none }

def hideStep (s : Step) : Step := { s with output := none, attempts := s.attempts.map hideAttempt }

def hideEvent (e : Event) : Event := { e with payload := sanitizeEventPayload e.payload }

/-- The run without its input and outputs, attempt errors and the other event members. -/
def hideRun (r : Run) : Run :=
  { r with
    input := .null
    output := none
    steps := r.steps.mapRows fun _ s => hideStep s
    events := r.events.map hideEvent }

/-- Two databases that show the same fleet and, but for the masked columns, the same run. -/
structure Alike (id : RunID) (db db' : Db) : Prop where
  fleet : db.fleet = db'.fleet
  run : (db.runs.find? id).map hideRun = (db'.runs.find? id).map hideRun

theorem Alike.find {id : RunID} {db db' : Db} (h : Alike id db db') :
    db.runs.find? id = none ∧ db'.runs.find? id = none ∨ ∃ r r',
      db.runs.find? id = some r ∧ db'.runs.find? id = some r' ∧ hideRun r = hideRun r' := by
  have hrun := h.run
  cases hr : db.runs.find? id with
  | none =>
    rw [hr, Option.map_none, eq_comm, Option.map_eq_none_iff] at hrun
    exact .inl ⟨rfl, hrun⟩
  | some r =>
    rw [hr, Option.map_some, eq_comm, Option.map_eq_some_iff] at hrun
    obtain ⟨r', hr', heq⟩ := hrun
    exact .inr ⟨r, r', rfl, hr', heq.symm⟩

/-! ### `GetRun` -/

theorem stepsByID_hideRun (r : Run) :
    (hideRun r).stepsByID = r.stepsByID.map fun e => (e.1, hideStep e.2) := by
  unfold Run.stepsByID
  exact (List.map_insertionSort (r := fun a b : StepID × Step => a.1 ≤ b.1)
    (s := fun a b : StepID × Step => a.1 ≤ b.1) (fun e => (e.1, hideStep e.2)) r.steps.rows
    fun _ _ _ _ => Iff.rfl).symm

theorem cases_hideRun (r : Run) : cases (hideRun r) = cases r := by
  unfold cases
  rw [stepsByID_hideRun, List.flatMap_map]
  rfl

theorem approvals_hideRun (r : Run) : approvals (hideRun r) = approvals r := by
  unfold approvals
  rw [stepsByID_hideRun, List.flatMap_map]
  rfl

theorem runStep_hideRun (r : Run) (e : StepID × Step) :
    runStep (hideRun r) (e.1, hideStep e.2) = (runStep r e).mask := by
  simp only [runStep, hideStep, RunStepDTO.mask, List.map_map]
  rfl

theorem steps_hideRun (r : Run) : (hideRun r).stepsByID.map (runStep (hideRun r)) =
    (r.stepsByID.map (runStep r)).map RunStepDTO.mask := by
  rw [stepsByID_hideRun, List.map_map, List.map_map]
  exact List.map_congr_left fun e _ => runStep_hideRun r e

theorem mask_mask (s : RunStepDTO) : s.mask.mask = s.mask := by
  simp only [RunStepDTO.mask, List.map_map]
  rfl

theorem waitingReason_mask (r : Run) (steps : List RunStepDTO) (active : Nat) :
    waitingReason r (steps.map RunStepDTO.mask) active = waitingReason r steps active := by
  have hany : (steps.map RunStepDTO.mask).any (fun s => s.attempts.any fun a => a.status == .running) =
      steps.any fun s => s.attempts.any fun a => a.status == .running := by
    simp only [List.any_map, Function.comp_def, RunStepDTO.mask]
  simp only [waitingReason, hany]

theorem mask_getRun (fleet : Fleet) (r : Run) (now : Time) :
    (getRun fleet (hideRun r) now).mask = (getRun fleet r now).mask := by
  have hsteps := steps_hideRun r
  have hmask : ((hideRun r).stepsByID.map (runStep (hideRun r))).map RunStepDTO.mask =
      (r.stepsByID.map (runStep r)).map RunStepDTO.mask := by
    rw [hsteps, List.map_map]
    exact List.map_congr_left fun s _ => mask_mask s
  have hwaits : waitingReason (hideRun r) ((hideRun r).stepsByID.map (runStep (hideRun r)))
      (activeWorkers fleet (hideRun r) now) =
      waitingReason r (r.stepsByID.map (runStep r)) (activeWorkers fleet r now) := by
    rw [hsteps]
    exact waitingReason_mask r _ _
  simp only [getRun, RunSnapshotDTO.mask, hmask, hwaits, cases_hideRun, approvals_hideRun]
  rfl

/-! ### Pages -/

/-! ### Events -/

theorem sanitizeEventPayload_idem (p : Payload) :
    sanitizeEventPayload (sanitizeEventPayload p) = sanitizeEventPayload p := by
  simp [sanitizeEventPayload]

theorem runEvent_hideEvent (e : Event) : runEvent false (hideEvent e) = runEvent false e := by
  simp [runEvent, hideEvent, sanitizeEventPayload_idem]

theorem getRunEvents_hideRun (r : Run) (cursor limit : Nat) :
    getRunEvents (hideRun r) cursor limit false = getRunEvents r cursor limit false := by
  have hpage (n : Nat) : (((hideRun r).events.filter fun e => decide (cursor < e.sequence)).take n
      ).map (runEvent false) =
      ((r.events.filter fun e => decide (cursor < e.sequence)).take n).map (runEvent false) := by
    simp only [hideRun, List.filter_map, ← List.map_take, List.map_map, Function.comp_def,
      runEvent_hideEvent]
    rfl
  simp only [getRunEvents, hpage]

theorem drain_hideRun (r : Run) (fuel cursor : Nat) :
    drain (hideRun r) false fuel cursor = drain r false fuel cursor := by
  induction fuel generalizing cursor with
  | zero => rfl
  | succ fuel ih => simp only [drain, getRunEvents_hideRun, ih]

theorem follow_alike {id : RunID} {dbs dbs' : List Db} (h : List.Forall₂ (Alike id) dbs dbs')
    (cursor : Nat) : follow id false dbs cursor = follow id false dbs' cursor := by
  induction h generalizing cursor with
  | nil => rfl
  | @cons db db' dbs dbs' hd _ ih =>
    rcases hd.find with ⟨hr, hr'⟩ | ⟨r, r', hr, hr', heq⟩
    · simp only [follow, hr, hr', ih]
    · have hlen : r.events.length = r'.events.length := by
        simpa [hideRun] using congrArg (fun r : Run => r.events.length) heq
      simp only [follow, hr, hr', ih]
      rw [← drain_hideRun r, ← drain_hideRun r', heq, hlen]

/-! ### The endpoints -/

def Sample.viewer : Caller := .user (some ⟨.viewer, true⟩)

/-- A run with an approval that asks about the payload, and with the output. -/
def Sample.showing (payload output : String) : Db :=
  let db := (Sample.run (Sample.fleet [] [Sample.workflow "w" [Sample.approvalNode "b" []]])
    [.createRun Sample.request, .reconcileReadyWork []]).db
  { db with runs := db.runs.mapRows fun _ r =>
      { r.mapSteps (fun _ s =>
          { s with approval := s.approval.map fun a => { a with payload := .str payload } }) with
        output := some (.str output) } }

/-- The texts that the approvals of an answer ask about. -/
def Answer.asked : Answer RunSnapshotDTO → List String
  | .ok snapshot => snapshot.approvals.filterMap fun a =>
    match a.payload with
    | some (.str text) => some text
    | _ => none
  | .runNotFound => []

end Deadbolt.Inspect

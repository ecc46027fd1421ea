import Deadbolt.Contracts.Mapped
import Deadbolt.Execution.Sample
import Deadbolt.Lifecycle.Recovery

/-!
# The two output maps

`advanceAfterStepSuccessTx` and `ReconcileReadyWork` load the outputs of a run and leave out a
stored JSON null; `Claim` loads every stored output. A mapping tells the two apart only where a
reference asks for a whole output that is null.
-/

namespace Deadbolt.Execution

open Base Contracts

/-- A reference to the whole output of a step. -/
def readsWhole (ref : List (String × Json)) : Bool :=
  Json.text (ref.lookup "$ref") == "step.output" &&
    match ref.lookup "pointer" with
    | some (.str s) => s == ""
    | _ => false

/-- No reference of the mapping to a whole output names a step that stored JSON null. -/
def Run.readsNoNull (r : Run) (mapping : Json) : Bool :=
  mapping.references.all fun ref => !(readsWhole ref &&
    ((r.storedOutputs.lookup (Json.text (ref.lookup "stepId"))).map Json.kind == some .null))

/-! ### Maps without nulls -/

def withoutNulls (outputs : Outputs) : Outputs := outputs.filter fun e => e.2.kind != .null

theorem Run.committedOutputs_eq (r : Run) : r.committedOutputs = withoutNulls r.storedOutputs := by
  unfold Run.committedOutputs Run.storedOutputs withoutNulls
  induction r.steps.rows with
  | nil => rfl
  | cons e rest ih =>
    rw [List.filterMap_cons, List.filterMap_cons]
    cases ho : e.2.output with
    | none => simpa [ho] using ih
    | some v => cases v <;> simpa [ho, Json.kind] using ih

theorem check_withoutNulls (outputs : Outputs) (depth : Nat) :
    (Json.obj (withoutNulls outputs)).check depth = (Json.obj outputs).check depth := by
  simp only [Json.check, Json.checkMembers_eq, withoutNulls, List.all_filter]
  congr 2
  funext e
  obtain ⟨key, v⟩ := e
  cases v <;> simp [Json.kind, Json.check]

theorem lookup_withoutNulls {outputs : Outputs} (h : (outputs.map Prod.fst).Nodup) (key : String) :
    (withoutNulls outputs).lookup key = (outputs.lookup key).filter fun v => v.kind != .null := by
  induction outputs with
  | nil => rfl
  | cons e rest ih =>
    obtain ⟨k, v⟩ := e
    obtain ⟨hk, hrest⟩ := List.nodup_cons.mp h
    have ih := ih hrest
    unfold withoutNulls at ih ⊢
    by_cases hkey : key = k
    · subst hkey
      have hnone : rest.lookup key = none := by
        refine List.lookup_eq_none_iff.mpr fun e he => ?_
        refine bne_iff_ne.mpr fun heq => hk ?_
        exact List.mem_map.mpr ⟨e, he, heq.symm⟩
      cases hv : v.kind != .null <;> simp [hv, ih, hnone, Option.filter]
    · have hne : (key == k) = false := by simpa using hkey
      cases hv : v.kind != .null <;> simp [List.lookup_cons, hv, hne, ih]

/-- A reference reads a null and an absent output alike, unless it asks for the whole output. -/
theorem mapReference_withoutNulls {ref : List (String × Json)} {input : Json} {outputs : Outputs}
    (hnodup : (outputs.map Prod.fst).Nodup)
    (h : readsWhole ref = true →
      (outputs.lookup (Json.text (ref.lookup "stepId"))).map Json.kind ≠ some .null) :
    mapReference ref input (withoutNulls outputs) = mapReference ref input outputs := by
  unfold mapReference
  cases hr : reference ref with
  | error err => rfl
  | ok u =>
    obtain ⟨parts, hparts⟩ := (reference_ok.mp hr).pointer
    by_cases hstep : Json.text (ref.lookup "$ref") = "step.output"
    · simp only [hstep, ↓reduceIte, lookup_withoutNulls hnodup]
      cases ho : outputs.lookup (Json.text (ref.lookup "stepId")) with
      | none => rfl
      | some v =>
        cases v with
        | null =>
          -- The null is not asked for as a whole, so the walk into it finds nothing.
          cases parts with
          | nil =>
            have hwhole : readsWhole ref = true := by
              simp [readsWhole, hstep, pointerParts_nil hparts]
            exact absurd (by rw [ho]; rfl) (h hwhole)
          | cons key rest => simp [Option.filter, Json.kind, lookup, hparts, lookupParts, bind, Except.bind]
        | _ => rfl
    · simp only [hstep, ↓reduceIte]

theorem Run.Shaped.outputs_nodup {r : Run} (h : r.Shaped) :
    (r.storedOutputs.map Prod.fst).Nodup := by
  refine h.nodup.sublist ?_
  unfold Run.storedOutputs
  induction r.steps.rows with
  | nil => exact .slnil
  | cons e rest ih =>
    cases ho : e.2.output with
    | none => simpa [ho] using ih.cons _
    | some v => simpa [ho] using ih

/-! ### Agreement -/

/-- In every reachable run, a mapping gives the same result over the outputs the evaluation loads
and over those `Claim` loads, unless one of its references asks for a whole output that is null. -/
theorem loaded_outputs_agree [Platform] {fleet : Fleet} {os : List Operation} {id : RunID}
    {r : Run} (hr : (installation.exec (World.initial fleet) os).db.runs.find? id = some r)
    {mapping : Json} (hnull : r.readsNoNull mapping = true) :
    mapInput mapping r.input r.committedOutputs = mapInput mapping r.input r.storedOutputs := by
  have hnodup := (installation_sound hr).1.shaped.outputs_nodup
  rw [Run.committedOutputs_eq, mapInput, mapInput, check_withoutNulls]
  congr 1
  refine mapWalk_congr fun ref href => mapReference_withoutNulls hnodup fun hwhole hkind => ?_
  have := List.all_eq_true.mp hnull ref href
  simp [hwhole, hkind] at this

/-- A task `b` after `a` whose input is the output of `a` at the pointer, or five. -/
def Sample.defaulted (pointer : String) : Json :=
  .obj [("$ref", .str "step.output"), ("stepId", .str "a"), ("pointer", .str pointer),
    ("default", .num 5)]

def Sample.mapped (pointer : String) : Fleet :=
  Sample.fleet [Sample.taskManifest "a" "safe" none, Sample.taskManifest "b" "safe" none]
    [Sample.workflow "w" [Sample.taskNode "a" [],
      { Sample.taskNode "b" ["a"] with input := some (Sample.defaulted pointer) }]]

def Sample.succeededFirst : List Operation :=
  [.engine (.createRun Sample.request), .engine (.claimSnapshot Sample.session 1 []),
   .engine (.claimCommit 0 [true] [] []), .engine (.start Sample.session 3 1),
   .engine (.complete Sample.session (Sample.completion 3 .succeeded none) .unavailable)]

theorem loaded_outputs_agree_inner :
    ∃ r, ((@installation Sample.platform).exec (World.initial (Sample.mapped "/total"))
        Sample.succeededFirst).db.runs.find? 0 = some r ∧
      mapInput (Sample.defaulted "/total") r.input r.committedOutputs =
        mapInput (Sample.defaulted "/total") r.input r.storedOutputs := by
  obtain ⟨r, hr, hnull⟩ := (Option.any_eq_true (fun r : Run =>
    r.readsNoNull (Sample.defaulted "/total")) (((@installation Sample.platform).exec
      (World.initial (Sample.mapped "/total")) Sample.succeededFirst).db.runs.find? 0)).mp
        (by decide +kernel)
  exact ⟨r, hr, @loaded_outputs_agree Sample.platform _ _ _ r hr _ hnull⟩

/-- The task `b` is made ready with the default, and a claim hands it the null of `a`. -/
theorem null_output_diverges :
    (((@installation Sample.platform).exec (World.initial (Sample.mapped ""))
        Sample.succeededFirst).db.runs.find? 0).any (fun r =>
      (r.steps.find? 2).any (fun s => s.state == .ready) &&
        ((mapInput (Sample.defaulted "") r.input r.committedOutputs).toOption.map Json.kind ==
          some .number) &&
        ((mapInput (Sample.defaulted "") r.input r.storedOutputs).toOption.map Json.kind ==
          some .null) &&
        ((@assignmentInput Sample.platform r "b").toOption.map Json.kind == some .null)) = true := by
  decide +kernel

end Deadbolt.Execution

import Deadbolt.Base.Fallible
import Deadbolt.Contracts.Mapping

/-!
# What a mapping can build

A mapped value is put together from parts of the mapping, the run input and the outputs, so it
has every property that a value has exactly when its parts have it. The depth is no such property:
a reference may stand at any depth of a mapping.
-/

namespace Deadbolt.Contracts

open Base

namespace Json

/-- A property that an array or an object has when its parts have it; of the keys of an object it
asks `K`. -/
structure Partwise (K : List String → Prop) (P : Json → Prop) : Prop where
  arr : ∀ {items : List Json}, P (.arr items) ↔ ∀ v ∈ items, P v
  obj : ∀ {members : List (String × Json)},
    P (.obj members) ↔ K (members.map Prod.fst) ∧ ∀ m ∈ members, P m.2

theorem partwise_distinct : Partwise List.Nodup fun v => v.distinct = true where
  arr := distinct_arr
  obj := distinct_obj

mutual

def numbersSafe : Json → Bool
  | .num n => safeNumber n
  | .arr items => numbersSafeItems items
  | .obj members => numbersSafeMembers members
  | _ => true
termination_by structural v => v

def numbersSafeItems : List Json → Bool
  | [] => true
  | item :: rest => numbersSafe item && numbersSafeItems rest
termination_by structural items => items

def numbersSafeMembers : List (String × Json) → Bool
  | [] => true
  | member :: rest => numbersSafeMember member && numbersSafeMembers rest
termination_by structural members => members

def numbersSafeMember : String × Json → Bool
  | (_, item) => numbersSafe item
termination_by structural member => member

end

mutual

def depth : Json → Nat
  | .arr items => depthItems items + 1
  | .obj members => depthMembers members + 1
  | _ => 0
termination_by structural v => v

def depthItems : List Json → Nat
  | [] => 0
  | item :: rest => max (depth item) (depthItems rest)
termination_by structural items => items

def depthMembers : List (String × Json) → Nat
  | [] => 0
  | member :: rest => max (depthMember member) (depthMembers rest)
termination_by structural members => members

def depthMember : String × Json → Nat
  | (_, item) => depth item
termination_by structural member => member

end

theorem partwise_numbersSafe : Partwise (fun _ => True) fun v => v.numbersSafe = true where
  arr {items} := by
    simp only [numbersSafe]
    induction items with
    | nil => simp [numbersSafeItems]
    | cons item rest ih =>
      simp only [numbersSafeItems, Bool.and_eq_true, ih, List.forall_mem_cons]
  obj {members} := by
    simp only [numbersSafe, true_and]
    induction members with
    | nil => simp [numbersSafeMembers]
    | cons member rest ih =>
      obtain ⟨key, item⟩ := member
      simp only [numbersSafeMembers, numbersSafeMember, Bool.and_eq_true, ih, List.forall_mem_cons]

theorem depthItems_le {items : List Json} {n : Nat} :
    depthItems items ≤ n ↔ ∀ v ∈ items, v.depth ≤ n := by
  induction items with
  | nil => simp [depthItems]
  | cons item rest ih => simp only [depthItems, max_le_iff, ih, List.forall_mem_cons]

variable {v : Json}

theorem depth_item_le {items : List Json} (hv : v ∈ items) : v.depth ≤ (Json.arr items).depth := by
  have h := depthItems_le.mp (le_refl (depthItems items)) v hv
  simp only [depth]
  omega

theorem depthMembers_le {members : List (String × Json)} {n : Nat} :
    depthMembers members ≤ n ↔ ∀ m ∈ members, m.2.depth ≤ n := by
  induction members with
  | nil => simp [depthMembers]
  | cons member rest ih =>
    obtain ⟨key, item⟩ := member
    simp only [depthMembers, depthMember, max_le_iff, ih, List.forall_mem_cons]

/-- One level above parts whose depths are at most `D` and no less. -/
theorem nested_le {α : Type} {parts : List α} {f : α → Nat} {D d m : Nat}
    (hD : ∀ {n}, D ≤ n ↔ ∀ v ∈ parts, f v ≤ n) :
    d + (D + 1) ≤ m ↔ d < m ∧ ∀ v ∈ parts, f v = 0 ∨ d + 1 + f v ≤ m := by
  constructor
  · intro h
    have hle := hD.mp (le_refl D)
    refine ⟨by omega, fun v hv => .inr ?_⟩
    have hv := hle v hv
    omega
  · rintro ⟨hd, h⟩
    have hle : D ≤ m - (d + 1) := hD.mpr fun v hv => by rcases h v hv with h | h <;> omega
    omega

/-- `checkJSON` asks for safe numbers and a depth of at most 32. -/
theorem check_iff {d : Nat} : v.check d = true ↔
    v.numbersSafe = true ∧ (v.depth = 0 ∨ d + v.depth ≤ maxDepth) := by
  induction v generalizing d with
  | arr items ih =>
    simp only [check, checkItems_eq, Bool.and_eq_true, decide_eq_true_eq, List.all_eq_true,
      partwise_numbersSafe.arr, depth, Nat.add_eq_zero_iff, one_ne_zero, and_false, false_or,
      nested_le depthItems_le]
    rw [and_left_comm, ← forall₂_and]
    exact and_congr_right fun _ => forall₂_congr fun v hv => ih v hv
  | obj members ih =>
    simp only [check, checkMembers_eq, Bool.and_eq_true, decide_eq_true_eq, List.all_eq_true,
      partwise_numbersSafe.obj, true_and, depth, Nat.add_eq_zero_iff, one_ne_zero, and_false,
      false_or, nested_le depthMembers_le]
    rw [and_left_comm, ← forall₂_and]
    exact and_congr_right fun _ => forall₂_congr fun m hm => ih m hm
  | _ => simp [check, numbersSafe, depth]

theorem check_of_depth (hv : v.numbersSafe = true) (hd : v.depth ≤ maxDepth) : v.check 0 = true :=
  check_iff.mpr ⟨hv, .inr (by rwa [Nat.zero_add])⟩

end Json

/-! ### References -/

/-- What `Reference` asks of the members of a reference. -/
structure IsReference (v : List (String × Json)) : Prop where
  ref : Json.text (v.lookup "$ref") = "run.input" ∨ Json.text (v.lookup "$ref") = "step.output"
  keys : ∀ m ∈ v, m.1 ∈ ["$ref", "pointer", "default"] ∨
    m.1 = "stepId" ∧ Json.text (v.lookup "$ref") = "step.output"
  stepID : Json.text (v.lookup "$ref") = "step.output" → ∃ s, v.lookup "stepId" = some (.str s)
  pointer : ∃ parts, pointerParts (v.lookup "pointer") = .ok parts

theorem pointerParts_error {pointer : Option Json} {err : ContractError}
    (h : pointerParts pointer = .error err) : err = .inputMappingError := by
  unfold pointerParts at h
  repeat' split at h
  all_goals first | exact (Except.error.inj h).symm | cases h

/-- Only the empty pointer names a whole value. -/
theorem pointerParts_nil {pointer : Option Json} (h : pointerParts pointer = .ok []) :
    pointer = some (.str "") := by
  unfold pointerParts at h
  split at h
  · next s =>
    split at h
    · next hs => rw [String.toList_eq_nil_iff.mp hs]
    · next rest hs =>
      split at h
      · exact absurd (List.map_eq_nil_iff.mp (Except.ok.inj h)) (Text.split_ne_nil _ _)
      · cases h
    · cases h
  · cases h

theorem reference_ok {v : List (String × Json)} : reference v = .ok () ↔ IsReference v := by
  have hkeys : (v.any fun m => m.1 != "$ref" && m.1 != "pointer" && m.1 != "default" &&
      !(m.1 == "stepId" && Json.text (v.lookup "$ref") == "step.output")) = false ↔
      ∀ m ∈ v, m.1 ∈ ["$ref", "pointer", "default"] ∨
        m.1 = "stepId" ∧ Json.text (v.lookup "$ref") = "step.output" := by
    simp only [List.any_eq_false, List.mem_cons]
    refine forall₂_congr fun m hm => ?_
    simp
    tauto
  have hparts : (do let _ ← pointerParts (v.lookup "pointer") : Except ContractError Unit) = .ok () ↔
      ∃ parts, pointerParts (v.lookup "pointer") = .ok parts := by
    cases pointerParts (v.lookup "pointer") <;> simp [bind, Except.bind, pure, Except.pure]
  unfold reference
  dsimp only
  split
  · next hr =>
    exact iff_of_false nofun fun h => h.ref.elim hr.1 hr.2
  · next hr =>
    have href : Json.text (v.lookup "$ref") = "run.input" ∨
      Json.text (v.lookup "$ref") = "step.output" := by tauto
    split
    · next hk =>
      exact iff_of_false nofun fun h => absurd (hk.symm.trans (hkeys.mpr h.keys)) nofun
    · next hk =>
      have hk := hkeys.mp (by simpa using hk)
      split
      · next hstep =>
        split
        · next s hs =>
          exact hparts.trans ⟨fun hp => ⟨href, hk, fun _ => ⟨s, hs⟩, hp⟩, fun h => h.pointer⟩
        · next h => exact iff_of_false nofun fun hv => (hv.stepID hstep).elim fun s hs => h s hs
      · next hstep =>
        exact hparts.trans ⟨fun hp => ⟨href, hk, fun h => absurd h hstep, hp⟩, fun h => h.pointer⟩

theorem reference_error {v : List (String × Json)} {err : ContractError}
    (h : reference v = .error err) : err = .inputMappingError := by
  unfold reference at h
  dsimp only at h
  have hparts (h : (do let _ ← pointerParts (v.lookup "pointer") : Except ContractError Unit) =
      .error err) : err = .inputMappingError := by
    cases hp : pointerParts (v.lookup "pointer") with
    | ok parts => simp [hp, bind, Except.bind, pure, Except.pure] at h
    | error e =>
      rw [hp] at h
      exact Except.error.inj h ▸ pointerParts_error hp
  split at h
  · exact (Except.error.inj h).symm
  · split at h
    · exact (Except.error.inj h).symm
    · split at h
      · split at h
        · exact hparts h
        · exact (Except.error.inj h).symm
      · exact hparts h

mutual

/-- The references a mapping walk reaches. -/
def Json.references : Json → List (List (String × Json))
  | .arr items => referencesItems items
  | .obj members =>
    match members.lookup "literal" with
    | some _ => []
    | none =>
      match members.lookup "$ref" with
      | some _ => [members]
      | none => referencesMembers members
  | _ => []
termination_by structural v => v

def Json.referencesItems : List Json → List (List (String × Json))
  | [] => []
  | item :: rest => item.references ++ referencesItems rest
termination_by structural items => items

def Json.referencesMembers : List (String × Json) → List (List (String × Json))
  | [] => []
  | member :: rest => referencesMember member ++ referencesMembers rest
termination_by structural members => members

def Json.referencesMember : String × Json → List (List (String × Json))
  | (_, item) => item.references
termination_by structural member => member

end

variable {input mapping v : Json} {outputs outputs' : Outputs}

theorem mapItems_congr {items : List Json}
    (h : ∀ v ∈ items, mapWalk input outputs v = mapWalk input outputs' v) :
    mapItems input outputs items = mapItems input outputs' items := by
  induction items with
  | nil => rfl
  | cons item rest ih =>
    obtain ⟨hitem, hrest⟩ := List.forall_mem_cons.mp h
    simp only [mapItems, hitem, ih hrest]

theorem mapMembers_congr {members : List (String × Json)}
    (h : ∀ m ∈ members, mapWalk input outputs m.2 = mapWalk input outputs' m.2) :
    mapMembers input outputs members = mapMembers input outputs' members := by
  induction members with
  | nil => rfl
  | cons member rest ih =>
    obtain ⟨hmember, hrest⟩ := List.forall_mem_cons.mp h
    obtain ⟨key, item⟩ := member
    simp only [mapMembers, mapMember, hmember, ih hrest]

theorem mem_referencesItems {items : List Json} {ref : List (String × Json)} :
    ref ∈ Json.referencesItems items ↔ ∃ v ∈ items, ref ∈ v.references := by
  induction items with
  | nil => simp [Json.referencesItems]
  | cons item rest ih => simp [Json.referencesItems, ih]

theorem mem_referencesMembers {members : List (String × Json)} {ref : List (String × Json)} :
    ref ∈ Json.referencesMembers members ↔ ∃ m ∈ members, ref ∈ m.2.references := by
  induction members with
  | nil => simp [Json.referencesMembers]
  | cons member rest ih =>
    obtain ⟨key, item⟩ := member
    simp [Json.referencesMembers, Json.referencesMember, ih]

/-- A mapping reads the outputs through its references alone. -/
theorem mapWalk_congr (h : ∀ ref ∈ mapping.references,
      mapReference ref input outputs = mapReference ref input outputs') :
    mapWalk input outputs mapping = mapWalk input outputs' mapping := by
  induction mapping with
  | arr items ih =>
    simp only [Json.references, mem_referencesItems] at h
    simp only [mapWalk]
    rw [mapItems_congr fun v hv => ih v hv fun ref href => h ref ⟨v, hv, href⟩]
  | obj members ih =>
    simp only [Json.references] at h
    simp only [mapWalk]
    split
    · rfl
    · next hliteral =>
      simp only [hliteral] at h
      split
      · next href =>
        simp only [href] at h
        exact h members List.mem_cons_self
      · next href =>
        simp only [href, mem_referencesMembers] at h
        rw [mapMembers_congr fun m hm => ih m hm fun ref href => h ref ⟨m, hm, href⟩]
  | _ => rfl

section Partwise

variable {K : List String → Prop} {P : Json → Prop} (hP : Json.Partwise K P)
include hP

variable {v input : Json} {outputs : Outputs}

theorem lookupParts_keeps {w : Json} {parts : List String} (hv : P v)
    (h : lookupParts v parts = some w) : P w := by
  induction parts generalizing v with
  | nil =>
    cases v <;> exact Option.some.inj h ▸ hv
  | cons key rest ih =>
    cases v with
    | obj members =>
      simp only [lookupParts] at h
      split at h
      · next v hf => exact ih ((hP.obj.mp hv).2 _ (mem_of_lookup hf)) h
      · cases h
    | arr items =>
      simp only [lookupParts] at h
      split at h
      · split at h
        · next v hf => exact ih (hP.arr.mp hv v (List.mem_of_getElem? hf)) h
        · cases h
      · cases h
    | _ => cases h

theorem mapReference_keeps {members : List (String × Json)} (hm : ∀ m ∈ members, P m.2)
    (hi : P input) (ho : ∀ e ∈ outputs, P e.2) (h : mapReference members input outputs = .ok v) :
    P v := by
  have hdefault {w : Json} (h : (match members.lookup "default" with
      | some value => (pure value : Except ContractError Json)
      | none => throw ContractError.inputMappingError) = .ok w) : P w := by
    split at h
    · next hw => exact Except.ok.inj h ▸ hm _ (mem_of_lookup hw)
    · cases h
  obtain ⟨-, -, h⟩ := Fallible.bind_eq_ok.mp h
  dsimp only at h
  split at h
  · next source hs =>
    have hsource : P source := by
      split at hs
      · exact ho _ (mem_of_lookup hs)
      · exact Option.some.inj hs ▸ hi
    obtain ⟨found, hf, h⟩ := Fallible.bind_eq_ok.mp h
    obtain ⟨parts, -, hf⟩ := Fallible.bind_eq_ok.mp hf
    cases found with
    | some w => exact Except.ok.inj h ▸ lookupParts_keeps hP hsource (Except.ok.inj hf)
    | none => exact hdefault h
  · exact hdefault h

omit hP in
theorem mapItems_ok {items vs : List Json} (h : mapItems input outputs items = .ok vs) :
    ∀ v ∈ vs, ∃ item ∈ items, mapWalk input outputs item = .ok v := by
  induction items generalizing vs with
  | nil =>
    obtain rfl := Except.ok.inj h
    simp
  | cons item rest ih =>
    simp only [mapItems] at h
    obtain ⟨w, hw, h⟩ := Fallible.bind_eq_ok.mp h
    obtain ⟨ws, hws, h⟩ := Fallible.bind_eq_ok.mp h
    obtain rfl := Except.ok.inj h
    rintro v (_ | ⟨_, hv⟩)
    · exact ⟨item, List.mem_cons_self, hw⟩
    · obtain ⟨i, hi, hm⟩ := ih hws v hv
      exact ⟨i, List.mem_cons_of_mem _ hi, hm⟩

omit hP in
theorem mapMembers_ok {members vs : List (String × Json)}
    (h : mapMembers input outputs members = .ok vs) : vs.map Prod.fst = members.map Prod.fst ∧
      ∀ e ∈ vs, ∃ m ∈ members, mapWalk input outputs m.2 = .ok e.2 := by
  induction members generalizing vs with
  | nil =>
    obtain rfl := Except.ok.inj h
    simp
  | cons member rest ih =>
    obtain ⟨key, item⟩ := member
    simp only [mapMembers, mapMember] at h
    obtain ⟨w, hw, h⟩ := Fallible.bind_eq_ok.mp h
    obtain ⟨v, hv, hw⟩ := Fallible.bind_eq_ok.mp hw
    obtain rfl := Except.ok.inj hw
    obtain ⟨ws, hws, h⟩ := Fallible.bind_eq_ok.mp h
    obtain rfl := Except.ok.inj h
    obtain ⟨hkeys, hvalues⟩ := ih hws
    refine ⟨by simp [hkeys], ?_⟩
    rintro e (_ | ⟨_, he⟩)
    · exact ⟨(key, item), List.mem_cons_self, hv⟩
    · obtain ⟨m, hm, hv⟩ := hvalues e he
      exact ⟨m, List.mem_cons_of_mem _ hm, hv⟩

/-- A mapped value has the properties its sources have. -/
theorem mapWalk_keeps {mapping : Json} (hm : P mapping) (hi : P input) (ho : ∀ e ∈ outputs, P e.2)
    (h : mapWalk input outputs mapping = .ok v) : P v := by
  induction mapping generalizing v with
  | arr items ih =>
    obtain ⟨vs, hvs, h⟩ := Fallible.bind_eq_ok.mp (by simpa only [mapWalk] using h)
    obtain rfl := Except.ok.inj h
    refine hP.arr.mpr fun v hv => ?_
    obtain ⟨item, hitem, hw⟩ := mapItems_ok hvs v hv
    exact ih item hitem (hP.arr.mp hm item hitem) hw
  | obj members ih =>
    have hparts := (hP.obj.mp hm).2
    simp only [mapWalk] at h
    split at h
    · next literal hl =>
      split at h
      · exact Except.ok.inj h ▸ hparts _ (mem_of_lookup hl)
      · cases h
    · split at h
      · exact mapReference_keeps hP hparts hi ho h
      · obtain ⟨vs, hvs, h⟩ := Fallible.bind_eq_ok.mp h
        obtain rfl := Except.ok.inj h
        obtain ⟨hkeys, hvalues⟩ := mapMembers_ok hvs
        refine hP.obj.mpr ⟨hkeys ▸ (hP.obj.mp hm).1, fun e he => ?_⟩
        obtain ⟨m, hmem, hw⟩ := hvalues e he
        exact ih m hmem (hparts m hmem) hw
  | _ => exact Except.ok.inj h ▸ hm

end Partwise

theorem mapInput_ok (h : mapInput mapping input outputs = .ok v) :
    mapping.check 0 = true ∧ input.check 0 = true ∧ (Json.obj outputs).check 0 = true ∧
      mapWalk input outputs mapping = .ok v := by
  unfold mapInput at h
  split at h
  · next hc =>
    simp only [Bool.and_eq_true] at hc
    exact ⟨hc.1.1, hc.1.2, hc.2, h⟩
  · cases h

theorem mapInput_numbersSafe (h : mapInput mapping input outputs = .ok v) :
    v.numbersSafe = true := by
  obtain ⟨hm, hi, ho, hw⟩ := mapInput_ok h
  refine mapWalk_keeps Json.partwise_numbersSafe (Json.check_iff.mp hm).1 (Json.check_iff.mp hi).1
    ?_ hw
  exact (Json.partwise_numbersSafe.obj.mp (Json.check_iff.mp ho).1).2

theorem mapInput_distinct (hm : mapping.distinct = true) (hi : input.distinct = true)
    (ho : (Json.obj outputs).distinct = true) (h : mapInput mapping input outputs = .ok v) :
    v.distinct = true :=
  mapWalk_keeps Json.partwise_distinct hm hi (Json.partwise_distinct.obj.mp ho).2 (mapInput_ok h).2.2.2

/-! ### Expressions -/

end Deadbolt.Contracts

import Deadbolt.Sdk.Mapping

/-!
# The SDK evaluates what the engine evaluates

The interpreters of the SDK and of the engine return the same values and fail together. A mapping
gives the same result, the error code included. An expression does so as long as the operands it
compares are not nested deeper than a canonical text allows: there the engine drops the
canonicalizer's error and the SDK reports it.
-/

namespace Deadbolt.Sdk

open Base Contracts

/-! ### Values and pointers -/

theorem assertNumber_eq (n : Rat) : assertJSON (.num n) 0 = Json.safeNumber n := by
  simp only [assertJSON, isSafeInteger, Json.safeNumber]
  rw [Bool.eq_iff_iff]
  by_cases h : n.den = 1
  · simp [h, not_lt]
    tauto
  · simp [h]

theorem assertJSON_eq (v : Json) (depth : Nat) : assertJSON v depth = v.check depth := by
  induction v generalizing depth with
  | arr items ih =>
    have hitems : assertItems items (depth + 1) = items.all fun v => v.check (depth + 1) := by
      induction items with
      | nil => rfl
      | cons item rest ih' =>
        obtain ⟨hitem, hrest⟩ := List.forall_mem_cons.mp ih
        simp only [assertItems, List.all_cons, hitem, ih' hrest]
    simp only [assertJSON, Json.check, Json.checkItems_eq, hitems]
    rfl
  | obj members ih =>
    have hmembers : assertMembers members (depth + 1) =
        members.all fun m => m.2.check (depth + 1) := by
      induction members with
      | nil => rfl
      | cons member rest ih' =>
        obtain ⟨key, item⟩ := member
        obtain ⟨hitem, hrest⟩ := List.forall_mem_cons.mp ih
        simp only [assertMembers, assertMember, List.all_cons, ih' hrest]
        rw [hitem]
    simp only [assertJSON, Json.check, Json.checkMembers_eq, hmembers]
    rfl
  | num n => exact assertNumber_eq n
  | _ => rfl

theorem strayTilde_eq (cs : List Char) : strayTilde cs = !pointerEscapes cs := by
  fun_induction pointerEscapes cs with
  | case1 => rfl
  | case2 rest ih => simp [strayTilde, ih]
  | case3 rest ih => simp [strayTilde, ih]
  | case4 rest h1 h2 =>
    have hhead : rest.head? ≠ some '0' ∧ rest.head? ≠ some '1' := by
      cases rest with
      | nil => simp
      | cons c rest =>
        exact ⟨fun h => h1 rest (by simpa using h), fun h => h2 rest (by simpa using h)⟩
    simp [strayTilde, hhead]
  | case5 c rest h1 h2 h3 ih => 
    have hc : (c == '~') = false := by
      rw [beq_eq_false_iff_ne]
      exact h3
    simp [strayTilde, hc, ih]

theorem pointerParts_eq (pointer : Option Json) :
    pointerParts pointer = Contracts.pointerParts pointer := by
  rcases pointer with _ | v
  · rfl
  cases v with
  | str s =>
    simp only [pointerParts, Contracts.pointerParts]
    have hs : s = "" ↔ s.toList = [] := by simp
    cases hcs : s.toList with
    | nil => simp [hs, hcs, strayTilde]
    | cons c rest =>
      by_cases hc : c = '/'
      · subst hc
        cases he : pointerEscapes rest <;> simp [hs, hcs, strayTilde, strayTilde_eq, he]
      · simp [hs, hcs, hc]
  | _ => rfl

theorem lookupParts_eq (v : Json) (parts : List String) :
    lookupParts v parts = Contracts.lookupParts v parts := by
  induction parts generalizing v with
  | nil => cases v <;> rfl
  | cons key rest ih =>
    cases v with
    | obj members =>
      cases hm : members.lookup key <;>
        simp [lookupParts, Contracts.lookupParts, hasOwn, property?, Json.kind, hm, ih]
    | arr items =>
      -- `length` is an own property too, and no index.
      cases hd : Text.decimal? key.toList with
      | none => simp [lookupParts, Contracts.lookupParts, hasOwn, Json.kind, hd]
      | some i =>
        have hne : (key == "length") = false := by
          rw [beq_eq_false_iff_ne]
          rintro rfl
          cases hd.symm.trans (by decide : Text.decimal? "length".toList = none)
        cases hi : items[i]? with
        | none =>
          have hlt : ¬ i < items.length := by simpa using hi
          simp [lookupParts, Contracts.lookupParts, hasOwn, hd, hne, hlt]
        | some v =>
          have hlt : i < items.length := (List.getElem?_eq_some_iff.mp hi).1
          simp [lookupParts, Contracts.lookupParts, hasOwn, property?, Json.kind, hd, hlt, ih]
    | _ => rfl

theorem lookup_eq (v : Json) (pointer : Option Json) :
    lookup v pointer = Contracts.lookup v pointer := by
  simp only [lookup, Contracts.lookup, pointerParts_eq, lookupParts_eq]

variable {v : Option Json} {op : String} {input : Json} {outputs : Outputs}

theorem string?_eq_some {s : String} : string? v = some s ↔ v = some (.str s) := by
  match v with
  | some (.str t) => simp [string?]
  | none => simp [string?]
  | some .null => simp [string?]
  | some (.bool _) => simp [string?]
  | some (.num _) => simp [string?]
  | some (.arr _) => simp [string?]
  | some (.obj _) => simp [string?]

theorem text_eq (s : String) (hs : s ≠ "") : Json.text v = s ↔ string? v = some s := by
  match v with
  | some (.str t) => simp [string?, Json.text]
  | none => simp [string?, Json.text, hs.symm]
  | some .null => simp [string?, Json.text, hs.symm]
  | some (.bool _) => simp [string?, Json.text, hs.symm]
  | some (.num _) => simp [string?, Json.text, hs.symm]
  | some (.arr _) => simp [string?, Json.text, hs.symm]
  | some (.obj _) => simp [string?, Json.text, hs.symm]

theorem reference_ok {v : List (String × Json)} : reference v = .ok () ↔ IsReference v := by
  have hparts : (do let _ ← pointerParts (v.lookup "pointer") : Except ContractError Unit) =
      .ok () ↔ ∃ parts, Contracts.pointerParts (v.lookup "pointer") = .ok parts := by
    rw [pointerParts_eq]
    cases Contracts.pointerParts (v.lookup "pointer") <;>
      simp [bind, Except.bind, pure, Except.pure]
  unfold reference
  split
  · next h =>
    refine iff_of_false nofun fun hv => hv.ref.elim (fun hr => ?_) fun hr => ?_
    · exact absurd (h.symm.trans ((text_eq "run.input" (by decide)).mp hr)) nofun
    · exact absurd (h.symm.trans ((text_eq "step.output" (by decide)).mp hr)) nofun
  · next ref href =>
    have htext : Json.text (v.lookup "$ref") = ref := by
      rw [string?_eq_some.mp href, Json.text]
    split
    · next hr => exact iff_of_false nofun fun h => h.ref.elim (htext ▸ hr.1) (htext ▸ hr.2)
    · next hr =>
      have hkeys : (v.any fun m => !(allowedKeys ref).contains m.1) = false ↔
          ∀ m ∈ v, m.1 ∈ ["$ref", "pointer", "default"] ∨ m.1 = "stepId" ∧ ref = "step.output" := by
        simp only [List.any_eq_false]
        refine forall₂_congr fun m hm => ?_
        by_cases hs : ref = "step.output" <;> simp [allowedKeys, hs] <;> tauto
      have hid : (ref == "step.output" && (string? (v.lookup "stepId")).isNone) = false ↔
          (ref = "step.output" → ∃ s, v.lookup "stepId" = some (.str s)) := by
        simp only [← string?_eq_some, ← Option.isSome_iff_exists]
        by_cases hs : ref = "step.output" <;> simp [hs, ← Option.not_isSome]
      split
      · next hbad =>
        refine iff_of_false nofun fun h => ?_
        rw [hkeys.mpr (htext ▸ h.keys), hid.mpr (htext ▸ h.stepID)] at hbad
        cases hbad
      · next hgood =>
        simp only [Bool.or_eq_true, not_or, Bool.not_eq_true] at hgood
        subst htext
        refine hparts.trans ⟨fun hp => ⟨by tauto, hkeys.mp hgood.1, hid.mp hgood.2, hp⟩,
          fun h => h.pointer⟩

theorem reference_error {v : List (String × Json)} {err : ContractError}
    (h : reference v = .error err) : err = .inputMappingError := by
  unfold reference at h
  split at h
  · exact (Except.error.inj h).symm
  · split at h
    · exact (Except.error.inj h).symm
    · split at h
      · exact (Except.error.inj h).symm
      · cases hp : pointerParts (v.lookup "pointer") with
        | ok parts => simp [hp, bind, Except.bind, pure, Except.pure] at h
        | error e =>
          rw [hp] at h
          rw [pointerParts_eq] at hp
          exact Except.error.inj h ▸ Contracts.pointerParts_error hp

theorem reference_eq (v : List (String × Json)) : reference v = Contracts.reference v := by
  cases hs : reference v with
  | ok => exact (Contracts.reference_ok.mpr (reference_ok.mp hs)).symm
  | error e =>
    cases hc : Contracts.reference v with
    | ok =>
      rw [reference_ok.mpr (Contracts.reference_ok.mp hc)] at hs
      cases hs
    | error e' => rw [reference_error hs, Contracts.reference_error hc]

/-! ### Mappings -/

theorem mapReference_eq (v : List (String × Json)) (input : Json) (outputs : Outputs) :
    mapReference v input outputs = Contracts.mapReference v input outputs := by
  unfold mapReference Contracts.mapReference
  rw [reference_eq]
  cases hr : Contracts.reference v with
  | error e => rfl
  | ok =>
    have hsource : (if Json.text (v.lookup "$ref") = "run.input" then some input
        else outputs.lookup (Json.text (v.lookup "stepId"))) =
        if Json.text (v.lookup "$ref") = "step.output" then
          outputs.lookup (Json.text (v.lookup "stepId")) else some input := by
      rcases (Contracts.reference_ok.mp hr).ref with h | h <;> simp [h]
    simp only [hsource, lookup_eq, bind, Except.bind]
    generalize (if Json.text (v.lookup "$ref") = "step.output" then
      outputs.lookup (Json.text (v.lookup "stepId")) else some input) = source
    cases source with
    | none => cases v.lookup "default" <;> rfl
    | some s =>
      dsimp only
      cases Contracts.lookup s (v.lookup "pointer") with
      | error e => rfl
      | ok found => cases found <;> cases v.lookup "default" <;> rfl

theorem mapWalk_eq (input : Json) (outputs : Outputs) (mapping : Json) :
    mapWalk input outputs mapping = Contracts.mapWalk input outputs mapping := by
  induction mapping with
  | arr items ih =>
    have hitems : mapItems input outputs items = Contracts.mapItems input outputs items := by
      induction items with
      | nil => rfl
      | cons item rest ih' =>
        obtain ⟨hitem, hrest⟩ := List.forall_mem_cons.mp ih
        simp only [mapItems, Contracts.mapItems, hitem, ih' hrest]
    simp only [mapWalk, Contracts.mapWalk, hitems]
  | obj members ih =>
    have hmembers : mapMembers input outputs members =
        Contracts.mapMembers input outputs members := by
      induction members with
      | nil => rfl
      | cons member rest ih' =>
        obtain ⟨key, item⟩ := member
        obtain ⟨hitem, hrest⟩ := List.forall_mem_cons.mp ih
        simp only [mapMembers, mapMember, Contracts.mapMembers, Contracts.mapMember, ih' hrest]
        rw [hitem]
    simp only [mapWalk, Contracts.mapWalk, hmembers, mapReference_eq]
    cases members.lookup "literal" with
    | some literal => by_cases hl : members.length = 1 <;> simp [hl]
    | none => cases members.lookup "$ref" <;> simp
  | _ => rfl

/-- The SDK maps inputs as the engine does, errors included. -/
theorem mapInput_eq (mapping input : Json) (outputs : Outputs) :
    mapInput mapping input outputs = Contracts.mapInput mapping input outputs := by
  unfold mapInput Contracts.mapInput
  simp only [assertJSON_eq, mapWalk_eq]
  cases mapping.check 0 <;> cases input.check 0 <;> cases (Json.obj outputs).check 0 <;> rfl

/-! ### Choice expressions -/

/-- The texts of two values that are not nested too deep are compared as the engine does. -/
theorem equal_eq {a b : Json} (ha : a.check 0 = true) (hb : b.check 0 = true) :
    equal a b = choiceEqual a b := by
  have htext : equal a b = if a.kind ≠ b.kind then .error .invalidExpression
      else .ok (a.normalize.serialize == b.normalize.serialize) := by
    unfold equal canonicalize
    rw [assertJSON_eq, assertJSON_eq, if_pos ha, if_pos hb]
    split <;> rfl
  have hcanonical : a.canonicalEq b = (a.normalize.serialize == b.normalize.serialize) := by
    simp only [Json.canonicalEq, Json.canonicalizeGeneric, if_pos ha, if_pos hb]
    rfl
  have hvalue : (a.normalize.serialize == b.normalize.serialize) = true ↔
      a.normalize = b.normalize := by
    rw [beq_iff_eq, Json.serialize_injective.eq_iff]
  rw [htext]
  by_cases hkind : a.kind = b.kind
  · rw [if_neg (not_not.mpr hkind)]
    cases a <;> cases b <;> first
      | cases hkind; done
      | exact congrArg Except.ok hcanonical.symm
      | exact congrArg Except.ok (Bool.eq_iff_iff.mpr (hvalue.trans (by simp [Json.normalize])))
  · rw [if_pos hkind]
    cases a <;> cases b <;> first | rfl | exact absurd rfl hkind

/-- A value of a canonical text. -/
structure Canonical (v : Json) : Prop where
  numbersSafe : v.numbersSafe = true
  depth : v.depth ≤ maxDepth

theorem Canonical.check {v : Json} (h : Canonical v) : v.check 0 = true :=
  Json.check_of_depth h.numbersSafe h.depth

theorem Canonical.item {v : Json} {items : List Json} (h : Canonical (.arr items))
    (hv : v ∈ items) : Canonical v :=
  ⟨Json.partwise_numbersSafe.arr.mp h.numbersSafe v hv, (Json.depth_item_le hv).trans h.depth⟩

theorem foldl_or (bs : List Bool) (acc : Bool) :
    bs.foldl (fun r b => r || b) acc = (acc || bs.any id) := by
  induction bs generalizing acc with
  | nil => simp
  | cons b bs ih => simp [ih, Bool.or_assoc]

theorem foldl_and (bs : List Bool) (acc : Bool) :
    bs.foldl (fun r b => r && b) acc = (acc && bs.all id) := by
  induction bs generalizing acc with
  | nil => simp
  | cons b bs ih => simp [ih, Bool.and_assoc]

theorem compare_agrees {a b : Json} (ha : Canonical a) (hb : Canonical b) :
    (compare op a b).toOption = (compareOperands op a b).toOption := by
  unfold compare compareOperands
  split
  · cases b with
    | arr items =>
      have hitems : (items.mapM (equal a)).toOption = (items.mapM (choiceEqual a)).toOption :=
        Fallible.toOption_mapM_congr fun v hv => by rw [equal_eq ha.check (hb.item hv).check]
      simp only [Fallible.foldlM_eq_mapM (choiceEqual a) (fun r b => r || b), Fallible.toOption_map,
        Fallible.toOption_bind, Fallible.toOption_pure, hitems, foldl_or, Bool.false_or]
      cases (items.mapM (choiceEqual a)).toOption <;> rfl
    | _ => rfl
  · split
    · next h =>
      rw [equal_eq ha.check hb.check]
      rcases h with rfl | rfl
      · cases choiceEqual a b <;> rfl
      · cases choiceEqual a b <;> rfl
    · next h =>
      obtain ⟨heq, hneq⟩ := not_or.mp h
      rw [if_neg heq, if_neg hneq]
      cases a <;> cases b <;> try rfl
      split_ifs <;> rfl

/-- The operands an expression compares: the arguments of its comparisons, through the
connectives. -/
inductive Operand : Json → Json → Prop
  | argument {e x : Json} {args : List Json} : e.get? "args" = some (.arr args) →
      Json.text (e.get? "op") ∈ comparisons → x ∈ args → Operand e x
  | inside {e a x : Json} {args : List Json} : e.get? "args" = some (.arr args) →
      Json.text (e.get? "op") ∈ ["and", "or", "not"] → a ∈ args → Operand a x → Operand e x

/-- `exists` asks whether a reference can be mapped. -/
theorem exists_agrees (input : Json) (outputs : Outputs) (arg : Json) :
    (do
      let ref ← object arg
      reference ref
      match mapInput (.obj ref) input outputs with
      | .ok _ => return true
      | .error .inputMappingError => return false
      | .error err => throw err : Except ContractError Bool).toOption =
    (match Contracts.reference arg.members with
      | .error err => .error err
      | .ok () =>
        match Contracts.mapInput (.obj arg.members) input outputs with
        | .ok _ => .ok true
        | .error .inputMappingError => .ok false
        | .error err => .error err : Except ContractError Bool).toOption := by
  cases arg with
  | obj v =>
    simp only [object, Json.members, mapInput_eq, reference_eq, bind, Except.bind]
    cases Contracts.reference v with
    | error e => rfl
    | ok =>
      dsimp only
      cases Contracts.mapInput (.obj v) input outputs with
      | ok w => rfl
      | error e => cases e <;> rfl
  | _ => rfl

theorem comparison_agrees {x y : Json}
    (hx : ∀ a, Contracts.mapInput x input outputs = .ok a → a.depth ≤ maxDepth)
    (hy : ∀ a, Contracts.mapInput y input outputs = .ok a → a.depth ≤ maxDepth) :
    (do
      let a ← mapInput x input outputs
      let b ← mapInput y input outputs
      compare op a b : Except ContractError Bool).toOption =
    (do
      let a ← Contracts.mapInput x input outputs
      let b ← Contracts.mapInput y input outputs
      compareOperands op a b : Except ContractError Bool).toOption := by
  simp only [mapInput_eq]
  cases ha : Contracts.mapInput x input outputs with
  | error e => rfl
  | ok a =>
    cases hb : Contracts.mapInput y input outputs with
    | error e => rfl
    | ok b =>
      exact compare_agrees ⟨mapInput_numbersSafe ha, hx a ha⟩ ⟨mapInput_numbersSafe hb, hy b hb⟩

theorem connective_agrees (hop : op = "and" ∨ op = "or" ∨ op = "not")
    {f g : Json → Except ContractError Bool} {args : List Json}
    (hargs : op = "not" → args.length = 1) (h : ∀ a ∈ args, (f a).toOption = (g a).toOption) :
    (do
      let values ← args.mapM f
      return if op = "not" then !values.headD false
        else if op = "and" then values.all id
        else values.any id : Except ContractError Bool).toOption =
    (args.foldlM (fun acc a => do
      let b ← g a
      return connective op acc b) (decide (op = "and"))).toOption := by
  rw [Fallible.foldlM_eq_mapM g (connective op), Fallible.toOption_map, Fallible.toOption_bind,
    Fallible.toOption_mapM_congr h]
  cases hv : args.mapM g with
  | error e => rfl
  | ok values =>
    refine congrArg some ?_
    rcases hop with rfl | rfl | rfl
    · exact (foldl_and values true).symm.trans rfl
    · exact (foldl_or values false).symm.trans rfl
    · -- One argument, so one value.
      obtain ⟨a, rfl⟩ := List.length_eq_one_iff.mp (hargs rfl)
      obtain ⟨b, -, hv⟩ := Fallible.bind_eq_ok.mp ((List.mapM_cons ..).symm.trans hv)
      obtain rfl := Except.ok.inj hv
      rfl

theorem array?_eq_some {items : List Json} : array? v = some items ↔ v = some (.arr items) := by
  match v with
  | some (.arr t) => simp [array?]
  | none => simp [array?]
  | some .null => simp [array?]
  | some (.bool _) => simp [array?]
  | some (.num _) => simp [array?]
  | some (.str _) => simp [array?]
  | some (.obj _) => simp [array?]

/-- Without an operator and a list of arguments the engine fails as well. -/
theorem choiceWalk_malformed {e : Json} (fuel : Nat)
    (h : string? (e.get? "op") = none ∨ array? (e.get? "args") = none) :
    Contracts.choiceWalk input outputs (fuel + 1) e = .error .invalidExpression := by
  unfold Contracts.choiceWalk
  split
  · next args hargs =>
    have htext : Json.text (e.get? "op") = "" := by
      rcases h with h | h
      · unfold Json.text
        split
        · next s hs => rw [string?_eq_some.mpr hs] at h; cases h
        · rfl
      · rw [array?_eq_some.mpr hargs] at h
        cases h
    simp only [htext]
    split
    · rfl
    · rw [if_neg (by decide), if_neg (by decide)]
      split
      · exact if_neg (by decide)
      · rfl
  · rfl

theorem choiceWalk_agrees (fuel : Nat) {e : Json}
    (h : ∀ x a, Operand e x → Contracts.mapInput x input outputs = .ok a → a.depth ≤ maxDepth) :
    (choiceWalk input outputs fuel e).toOption =
      (Contracts.choiceWalk input outputs fuel e).toOption := by
  induction fuel generalizing e with
  | zero => rfl
  | succ fuel ih =>
    cases e with
    | obj v =>
      have hget (key : String) : (Json.obj v).get? key = v.lookup key := rfl
      unfold choiceWalk
      split
      · next op args hop hargs =>
        have hop := string?_eq_some.mp hop
        have hargs := array?_eq_some.mp hargs
        have htext : Json.text (v.lookup "op") = op := by rw [hop, Json.text]
        have hmembers : (Json.obj v).members = v := rfl
        simp only [Contracts.choiceWalk, hget, hmembers, htext, hargs]
        split
        · rfl
        by_cases hbool : op = "and" ∨ op = "or" ∨ op = "not"
        · have hmem : op ∈ ["and", "or", "not"] := by simpa using hbool
          have harity : ((op = "not" ∧ args.length ≠ 1) ∨ (op ≠ "not" ∧ args.length < 1)) ↔
              (op = "not" ∧ args.length ≠ 1) ∨ args = [] := by
            rw [← List.length_eq_zero_iff]
            by_cases hn : op = "not"
            · simp only [hn, true_and, ne_eq, not_true, false_and, or_false]
              omega
            · simp only [hn, false_and, false_or, ne_eq, not_false_iff, true_and]
              omega
          rw [if_pos (List.contains_iff_mem.mpr hmem), if_pos hbool, if_congr harity rfl rfl]
          split
          · rfl
          · next har =>
            refine connective_agrees hbool (fun hn => ?_) fun a ha => ih fun x w hx hw => ?_
            · by_contra hl
              exact har (.inl ⟨hn, hl⟩)
            · exact h x w (.inside hargs (htext ▸ hmem) ha hx) hw
        · rw [if_neg (by simpa using hbool), if_neg hbool]
          split
          · rcases args with _ | ⟨arg, _ | _⟩
            · rfl
            · exact exists_agrees input outputs arg
            · rfl
          · have hcontains : ["eq", "neq", "gt", "gte", "lt", "lte", "in"].contains op = false ↔
                op ∉ comparisons := by
              rw [← Bool.not_eq_true, List.contains_iff_mem]
              rfl
            by_cases hmem : op ∈ comparisons
            · rw [if_neg (hcontains.not.mpr (not_not.mpr hmem))]
              rcases args with _ | ⟨x, _ | ⟨y, _ | _⟩⟩
              · rfl
              · rfl
              · dsimp only
                rw [if_pos hmem]
                refine comparison_agrees (fun a ha => h x a ?_ ha) fun b hb => h y b ?_ hb
                · exact .argument hargs (htext ▸ hmem) List.mem_cons_self
                · exact .argument hargs (htext ▸ hmem) (List.mem_cons_of_mem _ List.mem_cons_self)
              · rfl
            · rw [if_pos (hcontains.mpr hmem)]
              rcases args with _ | ⟨x, _ | ⟨y, _ | _⟩⟩
              · rfl
              · rfl
              · dsimp only
                rw [if_neg hmem]
              · rfl
      · next hno =>
        have hmal : string? ((Json.obj v).get? "op") = none ∨
            array? ((Json.obj v).get? "args") = none := by
          rw [hget, hget]
          cases hop : string? (v.lookup "op") with
          | none => exact .inl rfl
          | some op =>
            cases hargs : array? (v.lookup "args") with
            | none => exact .inr rfl
            | some args => exact absurd hargs (hno op args hop)
        rw [choiceWalk_malformed fuel hmal]
    | _ => rfl

def Sample.expression : Json :=
  .obj [("op", .str "eq"), ("args", .arr [.obj [("$ref", .str "run.input"), ("pointer", .str "/a")],
    .obj [("literal", .str "x")]])]

end Deadbolt.Sdk

import Deadbolt.Contracts.Validator

/-!
# Guaranteed paths

Validity for a payload schema, as JSON Schema defines it for the keywords that
`manifest/payload-schema.schema.json` admits, and what `guaranteed` says of a schema's values.
-/

namespace Deadbolt.Contracts

namespace Schema

/-! ### Valid values -/

def typeName : Kind → String
  | .null => "null"
  | .boolean => "boolean"
  | .number => "number"
  | .string => "string"
  | .array => "array"
  | .object => "object"

/-- What the bounds on values of a type are about. -/
def quantity : Kind → Json → Option Rat
  | .number, .num n => some n
  | .string, .str s => some s.length
  | .array, .arr items => some items.length
  | .object, .obj members => some members.length
  | _, _ => none

def bounded (k : Kind) (p : Rat → Rat → Bool) (bound : Json) : Schema := fun v =>
  (quantity k v).all (p (bound.number 0))

def assertions : List (String × (Json → Schema)) :=
  [("type", fun t v => Json.text (some t) == typeName v.kind
     || Json.text (some t) == "integer" && integer v),
   ("required", fun keys => required (keys.items.map fun k => Json.text (some k))),
   ("enum", fun values v => values.items.any v.same), ("const", Json.same),
   ("minimum", bounded .number fun b q => decide (b ≤ q)),
   ("maximum", bounded .number fun b q => decide (q ≤ b)),
   ("exclusiveMinimum", bounded .number fun b q => decide (b < q)),
   ("exclusiveMaximum", bounded .number fun b q => decide (q < b)),
   ("minLength", bounded .string fun b q => decide (b ≤ q)),
   ("maxLength", bounded .string fun b q => decide (q ≤ b)),
   ("minItems", bounded .array fun b q => decide (b ≤ q)),
   ("maxItems", bounded .array fun b q => decide (q ≤ b)),
   ("minProperties", bounded .object fun b q => decide (b ≤ q)),
   ("maxProperties", bounded .object fun b q => decide (q ≤ b))]

mutual

def valid : Json → Json → Bool
  | .obj keywords, v =>
    validMembers (((Json.obj keywords).field "properties").members.map Prod.fst) keywords v
  | _, _ => false
termination_by structural schema => schema

/-- The value meets every keyword, beside the declared properties. -/
def validMembers (declared : List String) : List (String × Json) → Json → Bool
  | [], _ => true
  | keyword :: rest, v => validMember declared keyword v && validMembers declared rest v
termination_by structural keywords => keywords

def validMember (declared : List String) : String × Json → Json → Bool
  | ("properties", s), v =>
    match s with
    | .obj ps => validProperties ps v
    | _ => true
  | ("oneOf", s), v =>
    match s with
    | .arr variants => validCount variants v == 1
    | _ => true
  | ("items", s), v => v.items.all fun x => valid s x
  | ("additionalProperties", s), v =>
    v.members.all fun m => declared.contains m.1 || s.same (.bool true) || valid s m.2
  | (key, s), v =>
    match assertions.lookup key with
    | some test => test s v
    | none => true
termination_by structural keyword => keyword

def validProperties : List (String × Json) → Json → Bool
  | [], _ => true
  | p :: rest, v => validProperty p v && validProperties rest v
termination_by structural ps => ps

def validProperty : String × Json → Json → Bool
  | (key, s), v =>
    match v.get? key with
    | some x => valid s x
    | none => true
termination_by structural p => p

def validCount : List Json → Json → Nat
  | [], _ => 0
  | s :: rest, v => (if valid s v then 1 else 0) + validCount rest v
termination_by structural variants => variants

end

/-! ### What the keywords give -/

variable {schema v x s : Json} {key : String}

theorem valid_keyword (key : String) (h : valid schema v = true) (hs : schema.field key ≠ .null) :
    ∃ declared, validMember declared (key, schema.field key) v = true := by
  have hall (declared : List String) (keywords : List (String × Json))
      (h : validMembers declared keywords v = true) :
      ∀ k ∈ keywords, validMember declared k v = true := by
    induction keywords with
    | nil => simp
    | cons k rest ih =>
      rw [validMembers, Bool.and_eq_true] at h
      exact List.forall_mem_cons.mpr ⟨h.1, ih h.2⟩
  cases schema with
  | obj keywords =>
    have hget : keywords.lookup key = some ((Json.obj keywords).field key) := by
      cases hk : keywords.lookup key with
      | none => exact absurd (by simp [Json.field, Json.get?, Json.members, hk]) hs
      | some s => simp [Json.field, Json.get?, Json.members, hk]
    exact ⟨_, hall _ keywords h _ (mem_of_lookup hget)⟩
  | _ => cases h

theorem valid_type {k : Kind} (h : valid schema v = true)
    (ht : Json.text (schema.get? "type") = typeName k) : v.kind = k := by
  have htext : Json.text (some (schema.field "type")) = typeName k := by
    rw [← ht, Json.field]
    cases schema.get? "type" <;> rfl
  obtain ⟨_, htype⟩ := valid_keyword "type" h fun hn => by
    rw [hn] at htext
    cases k <;> simp [typeName, Json.text] at htext
  change (Json.text _ == typeName v.kind || Json.text _ == "integer" && integer v) = true at htype
  rw [htext] at htype
  cases k <;> cases hv : v.kind <;> simp [hv, typeName] at htype ⊢

theorem valid_properties {ps : List (String × Json)} (h : validProperties ps v = true)
    (hs : ps.lookup key = some s) (hx : v.get? key = some x) : valid s x = true := by
  induction ps with
  | nil => cases hs
  | cons p rest ih =>
    obtain ⟨k, t⟩ := p
    rw [validProperties, Bool.and_eq_true] at h
    rw [List.lookup_cons] at hs
    split at hs
    · next hk =>
      cases hs
      obtain rfl : key = k := by simpa using hk
      simpa [validProperty, hx] using h.1
    · exact ih h.2 hs

theorem exists_variant {variants : List Json} (h : validCount variants v ≠ 0) :
    ∃ s ∈ variants, valid s v = true := by
  induction variants with
  | nil => exact absurd rfl h
  | cons s rest ih =>
    cases hs : valid s v with
    | true => exact ⟨s, List.mem_cons_self, hs⟩
    | false =>
      obtain ⟨t, ht, hv⟩ := ih (by simpa [validCount, hs] using h)
      exact ⟨t, List.mem_cons_of_mem _ ht, hv⟩

theorem valid_member (h : valid schema v = true) (ht : Json.text (schema.get? "type") = "object")
    (hreq : requires schema key = true) (hs : (schema.field "properties").get? key = some s) :
    ∃ members y, v = .obj members ∧ members.lookup key = some y ∧ valid s y = true := by
  obtain ⟨_, hrequired⟩ := valid_keyword "required" h fun hn => by
    simp [requires, hn, Json.items] at hreq
  obtain ⟨_, hprops⟩ := valid_keyword "properties" h fun hn => by
    simp [hn, Json.get?, Json.members] at hs
  change required ((schema.field "required").items.map fun k => Json.text (some k)) v = true
    at hrequired
  have hkind : v.kind = .object := valid_type h ht
  cases v with
  | obj members =>
    obtain ⟨k, hk, hkey⟩ := List.any_eq_true.mp hreq
    rw [Bool.and_eq_true, beq_iff_eq, beq_iff_eq] at hkey
    obtain ⟨y, hy⟩ := Option.isSome_iff_exists.mp
      (List.all_eq_true.mp hrequired key (List.mem_map.mpr ⟨k, hk, hkey.2⟩))
    refine ⟨members, y, rfl, hy, ?_⟩
    cases hobj : schema.field "properties" with
    | obj ps =>
      rw [hobj] at hprops hs
      exact valid_properties hprops hs hy
    | _ => simp [hobj, Json.get?, Json.members] at hs
  | _ => cases hkind

theorem valid_item (h : valid schema v = true) (ht : Json.text (schema.get? "type") = "array")
    {i : Nat} (hi : (i : Rat) < (schema.field "minItems").number 0)
    (hs : (schema.field "items").kind ≠ .null) :
    ∃ items y, v = .arr items ∧ items[i]? = some y ∧ valid (schema.field "items") y = true := by
  obtain ⟨_, hbound⟩ := valid_keyword "minItems" h fun hn => by
    rw [hn] at hi
    exact absurd hi (not_lt.mpr (Nat.cast_nonneg i))
  obtain ⟨_, hitems⟩ := valid_keyword "items" h fun hn => hs (by rw [hn]; rfl)
  change (quantity .array v).all (fun q => decide ((schema.field "minItems").number 0 ≤ q)) = true
    at hbound
  change (v.items.all fun x => valid (schema.field "items") x) = true at hitems
  have hkind : v.kind = .array := valid_type h ht
  cases v with
  | arr items =>
    have hlen : (i : Rat) < items.length := hi.trans_le (by simpa [quantity] using hbound)
    have hlt : i < items.length := by exact_mod_cast hlen
    exact ⟨items, items[i], rfl, List.getElem?_eq_getElem hlt,
      List.all_eq_true.mp hitems _ (List.getElem_mem hlt)⟩
  | _ => cases hkind

end Schema

/-! ### Lookups that succeed -/

open Schema

/-- By induction on the fuel, which each step of `guaranteed` into a schema takes one of. -/
theorem guaranteed_lookupParts {fuel : Nat} {schema v : Json} {parts : List String}
    (h : guaranteed fuel schema parts = true) (hv : valid schema v = true) :
    ∃ w, lookupParts v parts = some w := by
  induction fuel generalizing schema v parts with
  | zero =>
    cases parts with
    | nil => exact ⟨v, by cases v <;> rfl⟩
    | cons key rest => cases h
  | succ fuel ih =>
    cases parts with
    | nil => exact ⟨v, by cases v <;> rfl⟩
    | cons key rest =>
      simp only [guaranteed] at h
      split at h
      · next variants hvariants =>
        obtain ⟨_, hone⟩ := valid_keyword "oneOf" hv (by simp [hvariants])
        rw [hvariants] at hone
        change (validCount variants v == 1) = true at hone
        have hcount : validCount variants v ≠ 0 := by
          rw [beq_iff_eq.mp hone]
          decide
        obtain ⟨s, hs, hvalid⟩ := exists_variant hcount
        exact ih (List.all_eq_true.mp h s hs) hvalid
      split_ifs at h with hobject harray
      · split at h
        · next s hs =>
          rw [Bool.and_eq_true] at h
          obtain ⟨members, y, rfl, hy, hvalid⟩ := valid_member hv hobject h.1 hs
          obtain ⟨w, hw⟩ := ih h.2 hvalid
          exact ⟨w, by simp [lookupParts, hy, hw]⟩
        · cases h
      · split at h
        · next i hi =>
          simp only [Bool.and_eq_true, decide_eq_true_eq, bne_iff_ne] at h
          obtain ⟨items, y, rfl, hy, hvalid⟩ := valid_item hv harray h.1.1 h.1.2
          obtain ⟨w, hw⟩ := ih h.2 hvalid
          exact ⟨w, by simp [lookupParts, hi, hy, hw]⟩
        · cases h

/-- Where `guaranteed` reports a pointer of a schema, its lookup succeeds in every valid value. -/
theorem guaranteed_lookup {fuel : Nat} {schema value : Json} {pointer : Option Json}
    {parts : List String} (hparts : pointerParts pointer = .ok parts)
    (h : guaranteed fuel schema parts = true) (hvalid : valid schema value = true) :
    ∃ w, lookup value pointer = .ok (some w) := by
  obtain ⟨w, hw⟩ := guaranteed_lookupParts h hvalid
  refine ⟨w, ?_⟩
  rw [lookup, hparts, ← hw]
  rfl

def Sample.objects : Json :=
  .obj [("type", .str "array"), ("minItems", .num 2),
    ("items", .obj [("type", .str "object"), ("required", .arr [.str "id"]),
      ("properties", .obj [("id", .obj [("type", .str "string")])])])]

theorem guaranteed_lookup_second :
    ∃ w, lookup (.arr [.obj [("id", .str "a")], .obj [("id", .str "b")]]) (some (.str "/1/id")) =
      .ok (some w) :=
  guaranteed_lookup (by decide +kernel : pointerParts _ = .ok ["1", "id"])
    (by decide +kernel : guaranteed 3 Sample.objects ["1", "id"] = true) (by decide +kernel)

end Deadbolt.Contracts

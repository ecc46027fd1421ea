import Deadbolt.Base.Code
import Deadbolt.Base.Table
import Deadbolt.Contracts.Json

/-!
# Canonical JSON

The canonical text of `internal/contracts/canonical.go` and of the TypeScript SDK's
`canonical.ts`: the members of an object sorted by the UTF-16 units of their keys, no space, and
the shortest escapes. Both sides take it from a library for the same format. A number literal is
one symbol here: the format writes equal numbers alike and different ones differently.
-/

namespace Deadbolt.Contracts

open Base

/-! ### Text -/

/-- A symbol of the canonical text: a character, or a whole number literal. -/
inductive Symbol where
  | char (c : Char)
  | number (n : Rat)
  deriving DecidableEq

def quotationMark : Char := Char.ofNat 0x22

def reverseSolidus : Char := Char.ofNat 0x5c

def shortEscapes : List (Char × Char) :=
  [(Char.ofNat 8, 'b'), (Char.ofNat 9, 't'), (Char.ofNat 10, 'n'), (Char.ofNat 12, 'f'),
   (Char.ofNat 13, 'r')]

def hexDigit (n : Nat) : Char := Char.ofNat (if n < 10 then 0x30 + n else 0x57 + n)

def escape (c : Char) : List Symbol :=
  if c = quotationMark ∨ c = reverseSolidus then [.char reverseSolidus, .char c]
  else if c.toNat < 0x20 then
    match shortEscapes.lookup c with
    | some letter => [.char reverseSolidus, .char letter]
    | none =>
      [.char reverseSolidus, .char 'u', .char '0', .char '0', .char (hexDigit (c.toNat / 16)),
       .char (hexDigit (c.toNat % 16))]
  else [.char c]

def quote (s : String) : List Symbol :=
  .char quotationMark :: Code.terminated escape (.char quotationMark) s.toList

def utf16Units (c : Char) : List Nat :=
  if c.toNat < 0x10000 then [c.toNat]
  else [0xd800 + (c.toNat - 0x10000) / 0x400, 0xdc00 + (c.toNat - 0x10000) % 0x400]

def utf16 (s : String) : List Nat := s.toList.flatMap utf16Units

def keyLE (a b : String × Json) : Prop := utf16 a.1 ≤ utf16 b.1

instance : DecidableRel keyLE := fun a b => inferInstanceAs (Decidable (utf16 a.1 ≤ utf16 b.1))

namespace Json

mutual

/-- The value with the members of every object in order. -/
def normalize : Json → Json
  | .arr items => .arr (normalizeItems items)
  | .obj members => .obj ((normalizeMembers members).insertionSort keyLE)
  | v => v
termination_by structural v => v

def normalizeItems : List Json → List Json
  | [] => []
  | item :: rest => normalize item :: normalizeItems rest
termination_by structural items => items

def normalizeMembers : List (String × Json) → List (String × Json)
  | [] => []
  | member :: rest => normalizeMember member :: normalizeMembers rest
termination_by structural members => members

def normalizeMember : String × Json → String × Json
  | (key, item) => (key, normalize item)
termination_by structural member => member

end

mutual

/-- The text of a value, its members as listed. -/
def serialize : Json → List Symbol
  | .null => ['n', 'u', 'l', 'l'].map .char
  | .bool true => ['t', 'r', 'u', 'e'].map .char
  | .bool false => ['f', 'a', 'l', 's', 'e'].map .char
  | .num n => [.number n]
  | .str s => quote s
  | .arr items => .char '[' :: serializeItems items
  | .obj members => .char '{' :: serializeMembers members
termination_by structural v => v

def serializeItems : List Json → List Symbol
  | [] => [.char ']']
  | [item] => serialize item ++ [.char ']']
  | item :: next :: rest => serialize item ++ .char ',' :: serializeItems (next :: rest)
termination_by structural items => items

def serializeMembers : List (String × Json) → List Symbol
  | [] => [.char '}']
  | [member] => serializeMember member ++ [.char '}']
  | member :: next :: rest =>
    serializeMember member ++ .char ',' :: serializeMembers (next :: rest)
termination_by structural members => members

def serializeMember : String × Json → List Symbol
  | (key, item) => quote key ++ .char ':' :: serialize item
termination_by structural member => member

end

/-- `CanonicalizeGeneric`, `canonical.go:79-88`. -/
def canonicalizeGeneric (v : Json) : Except ContractError (List Symbol) :=
  if v.check 0 then .ok v.normalize.serialize else .error .invalidJSON

/-- `CanonicalizeGeneric` of both sides compared as bytes, `mapping.go:220-229`.
The errors are dropped: a value the canonicalizer rejects has no bytes. -/
def canonicalEq (a b : Json) : Bool :=
  a.canonicalizeGeneric.toOption.getD [] == b.canonicalizeGeneric.toOption.getD []

end Json

/-! ### The text is read back -/

def unescape : List Symbol → Option (Char × List Symbol)
  | .char c :: rest =>
    if c = reverseSolidus then
      match rest with
      | .char d :: rest =>
        if d = quotationMark ∨ d = reverseSolidus then some (d, rest)
        else
          match shortEscapes.find? fun e => e.2 == d with
          | some e => some (e.1, rest)
          | none =>
            match rest with
            | _ :: _ :: .char h :: .char l :: rest =>
              ((List.range 0x20).find? fun n => hexDigit (n / 16) == h && hexDigit (n % 16) == l).map
                fun n => (Char.ofNat n, rest)
            | _ => none
      | _ => none
    else some (c, rest)
  | _ => none

theorem unescape_escape (c : Char) (x : List Symbol) : unescape (escape c ++ x) = some (c, x) := by
  by_cases hq : c = quotationMark ∨ c = reverseSolidus
  · simp [escape, hq, unescape]
  by_cases hc : c.toNat < 0x20
  · -- One of the control characters.
    obtain ⟨n, rfl⟩ : ∃ n : Fin 0x20, c = Char.ofNat n := ⟨⟨c.toNat, hc⟩, (Char.ofNat_toNat c).symm⟩
    clear hq hc
    fin_cases n <;> rfl
  · rw [escape, if_neg hq, if_neg hc]
    simp [unescape, not_or.mp hq]

theorem reads_escape : Code.Reads escape := Code.reads_of_decoder unescape_escape

theorem avoids_escape : Code.Avoids escape (.char quotationMark) := by
  intro c
  have hne : Symbol.char reverseSolidus ≠ .char quotationMark := by decide
  unfold escape
  split
  · exact ⟨_, _, rfl, hne⟩
  · next hq =>
    split
    · split <;> exact ⟨_, _, rfl, hne⟩
    · exact ⟨_, _, rfl, by simpa using (not_or.mp hq).1⟩

theorem reads_quote : Code.Reads quote := by
  intro s t x y h
  have hread := (Code.readsAt_terminated avoids_escape fun c _ => reads_escape c).mark
    (.char quotationMark) t.toList x y h
  exact ⟨String.toList_inj.mp hread.1, hread.2⟩

/-- The values of characters are outside the range of the surrogates. -/
theorem toNat_scalar (c : Char) : c.toNat < 0xd800 ∨ 0xdfff < c.toNat ∧ c.toNat < 0x110000 := c.valid

theorem reads_utf16Units : Code.Reads utf16Units := by
  intro c d x y h
  have hc := toNat_scalar c
  have hd := toNat_scalar d
  simp only [utf16Units] at h
  split at h <;> split at h <;> simp only [List.cons_append, List.nil_append, List.cons.injEq] at h
  · exact ⟨Char.toNat_inj.mp h.1, h.2⟩
  · omega
  · omega
  · exact ⟨Char.toNat_inj.mp (by omega), h.2.2⟩

theorem utf16_injective : Function.Injective utf16 := by
  intro s t h
  refine String.toList_inj.mp (Code.flatMap_injective reads_utf16Units (fun c => ?_) h)
  unfold utf16Units
  split <;> simp

namespace Json

theorem serializeItems_eq (items : List Json) :
    serializeItems items = Code.separated serialize (.char ',') (.char ']') items := by
  induction items with
  | nil => rfl
  | cons item rest ih =>
    cases rest with
    | nil => rfl
    | cons next rest => simp only [serializeItems, Code.separated, ih]

theorem serializeMembers_eq (members : List (String × Json)) :
    serializeMembers members = Code.separated serializeMember (.char ',') (.char '}') members := by
  induction members with
  | nil => rfl
  | cons member rest ih =>
    cases rest with
    | nil => rfl
    | cons next rest => simp only [serializeMembers, Code.separated, ih]

def opening : Json → Symbol
  | .null => .char 'n'
  | .bool b => .char (if b then 't' else 'f')
  | .num n => .number n
  | .str _ => .char quotationMark
  | .arr _ => .char '['
  | .obj _ => .char '{'

def body : Json → List Symbol
  | .null => ['u', 'l', 'l'].map .char
  | .bool b => (if b then ['r', 'u', 'e'] else ['a', 'l', 's', 'e']).map .char
  | .num _ => []
  | .str s => Code.terminated escape (.char quotationMark) s.toList
  | .arr items => Code.separated serialize (.char ',') (.char ']') items
  | .obj members => Code.separated serializeMember (.char ',') (.char '}') members

def kindOf : Symbol → Kind
  | .number _ => .number
  | .char c =>
    if c = 'n' then .null
    else if c = quotationMark then .string
    else if c = '[' then .array
    else if c = '{' then .object
    else .boolean

theorem kindOf_opening (v : Json) : kindOf v.opening = v.kind := by
  cases v with
  | bool b => cases b <;> rfl
  | _ => rfl

theorem serialize_eq (v : Json) : serialize v = v.opening :: v.body := by
  cases v with
  | bool b => cases b <;> rfl
  | arr items => simp only [serialize, opening, body, serializeItems_eq]
  | obj members => simp only [serialize, opening, body, serializeMembers_eq]
  | _ => rfl

theorem avoids_serialize : Code.Avoids serialize (.char ']') := by
  intro v
  refine ⟨_, _, serialize_eq v, ?_⟩
  cases v with
  | bool b => cases b <;> decide
  | _ => simp [opening, quotationMark]

theorem serializeMember_eq :
    serializeMember = fun m => quote m.1 ++ .char ':' :: serialize m.2 := by
  funext ⟨key, item⟩
  rfl

theorem avoids_serializeMember : Code.Avoids serializeMember (.char '}') := by
  rw [serializeMember_eq]
  exact fun m => ⟨_, _, rfl, by decide⟩

theorem readsAt_serializeMember {m : String × Json} (h : Code.ReadsAt serialize m.2) :
    Code.ReadsAt serializeMember m := by
  rw [serializeMember_eq]
  exact (reads_quote m.1).pair (h.mark (.char ':'))

/-- The first symbol fixes the kind; what follows is to be read as a value of that kind. -/
theorem readsAt_of_body {v : Json} (h : ∀ w x y, v.kind = w.kind → v.opening = w.opening →
    v.body ++ x = w.body ++ y → v = w ∧ x = y) : Code.ReadsAt serialize v := by
  intro w x y he
  rw [serialize_eq, serialize_eq] at he
  obtain ⟨ho, hb⟩ := List.cons.inj he
  exact h w x y (by rw [← kindOf_opening, ho, kindOf_opening]) ho hb

/-- The text of a value is read back from the front of any text. -/
theorem readsAt_serialize (v : Json) : Code.ReadsAt serialize v := by
  induction v with
  | null =>
    refine readsAt_of_body ?_
    rintro (_ | _ | _ | _ | _ | _) x y ⟨⟩ ho hb
    simpa [body] using hb
  | bool b =>
    refine readsAt_of_body ?_
    rintro (_ | c | _ | _ | _ | _) x y ⟨⟩ ho hb
    cases b <;> cases c <;> simp_all [opening, body]
  | num n =>
    refine readsAt_of_body ?_
    rintro (_ | _ | m | _ | _ | _) x y ⟨⟩ ho hb
    simp_all [opening, body]
  | str s =>
    refine readsAt_of_body ?_
    rintro (_ | _ | _ | t | _ | _) x y ⟨⟩ ho hb
    obtain ⟨hs, rfl⟩ := Code.readsAt_terminated avoids_escape (fun c _ => reads_escape c) _ x y hb
    exact ⟨congrArg Json.str (String.toList_inj.mp hs), rfl⟩
  | arr items ih =>
    refine readsAt_of_body ?_
    rintro (_ | _ | _ | _ | items' | _) x y ⟨⟩ ho hb
    obtain ⟨rfl, rfl⟩ := Code.readsAt_separated (by decide) avoids_serialize ih items' x y hb
    exact ⟨rfl, rfl⟩
  | obj members ih =>
    refine readsAt_of_body ?_
    rintro (_ | _ | _ | _ | _ | members') x y ⟨⟩ ho hb
    obtain ⟨rfl, rfl⟩ := Code.readsAt_separated (by decide) avoids_serializeMember
      (fun m hm => readsAt_serializeMember (ih m hm)) members' x y hb
    exact ⟨rfl, rfl⟩

theorem serialize_injective : Function.Injective serialize := fun v _ h => (readsAt_serialize v).eq h

/-! ### Canonical texts decide structural equality -/

theorem normalizeItems_eq (items : List Json) : normalizeItems items = items.map normalize := by
  induction items with
  | nil => rfl
  | cons item rest ih => simp only [normalizeItems, List.map_cons, ih]

theorem normalizeMembers_eq (members : List (String × Json)) :
    normalizeMembers members = members.map fun m => (m.1, m.2.normalize) := by
  induction members with
  | nil => rfl
  | cons member rest ih =>
    obtain ⟨key, item⟩ := member
    simp only [normalizeMembers, normalizeMember, List.map_cons, ih]

theorem normalize_obj (members : List (String × Json)) : (Json.obj members).normalize =
    .obj ((members.map fun m => (m.1, m.2.normalize)).insertionSort keyLE) := by
  rw [normalize, normalizeMembers_eq]

theorem check_normalize (v : Json) (depth : Nat) : v.normalize.check depth = v.check depth := by
  induction v generalizing depth with
  | arr items ih =>
    simp only [normalize, normalizeItems_eq, check, checkItems_eq, List.all_map]
    rw [Bool.eq_iff_iff]
    simp only [Bool.and_eq_true, List.all_eq_true, Function.comp_apply]
    exact and_congr_right fun _ => forall₂_congr fun v hv => by rw [ih v hv]
  | obj members ih =>
    simp only [normalize_obj, check, checkMembers_eq,
      (List.perm_insertionSort keyLE _).all_eq, List.all_map]
    rw [Bool.eq_iff_iff]
    simp only [Bool.and_eq_true, List.all_eq_true, Function.comp_apply]
    exact and_congr_right fun _ => forall₂_congr fun m hm => by rw [ih m hm]
  | _ => rfl

instance : Std.Total keyLE := ⟨fun a b => le_total (utf16 a.1) (utf16 b.1)⟩

instance : IsTrans (String × Json) keyLE := ⟨fun _ _ _ => le_trans (α := List Nat)⟩

theorem sort_eq_iff {xs ys : List (String × Json)} (hx : (xs.map Prod.fst).Nodup) :
    xs.insertionSort keyLE = ys.insertionSort keyLE ↔ xs.Perm ys := by
  constructor
  · intro h
    exact (List.perm_insertionSort keyLE xs).symm.trans (h ▸ List.perm_insertionSort keyLE ys)
  · intro h
    have hp : (xs.insertionSort keyLE).Perm (ys.insertionSort keyLE) :=
      (List.perm_insertionSort keyLE xs).trans (h.trans (List.perm_insertionSort keyLE ys).symm)
    refine hp.eq_of_pairwise (fun a b ha hb hab hba => ?_) (List.pairwise_insertionSort keyLE xs)
      (List.pairwise_insertionSort keyLE ys)
    have ha := (List.perm_insertionSort keyLE xs).mem_iff.mp ha
    have hb := h.mem_iff.mpr ((List.perm_insertionSort keyLE ys).mem_iff.mp hb)
    exact List.inj_on_of_nodup_map hx ha hb (utf16_injective (le_antisymm hab hba))

theorem sameItems_iff {xs ys : List Json}
    (h : ∀ v ∈ xs, ∀ w ∈ ys, v.same w = true ↔ v.normalize = w.normalize) :
    sameItems xs ys = true ↔ xs.map normalize = ys.map normalize := by
  induction xs generalizing ys with
  | nil => cases ys <;> simp [sameItems]
  | cons v xs ih =>
    cases ys with
    | nil => simp [sameItems]
    | cons w ys =>
      simp only [sameItems, Bool.and_eq_true, List.map_cons, List.cons.injEq,
        h v List.mem_cons_self w List.mem_cons_self]
      exact and_congr_right fun _ => ih fun v hv w hw =>
        h v (List.mem_cons_of_mem _ hv) w (List.mem_cons_of_mem _ hw)

/-- Objects are equal as maps when their members are, up to their order. -/
theorem same_obj_iff {xs ys : List (String × Json)} (hx : (xs.map Prod.fst).Nodup)
    (hy : (ys.map Prod.fst).Nodup)
    (h : ∀ m ∈ xs, ∀ m' ∈ ys, m.2.same m'.2 = true ↔ m.2.normalize = m'.2.normalize) :
    (Json.obj xs).same (.obj ys) = true ↔
      (xs.map fun m => (m.1, m.2.normalize)).Perm (ys.map fun m => (m.1, m.2.normalize)) := by
  simp only [same, Bool.and_eq_true, beq_iff_eq, sameMembers_iff]
  constructor
  · rintro ⟨hlen, hsub⟩
    have hnodup : (xs.map fun m => (m.1, m.2.normalize)).Nodup :=
      List.Nodup.of_map Prod.fst (by simpa [Function.comp_def] using hx)
    refine (List.subperm_of_subset hnodup fun e he => ?_).perm_of_length_le (by simp [hlen])
    obtain ⟨m, hm, rfl⟩ := List.mem_map.mp he
    obtain ⟨w, hw, hs⟩ := hsub m hm
    have hmem : (m.1, w) ∈ ys := (Table.lookup_mem m.1 w ys hy).mp hw
    exact List.mem_map.mpr ⟨(m.1, w), hmem, by rw [(h m hm _ hmem).mp hs]⟩
  · intro hp
    refine ⟨by simpa using hp.length_eq, fun m hm => ?_⟩
    obtain ⟨m', hm', he⟩ := List.mem_map.mp (hp.mem_iff.mp (List.mem_map.mpr ⟨m, hm, rfl⟩))
    obtain ⟨hk, hv⟩ := Prod.mk.inj he
    refine ⟨m'.2, (Table.lookup_mem m.1 m'.2 ys hy).mpr (hk ▸ hm'), (h m hm m' hm').mpr hv.symm⟩

variable {a b : Json}

/-- Sorting makes exactly the structurally equal values equal. -/
theorem same_iff_normalize (ha : a.distinct = true) (hb : b.distinct = true) :
    a.same b = true ↔ a.normalize = b.normalize := by
  induction a generalizing b with
  | arr items ih =>
    cases b with
    | arr items' =>
      rw [distinct_arr] at ha hb
      simp only [same, normalize, normalizeItems_eq, arr.injEq]
      exact sameItems_iff fun v hv w hw => ih v hv (ha v hv) (hb w hw)
    | _ => simp [same, normalize]
  | obj members ih =>
    cases b with
    | obj members' =>
      rw [distinct_obj] at ha hb
      rw [same_obj_iff ha.1 hb.1 fun m hm m' hm' => ih m hm (ha.2 m hm) (hb.2 m' hm'),
        normalize_obj, normalize_obj, obj.injEq,
        sort_eq_iff (by simpa [Function.comp_def] using ha.1)]
    | _ => simp [same, normalize]
  | _ => cases b <;> simp [same, normalize]

theorem check_of_same (ha : a.distinct = true) (hb : b.distinct = true) (h : a.same b = true) :
    a.check 0 = b.check 0 := by
  rw [← check_normalize, (same_iff_normalize ha hb).mp h, check_normalize]

theorem serialize_ne_nil (v : Json) : v.serialize ≠ [] := by simp [serialize_eq]

/-- The comparison of canonical texts decides structural equality, except that two rejected
values always compare equal. -/
theorem canonicalEq_eq (ha : a.distinct = true) (hb : b.distinct = true) :
    a.canonicalEq b = (a.same b || (!a.check 0 && !b.check 0)) := by
  have hne (h : a.check 0 ≠ b.check 0) : a.same b = false :=
    Bool.eq_false_iff.mpr fun hs => h (check_of_same ha hb hs)
  rw [Bool.eq_iff_iff]
  simp only [canonicalEq, canonicalizeGeneric, beq_iff_eq, Bool.or_eq_true, Bool.and_eq_true]
  cases hca : a.check 0 <;> cases hcb : b.check 0
  · simp
  · simpa [Except.toOption, hne (by simp [hca, hcb])] using (serialize_ne_nil _).symm
  · simpa [Except.toOption, hne (by simp [hca, hcb])] using serialize_ne_nil _
  · simp [Except.toOption, serialize_injective.eq_iff, same_iff_normalize ha hb]

end Json

end Deadbolt.Contracts

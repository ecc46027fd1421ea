import Deadbolt.Sdk.Agreement

/-!
# Pointers are read back

A list of strings is written as a pointer by escaping `~` as `~0` and `/` as `~1`, with a `/` before
every string. `PointerParts` and `pointerParts` replace `~1` before `~0`, so the tilde of an escaped
`~1` never meets a digit that it does not belong to.
-/

namespace Deadbolt.Sdk

open Base Contracts

def escape (part : List Char) : List Char :=
  part.flatMap fun c => if c = '~' then ['~', '0'] else if c = '/' then ['~', '1'] else [c]

/-- What both decoders make of the text between two slashes. -/
def unescape (text : List Char) : List Char :=
  Text.replacePair '~' '0' '~' (Text.replacePair '~' '1' '/' text)

/-- The pointer of a list of strings; the empty list has the empty pointer. -/
def pointer (parts : List String) : String :=
  String.ofList (parts.flatMap fun part => '/' :: escape part.toList)

/-- A tilde without `0` or `1` after it, or a first character other than `/`. -/
def Malformed (s : String) : Prop :=
  (s ≠ "" ∧ s.toList.head? ≠ some '/') ∨
  ∃ a b, s.toList = a ++ '~' :: b ∧ b.head? ≠ some '0' ∧ b.head? ≠ some '1'

/-! ### One part -/

variable {c : Char} {cs rest : List Char}

theorem replacePair_cons {x y z a : Char} (h : a ≠ x) (rest : List Char) :
    Text.replacePair x y z (a :: rest) = a :: Text.replacePair x y z rest := by
  cases rest with
  | nil => rfl
  | cons b rest => rw [Text.replacePair, if_neg fun h' => h h'.1]

theorem unescape_zero (rest : List Char) : unescape ('~' :: '0' :: rest) = '~' :: unescape rest := by
  have hone : Text.replacePair '~' '1' '/' ('~' :: '0' :: rest) =
      '~' :: '0' :: Text.replacePair '~' '1' '/' rest := by
    rw [Text.replacePair, if_neg (by decide), replacePair_cons (by decide)]
  rw [unescape, hone, Text.replacePair, if_pos ⟨rfl, rfl⟩, unescape]

theorem unescape_one (rest : List Char) : unescape ('~' :: '1' :: rest) = '/' :: unescape rest := by
  rw [unescape, Text.replacePair, if_pos ⟨rfl, rfl⟩, replacePair_cons (by decide), unescape]

theorem unescape_cons (h : c ≠ '~') (rest : List Char) :
    unescape (c :: rest) = c :: unescape rest := by
  rw [unescape, replacePair_cons h, replacePair_cons h, unescape]

theorem unescape_escape (cs : List Char) : unescape (escape cs) = cs := by
  induction cs with
  | nil => rfl
  | cons c cs ih =>
    rw [escape, List.flatMap_cons]
    split
    · next hc =>
      subst hc
      exact (unescape_zero _).trans (congrArg _ ih)
    · next hc =>
      split
      · next hs =>
        subst hs
        exact (unescape_one _).trans (congrArg _ ih)
      · exact (unescape_cons hc _).trans (congrArg _ ih)

theorem slash_not_mem_escape (cs : List Char) : '/' ∉ escape cs := by
  rw [escape, List.mem_flatMap]
  rintro ⟨c, -, hc⟩
  split at hc
  · simp at hc
  · split at hc
    · simp at hc
    · next h => exact h (by simpa [eq_comm] using hc)

theorem pointerEscapes_append (cs rest : List Char) :
    pointerEscapes (escape cs ++ rest) = pointerEscapes rest := by
  induction cs with
  | nil => rfl
  | cons c cs ih =>
    rw [escape, List.flatMap_cons, List.append_assoc]
    split
    · exact ih
    · next hc =>
      split
      · exact ih
      · rw [List.singleton_append, pointerEscapes]
        · exact ih
        all_goals simp [hc]

/-! ### Pointers -/

theorem split_escape (p : String) (parts : List String) :
    Text.split '/' (escape p.toList ++ parts.flatMap fun part => '/' :: escape part.toList) =
      (p :: parts).map fun part => escape part.toList := by
  induction parts generalizing p with
  | nil => simpa using Text.split_of_not_mem (slash_not_mem_escape p.toList)
  | cons q parts ih =>
    rw [List.flatMap_cons, List.cons_append, Text.split_append (slash_not_mem_escape _), ih]
    rfl

theorem pointerEscapes_parts (parts : List String) :
    pointerEscapes (parts.flatMap fun part => '/' :: escape part.toList) = true := by
  induction parts with
  | nil => rfl
  | cons p parts ih =>
    rw [List.flatMap_cons, List.cons_append]
    exact (pointerEscapes_append p.toList _).trans ih

theorem pointerParts_pointer (parts : List String) :
    Contracts.pointerParts (some (.str (pointer parts))) = .ok parts := by
  cases parts with
  | nil => rfl
  | cons p parts =>
    have hlist : (pointer (p :: parts)).toList =
        '/' :: (escape p.toList ++ parts.flatMap fun part => '/' :: escape part.toList) := by
      simp [pointer]
    have hparts : ((p :: parts).map fun part => escape part.toList).map
        (fun part => String.ofList (unescape part)) = p :: parts := by
      rw [List.map_map]
      refine (List.map_congr_left fun part _ => ?_).trans (List.map_id _)
      simp [unescape_escape]
    simp only [Contracts.pointerParts, hlist]
    rw [if_pos ((pointerEscapes_append _ _).trans (pointerEscapes_parts parts)), split_escape]
    exact congrArg _ hparts

theorem split_cons (h : c ≠ '/') (rest : List Char) : ∃ part parts,
    Text.split '/' rest = part :: parts ∧ Text.split '/' (c :: rest) = (c :: part) :: parts := by
  obtain ⟨part, parts, hrest⟩ := List.exists_cons_of_ne_nil (Text.split_ne_nil '/' rest)
  exact ⟨part, parts, hrest, by rw [Text.split, if_neg h, hrest]⟩

theorem split_pair (d : Char) (h : d ≠ '/') (rest : List Char) : ∃ part parts,
    Text.split '/' rest = part :: parts ∧
      Text.split '/' ('~' :: d :: rest) = ('~' :: d :: part) :: parts := by
  obtain ⟨part, parts, hrest, hd⟩ := split_cons h rest
  exact ⟨part, parts, hrest, by rw [Text.split, if_neg (by decide), hd]⟩

/-- By induction on the escapes: each is one character of a part, and is written back. -/
theorem escape_split (h : pointerEscapes cs = true) :
    ((Text.split '/' cs).flatMap fun part => '/' :: escape (unescape part)) = '/' :: cs := by
  fun_induction pointerEscapes cs with
  | case1 => rfl
  | case2 rest ih =>
    obtain ⟨part, parts, hrest, hsplit⟩ := split_pair '0' (by decide) rest
    have ih := ih h
    rw [hrest, List.flatMap_cons, List.cons_append, List.cons.injEq] at ih
    rw [hsplit, List.flatMap_cons, unescape_zero]
    exact congrArg ('/' :: '~' :: '0' :: ·) ih.2
  | case3 rest ih =>
    obtain ⟨part, parts, hrest, hsplit⟩ := split_pair '1' (by decide) rest
    have ih := ih h
    rw [hrest, List.flatMap_cons, List.cons_append, List.cons.injEq] at ih
    rw [hsplit, List.flatMap_cons, unescape_one]
    exact congrArg ('/' :: '~' :: '1' :: ·) ih.2
  | case4 => cases h
  | case5 c rest _ _ hc ih =>
    by_cases hs : c = '/'
    · subst hs
      rw [Text.split, if_pos rfl, List.flatMap_cons, ih h]
      rfl
    · obtain ⟨part, parts, hrest, hsplit⟩ := split_cons hs rest
      have ih := ih h
      rw [hrest, List.flatMap_cons, List.cons_append, List.cons.injEq] at ih
      rw [hsplit, List.flatMap_cons, unescape_cons hc, escape, List.flatMap_cons, if_neg hc,
        if_neg hs]
      exact congrArg ('/' :: c :: ·) ih.2

/-- An accepted pointer is the one of its parts. -/
theorem eq_pointer {s : String} {parts : List String}
    (h : Contracts.pointerParts (some (.str s)) = .ok parts) : s = pointer parts := by
  rw [← String.toList_inj, pointer, String.toList_ofList]
  simp only [Contracts.pointerParts] at h
  split at h
  · next hs =>
    cases h
    exact hs
  · next rest hs =>
    split at h
    · next hescapes =>
      cases h
      rw [hs, List.flatMap_map, ← escape_split hescapes]
      simp [unescape]
    · cases h
  · cases h

theorem strayTilde_iff (cs : List Char) : strayTilde cs = true ↔
    ∃ a b, cs = a ++ '~' :: b ∧ b.head? ≠ some '0' ∧ b.head? ≠ some '1' := by
  induction cs with
  | nil => simp [strayTilde]
  | cons c rest ih =>
    simp only [strayTilde, Bool.or_eq_true, Bool.and_eq_true, beq_iff_eq, bne_iff_ne, ih]
    constructor
    · rintro (⟨⟨rfl, h0⟩, h1⟩ | ⟨a, b, rfl, h⟩)
      · exact ⟨[], rest, rfl, h0, h1⟩
      · exact ⟨c :: a, b, rfl, h⟩
    · rintro ⟨a, b, he, h⟩
      cases a with
      | nil =>
        cases he
        exact .inl ⟨⟨rfl, h.1⟩, h.2⟩
      | cons c' a =>
        cases he
        exact .inr ⟨a, b, rfl, h⟩

theorem pointerParts_error_iff (s : String) :
    pointerParts (some (.str s)) = .error .inputMappingError ↔ Malformed s := by
  simp only [pointerParts, Malformed, ← strayTilde_iff]
  split
  · next h => simpa using h
  · next h =>
    split <;> simpa using h

/-- Both decoders read every list of strings back from its pointer, reject exactly the malformed
pointers, and read no two pointers alike. -/
theorem pointers_read_back (decode : Option Json → Except ContractError (List String))
    (hdecode : decode = Contracts.pointerParts ∨ decode = pointerParts) :
    (∀ parts, decode (some (.str (pointer parts))) = .ok parts) ∧
    (∀ s, decode (some (.str s)) = .error .inputMappingError ↔ Malformed s) ∧
    ∀ s s' parts, decode (some (.str s)) = .ok parts → decode (some (.str s')) = .ok parts →
      s = s' := by
  obtain rfl : decode = pointerParts := by
    obtain rfl | rfl := hdecode
    · exact (funext pointerParts_eq).symm
    · rfl
  refine ⟨fun parts => ?_, pointerParts_error_iff, fun s s' parts h h' => ?_⟩
  · rw [pointerParts_eq, pointerParts_pointer]
  · rw [pointerParts_eq] at h h'
    rw [eq_pointer h, eq_pointer h']

/-- A part with both escapes. -/
theorem pointers_read_back_escapes :
    Contracts.pointerParts (some (.str "/a~1b/~01")) = .ok ["a/b", "~1"] ∧
    pointerParts (some (.str "/a~1b/~01")) = .ok ["a/b", "~1"] ∧ Malformed "/a~2" := by
  have hpointer : pointer ["a/b", "~1"] = "/a~1b/~01" := by decide +kernel
  refine ⟨?_, ?_, ?_⟩
  · exact hpointer ▸ (pointers_read_back _ (.inl rfl)).1 ["a/b", "~1"]
  · exact hpointer ▸ (pointers_read_back _ (.inr rfl)).1 ["a/b", "~1"]
  · exact ((pointers_read_back _ (.inr rfl)).2.1 _).mp (by decide +kernel)

end Deadbolt.Sdk

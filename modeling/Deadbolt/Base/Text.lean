import Mathlib

/-!
# Text operations

The operations of Go's `strings` package that the control plane applies to short
codes and pointers, over the list of characters of a string.
-/

namespace Deadbolt.Base.Text

def trimSpace (s : String) : String :=
  String.ofList
    (((s.toList.dropWhile Char.isWhitespace).reverse.dropWhile Char.isWhitespace).reverse)

/-- `strings.ToUpper` on ASCII codes. -/
def toUpper (s : String) : String := String.ofList (s.toList.map Char.toUpper)

/-- `strings.ToLower` on ASCII codes. -/
def toLower (s : String) : String := String.ofList (s.toList.map Char.toLower)

/-- `strings.Split` at one character: always at least one part. -/
def split (sep : Char) : List Char → List (List Char)
  | [] => [[]]
  | c :: rest =>
    if c = sep then [] :: split sep rest
    else
      match split sep rest with
      | [] => [[c]]
      | part :: parts => (c :: part) :: parts

theorem split_ne_nil (sep : Char) (cs : List Char) : split sep cs ≠ [] := by
  cases cs with
  | nil => simp [split]
  | cons c rest =>
    rw [split]
    split
    · simp
    · split <;> simp

variable {sep : Char} {cs : List Char}

theorem not_mem_of_mem_split {part : List Char} (h : part ∈ split sep cs) : sep ∉ part := by
  induction cs generalizing part with
  | nil =>
    rw [split, List.mem_singleton] at h
    simp [h]
  | cons c rest ih =>
    rw [split] at h
    split at h
    · rcases List.mem_cons.mp h with rfl | h
      · simp
      · exact ih h
    · next hc =>
      split at h
      · next he => exact absurd he (split_ne_nil sep rest)
      · next first parts he =>
        rcases List.mem_cons.mp h with rfl | h
        · have := ih (he ▸ List.mem_cons_self)
          simp [Ne.symm hc, this]
        · exact ih (he ▸ List.mem_cons_of_mem _ h)

theorem split_of_not_mem (h : sep ∉ cs) : split sep cs = [cs] := by
  induction cs with
  | nil => rfl
  | cons c rest ih =>
    rw [List.mem_cons, not_or] at h
    rw [split, if_neg (Ne.symm h.1), ih h.2]

theorem split_append {a : List Char} (h : sep ∉ a) (b : List Char) :
    split sep (a ++ sep :: b) = a :: split sep b := by
  induction a with
  | nil => simp [split]
  | cons c rest ih =>
    rw [List.mem_cons, not_or] at h
    rw [List.cons_append, split, if_neg (Ne.symm h.1), ih h.2]

/-- The parts with the separator between them are the text. -/
theorem intercalate_split (sep : Char) (cs : List Char) :
    [sep].intercalate (split sep cs) = cs := by
  induction cs with
  | nil => rfl
  | cons c rest ih =>
    rw [split]
    split
    · next hc =>
      obtain ⟨first, parts, he⟩ := List.exists_cons_of_ne_nil (split_ne_nil sep rest)
      rw [he] at ih ⊢
      simp [List.intercalate, List.intersperse, ← ih, hc]
    · split
      · next he => exact absurd he (split_ne_nil sep rest)
      · next first parts he =>
        rw [he] at ih
        rw [← ih]
        cases parts <;> simp [List.intercalate, List.intersperse]

theorem split_eq_pair {a b : List Char} :
    split sep cs = [a, b] ↔ cs = a ++ sep :: b ∧ sep ∉ a ∧ sep ∉ b := by
  constructor
  · intro h
    refine ⟨?_, not_mem_of_mem_split (h ▸ List.mem_cons_self),
      not_mem_of_mem_split (h ▸ List.mem_cons_of_mem _ List.mem_cons_self)⟩
    rw [← intercalate_split sep cs, h]
    simp [List.intercalate, List.intersperse]
  · rintro ⟨rfl, ha, hb⟩
    rw [split_append ha, split_of_not_mem hb]

def isSpace (c : Char) : Bool :=
  [0x09, 0x0A, 0x0B, 0x0C, 0x0D, 0x20, 0x85, 0xA0, 0x1680, 0x2028, 0x2029, 0x202F, 0x205F,
    0x3000].contains c.toNat || (0x2000 ≤ c.toNat && c.toNat ≤ 0x200A)

/-- `strings.TrimSpace` on any text. -/
def trim (cs : List Char) : List Char :=
  ((cs.dropWhile isSpace).reverse.dropWhile isSpace).reverse

/-- `unicode.ToUpper` where its result is an ASCII letter; the dotless i and the long s are the
two others with one. -/
def upper (c : Char) : Char :=
  if c.toNat = 0x131 then 'I' else if c.toNat = 0x17F then 'S' else c.toUpper

/-- `strings.ReplaceAll` of the two-character text `x y` by the character `z`. -/
def replacePair (x y z : Char) : List Char → List Char
  | a :: b :: rest =>
    if a = x ∧ b = y then z :: replacePair x y z rest else a :: replacePair x y z (b :: rest)
  | cs => cs

def digitsValue (cs : List Char) : Nat :=
  cs.foldl (fun n d => 10 * n + (d.toNat - '0'.toNat)) 0

/-- Decimal digits without a leading zero, as a number. -/
def decimal? (cs : List Char) : Option Nat :=
  if cs = ['0'] then some 0
  else
    match cs with
    | [] => none
    | c :: rest =>
      if c.isDigit && c != '0' && rest.all Char.isDigit then
        some (digitsValue cs)
      else none

/-- The decimal digits of a text that has nothing else. -/
def digits? (cs : List Char) : Option Nat :=
  if cs ≠ [] ∧ cs.all Char.isDigit = true then some (digitsValue cs) else none

/-- `strconv.Atoi`: an optional sign and digits, of a value that fits 64 bits. -/
def atoi (cs : List Char) : Option Int :=
  let value : Option Int :=
    match cs with
    | '-' :: rest => (digits? rest).map fun n => -(n : Int)
    | '+' :: rest => (digits? rest).map fun n => (n : Int)
    | _ => (digits? cs).map fun n => (n : Int)
  value.filter fun n => decide (-2 ^ 63 ≤ n ∧ n < 2 ^ 63)

theorem atoi_bounds {n : Int} (h : atoi cs = some n) : -2 ^ 63 ≤ n ∧ n < 2 ^ 63 :=
  of_decide_eq_true (Option.filter_eq_some_iff.mp h).2

end Deadbolt.Base.Text

import Mathlib

/-!
# Patterns of repeated classes

The regular expressions of the runner are alternatives, each a sequence of character classes with
a number of repetitions. `ends` lists the matches at the start of a text in the order a
backtracking matcher tries them, `exec` is the leftmost match, and `Matches` is the language.
-/

namespace Deadbolt.Base

variable {α : Type*}

/-- A class of symbols and how often it may stand: at least `least` times, and at most `most`
times if there is a bound. The repetition is greedy. -/
structure Piece (α : Type*) where
  cls : α → Bool
  least : Nat
  most : Option Nat

namespace Piece

def Fits (p : Piece α) (m : List α) : Prop :=
  (∀ c ∈ m, p.cls c = true) ∧ p.least ≤ m.length ∧ ∀ k ∈ p.most, m.length ≤ k

/-- How many symbols the piece can take at most. -/
def reach (p : Piece α) (s : List α) : Nat :=
  let n := (s.takeWhile p.cls).length
  match p.most with
  | none => n
  | some k => min n k

/-- How many symbols the piece takes at the start of a text, the largest number first. -/
def runs (p : Piece α) (s : List α) : List Nat :=
  ((List.range (p.reach s + 1)).filter (p.least ≤ ·)).reverse

end Piece

abbrev Pattern (α : Type*) := List (Piece α)

namespace Pattern

def Matches : Pattern α → List α → Prop
  | [], m => m = []
  | p :: ps, m => ∃ a b, m = a ++ b ∧ p.Fits a ∧ Matches ps b

/-- The lengths of the matches at the start of a text, in the order in which they are tried. -/
def ends : Pattern α → List α → List Nat
  | [], _ => [0]
  | p :: ps, s => (p.runs s).flatMap fun k => (ends ps (s.drop k)).map (k + ·)

/-- A match in a text: the number of the alternative and the three parts of the text. -/
structure Occurrence (α : Type*) where
  before : List α
  group : Nat
  found : List α
  after : List α
  deriving DecidableEq

/-- The first alternative that matches at the start of the text, with the length of its match. -/
def matchAt (alternatives : List (Pattern α)) (s : List α) : Option (Nat × Nat) :=
  alternatives.zipIdx.findSome? fun e => (ends e.1 s).head?.map fun k => (e.2, k)

def Occurrence.atStart (s : List α) (e : Nat × Nat) : Occurrence α where
  before := []
  group := e.1
  found := s.take e.2
  after := s.drop e.2

def exec (alternatives : List (Pattern α)) : List α → Option (Occurrence α)
  | [] => (matchAt alternatives []).map (.atStart [])
  | c :: cs =>
    match matchAt alternatives (c :: cs) with
    | some e => some (.atStart (c :: cs) e)
    | none => (exec alternatives cs).map fun o => { o with before := c :: o.before }

/-- Some part of the text matches one of the alternatives. -/
def Contains (alternatives : List (Pattern α)) (s : List α) : Prop :=
  ∃ ps ∈ alternatives, ∃ m, m <:+: s ∧ Matches ps m

/-! ### The language -/

section Language

variable {ps : Pattern α} {m : List α}

/-- When the classes see symbols only through `f`, a text that `f` does not tell from a matching
text matches. -/
theorem Matches.congr {β : Type*} {f : α → β}
    (hcls : ∀ p ∈ ps, ∀ c d, f c = f d → p.cls c = p.cls d) {m' : List α} (h : Matches ps m)
    (heq : m.map f = m'.map f) : Matches ps m' := by
  induction ps generalizing m m' with
  | nil =>
    obtain rfl : m = [] := h
    exact List.map_eq_nil_iff.mp heq.symm
  | cons p ps ih =>
    obtain ⟨a, b, rfl, ⟨hall, hleast, hmost⟩, hb⟩ := h
    have ha : a.map f = (m'.take a.length).map f := by
      rw [List.map_take, ← heq]
      simp
    have hb' : b.map f = (m'.drop a.length).map f := by
      rw [List.map_drop, ← heq]
      simp
    have hlen : a.length = (m'.take a.length).length := by simpa using congrArg List.length ha
    refine ⟨m'.take a.length, m'.drop a.length, (List.take_append_drop _ _).symm,
      ⟨fun d hd => ?_, hlen ▸ hleast, hlen ▸ hmost⟩,
      ih (fun q hq => hcls q (List.mem_cons_of_mem p hq)) hb hb'⟩
    obtain ⟨c, hc, hcd⟩ := List.mem_map.mp (ha ▸ List.mem_map_of_mem hd)
    rw [← hcls p List.mem_cons_self c d hcd]
    exact hall c hc

theorem Matches.length_le (h : Matches ps m) : (ps.map Piece.least).sum ≤ m.length := by
  induction ps generalizing m with
  | nil => simp
  | cons p ps ih =>
    obtain ⟨a, b, rfl, ⟨-, hleast, -⟩, hb⟩ := h
    have := ih hb
    simp only [List.map_cons, List.sum_cons, List.length_append]
    omega

theorem Matches.exists_cls (h : Matches ps m) {c : α} (hc : c ∈ m) : ∃ p ∈ ps, p.cls c = true := by
  induction ps generalizing m with
  | nil => simp [show m = [] from h] at hc
  | cons p ps ih =>
    obtain ⟨a, b, rfl, ⟨hall, -, -⟩, hb⟩ := h
    rcases List.mem_append.mp hc with hc | hc
    · exact ⟨p, List.mem_cons_self, hall c hc⟩
    · obtain ⟨q, hq, hqc⟩ := ih hb hc
      exact ⟨q, List.mem_cons_of_mem p hq, hqc⟩

theorem Matches.of_concat {p : Piece α} {c : α} (h : Matches (ps ++ [p]) (m ++ [c]))
    (hp : 0 < p.least) : p.cls c = true := by
  induction ps generalizing m with
  | nil =>
    obtain ⟨a, b, hm, ⟨hall, -, -⟩, hb⟩ := h
    obtain rfl : b = [] := hb
    rw [List.append_nil] at hm
    exact hall c (hm ▸ List.mem_append_right m List.mem_cons_self)
  | cons q ps ih =>
    obtain ⟨a, b, hm, -, hb⟩ := h
    have hlen := hb.length_le
    obtain ⟨b', d, rfl⟩ := (List.eq_nil_or_concat b).resolve_left (by
      rintro rfl
      simp at hlen
      omega)
    rw [List.concat_eq_append, ← List.append_assoc] at hm
    obtain ⟨-, hd⟩ := List.append_inj' hm rfl
    obtain rfl : c = d := by simpa using hd
    exact ih (by simpa using hb)

end Language

/-! ### The matcher -/

variable {s : List α} {k : Nat} {alternatives : List (Pattern α)}

theorem Piece.le_length_takeWhile {p : Piece α} :
    k ≤ (s.takeWhile p.cls).length ↔ k ≤ s.length ∧ ∀ c ∈ s.take k, p.cls c = true := by
  induction s generalizing k with
  | nil => simp
  | cons c s ih =>
    cases k with
    | zero => simp
    | succ k => by_cases hc : p.cls c = true <;> simp [hc, ih]

theorem Piece.mem_runs {p : Piece α} :
    k ∈ p.runs s ↔ ∃ m rest, s = m ++ rest ∧ m.length = k ∧ p.Fits m := by
  have hreach : k ≤ p.reach s ↔
      k ≤ (s.takeWhile p.cls).length ∧ ∀ n ∈ p.most, k ≤ n := by
    unfold Piece.reach
    cases p.most <;> simp
  rw [Piece.runs, List.mem_reverse, List.mem_filter, List.mem_range, Nat.lt_succ_iff, hreach,
    Piece.le_length_takeWhile, decide_eq_true_iff]
  constructor
  · rintro ⟨⟨⟨hk, hall⟩, hmost⟩, hleast⟩
    have hlen := List.length_take_of_le hk
    exact ⟨s.take k, s.drop k, (List.take_append_drop k s).symm, hlen, hall, by rwa [hlen],
      by rwa [hlen]⟩
  · rintro ⟨m, rest, rfl, rfl, hall, hleast, hmost⟩
    exact ⟨⟨⟨by simp, by simpa using hall⟩, hmost⟩, hleast⟩

/-- The matcher finds the lengths of the prefixes that match. -/
theorem mem_ends {ps : Pattern α} :
    k ∈ ends ps s ↔ ∃ m rest, s = m ++ rest ∧ m.length = k ∧ Matches ps m := by
  induction ps generalizing s k with
  | nil =>
    rw [ends, List.mem_singleton]
    constructor
    · rintro rfl
      exact ⟨[], s, rfl, rfl, rfl⟩
    · rintro ⟨m, rest, -, rfl, hm⟩
      simp [show m = [] from hm]
  | cons p ps ih =>
    simp only [ends, List.mem_flatMap, List.mem_map, Piece.mem_runs, ih]
    constructor
    · rintro ⟨-, ⟨a, rest, rfl, rfl, ha⟩, -, ⟨b, rest', hb, rfl, hmatch⟩, rfl⟩
      rw [List.drop_left] at hb
      exact ⟨a ++ b, rest', by rw [hb, List.append_assoc], by simp, a, b, rfl, ha, hmatch⟩
    · rintro ⟨-, rest, rfl, rfl, a, b, rfl, ha, hmatch⟩
      exact ⟨a.length, ⟨a, b ++ rest, by simp, rfl, ha⟩, b.length,
        ⟨b, rest, by simp, rfl, hmatch⟩, by simp⟩

/-- A match at the start of the text, with the alternative it belongs to. -/
theorem of_matchAt_eq_some {i : Nat} (h : matchAt alternatives s = some (i, k)) :
    ∃ ps, alternatives[i]? = some ps ∧ k ≤ s.length ∧ Matches ps (s.take k) := by
  obtain ⟨e, he, hk⟩ := List.exists_of_findSome?_eq_some h
  obtain ⟨k', hk', heq⟩ := Option.map_eq_some_iff.mp hk
  obtain ⟨rfl, rfl⟩ := Prod.mk.inj heq
  obtain ⟨m, rest, rfl, rfl, hm⟩ := mem_ends.mp (List.mem_of_head? hk')
  exact ⟨e.1, List.mk_mem_zipIdx_iff_getElem?.mp he, by simp, by simpa using hm⟩

/-- No alternative matches at the start of the text. -/
theorem matchAt_eq_none :
    matchAt alternatives s = none ↔
      ∀ ps ∈ alternatives, ∀ m, m <+: s → ¬ Matches ps m := by
  rw [matchAt, List.findSome?_eq_none_iff]
  constructor
  · rintro h ps hps m ⟨rest, rfl⟩ hm
    obtain ⟨i, hi⟩ := List.mem_iff_getElem?.mp hps
    have hnil := h (ps, i) (List.mk_mem_zipIdx_iff_getElem?.mpr hi)
    rw [Option.map_eq_none_iff, List.head?_eq_none_iff] at hnil
    have hmem : m.length ∈ ends ps (m ++ rest) := mem_ends.mpr ⟨m, rest, rfl, rfl, hm⟩
    simp [hnil] at hmem
  · intro h e he
    rw [Option.map_eq_none_iff, List.head?_eq_none_iff, List.eq_nil_iff_forall_not_mem]
    intro k hk
    obtain ⟨m, rest, rfl, -, hm⟩ := mem_ends.mp hk
    exact h e.1 (List.mem_of_getElem? (List.mk_mem_zipIdx_iff_getElem?.mp he)) m
      (List.prefix_append m rest) hm

/-- The parts of the text at the leftmost match. -/
structure Leftmost (alternatives : List (Pattern α)) (s : List α) (o : Occurrence α) : Prop where
  parts : s = o.before ++ (o.found ++ o.after)
  found : ∃ ps, alternatives[o.group]? = some ps ∧ Matches ps o.found
  /-- No match starts before it. -/
  first : ∀ a b, o.before = a ++ b → b ≠ [] → ∀ ps ∈ alternatives,
    ∀ m, m <+: b ++ (o.found ++ o.after) → ¬ Matches ps m

theorem Leftmost.atStart {e : Nat × Nat} (h : matchAt alternatives s = some e) :
    Leftmost alternatives s (.atStart s e) := by
  obtain ⟨ps, hps, -, hm⟩ := of_matchAt_eq_some h
  exact ⟨(List.take_append_drop e.2 s).symm, ⟨ps, hps, hm⟩, by simp [Occurrence.atStart]⟩

theorem Leftmost.cons {c : α} {o : Occurrence α} (hat : matchAt alternatives (c :: s) = none)
    (h : Leftmost alternatives s o) :
    Leftmost alternatives (c :: s) { o with before := c :: o.before } := by
  obtain ⟨rfl, hfound, hfirst⟩ := h
  refine ⟨rfl, hfound, fun a b hab hb ps hps m hm => ?_⟩
  cases a with
  | nil =>
    obtain rfl : c :: o.before = b := hab
    exact matchAt_eq_none.mp hat ps hps m hm
  | cons d a => exact hfirst a b (List.cons_eq_cons.mp hab).2 hb ps hps m hm

theorem Leftmost.of_exec {o : Occurrence α} (h : exec alternatives s = some o) :
    Leftmost alternatives s o := by
  induction s generalizing o with
  | nil =>
    obtain ⟨e, he, rfl⟩ := Option.map_eq_some_iff.mp h
    exact .atStart he
  | cons c cs ih =>
    rw [exec] at h
    split at h
    · next e he =>
      obtain rfl := Option.some.inj h
      exact .atStart he
    · next hat =>
      obtain ⟨o', ho', rfl⟩ := Option.map_eq_some_iff.mp h
      exact .cons hat (ih ho')

/-- The matcher finds nothing in a text without a match only. -/
theorem exec_eq_none : exec alternatives s = none ↔ ¬ Contains alternatives s := by
  constructor
  · rintro h ⟨ps, hps, m, hm, hmatch⟩
    induction s with
    | nil =>
      rw [exec, Option.map_eq_none_iff, matchAt_eq_none] at h
      exact h ps hps m (by simpa using hm) hmatch
    | cons c cs ih =>
      rw [exec] at h
      split at h
      · simp at h
      · next hat =>
        rcases List.infix_cons_iff.mp hm with hm | hm
        · exact matchAt_eq_none.mp hat ps hps m hm hmatch
        · exact ih (Option.map_eq_none_iff.mp h) hm
  · intro h
    rw [Option.eq_none_iff_forall_ne_some]
    intro o ho
    obtain ⟨rfl, ⟨ps, hps, hm⟩, -⟩ := Leftmost.of_exec ho
    exact h ⟨ps, List.mem_of_getElem? hps, o.found, ⟨o.before, o.after, by simp⟩, hm⟩

instance (alternatives : List (Pattern α)) (s : List α) : Decidable (Contains alternatives s) :=
  decidable_of_iff ((exec alternatives s).isSome = true) (by
    rw [Option.isSome_iff_ne_none, Ne, exec_eq_none, not_not])

theorem Contains.mono {t : List α} (h : Contains alternatives s) (hst : s <:+: t) :
    Contains alternatives t := by
  obtain ⟨ps, hps, m, hm, hmatch⟩ := h
  exact ⟨ps, hps, m, hm.trans hst, hmatch⟩

end Pattern

end Deadbolt.Base

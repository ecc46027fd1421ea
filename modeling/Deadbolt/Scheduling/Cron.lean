import Deadbolt.Base.Text

/-!
# Cron fields

`parseField` and `resolveValue`, `internal/scheduling/cron.go:92-176`. A matcher is the set of
values that are `true` in the source's map. The loop that fills it adds in 64-bit integers, so it
is run here with a budget: a step that carries the counter beyond the largest integer takes it to
negative values, and further rounds may lead back among the values before the start.

`Denotes` is the grammar of a part of a field. Where no step reaches beyond the largest integer a
field denotes the union of its parts; the loop ends in any case.
-/

namespace Deadbolt.Scheduling

open Base Base.Text

abbrev FieldMatcher := Finset Int

/-- The errors of `parseField`, with the values that their texts show. -/
inductive FieldError where
  | emptySubExpression (field : List Char)
  | stepExpression (part : List Char)
  | stepValue (part : List Char)
  | rangeExpression (range : List Char)
  | rangeOrder (start stop : Int)
  | number (s : List Char)
  | outOfBounds (value min max : Int)
  | noValues (field : List Char)
  deriving DecidableEq

/-- `resolveValue`, `cron.go:160-176`. -/
def resolveValue (s : List Char) (min max : Int) (nameMap : List (List Char × Int)) :
    Except FieldError Int :=
  let s := (trim s).map upper
  match nameMap.lookup s with
  | some value => .ok value
  | none =>
    match atoi s with
    | none => .error (.number s)
    | some value =>
      if value < min ∨ max < value then .error (.outOfBounds value min max) else .ok value

/-- The step of a part and what stands before it, `cron.go:99-111`. -/
def parseStep (part : List Char) : Except FieldError (List Char × Option Int) :=
  if '/' ∈ part then
    match split '/' part with
    | [range, text] =>
      match atoi text with
      | some step => if 0 < step then .ok (range, some step) else .error (.stepValue part)
      | none => .error (.stepValue part)
    | _ => .error (.stepExpression part)
  else .ok (part, none)

/-- The first and the last value of a part, `cron.go:113-147`. -/
def parseRange (range : List Char) (stepped : Bool) (min max : Int)
    (nameMap : List (List Char × Int)) : Except FieldError (Int × Int) :=
  if range = ['*'] then .ok (min, max)
  else if '-' ∈ range then
    match split '-' range with
    | [first, last] =>
      match resolveValue first min max nameMap, resolveValue last min max nameMap with
      | .error e, _ => .error e
      | .ok _, .error e => .error e
      | .ok start, .ok stop =>
        if stop < start then .error (.rangeOrder start stop) else .ok (start, stop)
    | _ => .error (.rangeExpression range)
  else
    match resolveValue range min max nameMap with
    | .error e => .error e
    | .ok value => .ok (value, if stepped then max else value)

structure Progression where
  start : Int
  stop : Int
  step : Int
  deriving DecidableEq

/-- One part of a field, `cron.go:94-147`. -/
def parsePart (field part : List Char) (min max : Int) (nameMap : List (List Char × Int)) :
    Except FieldError Progression :=
  let part := trim part
  if part = [] then .error (.emptySubExpression field)
  else
    match parseStep part with
    | .error e => .error e
    | .ok (range, step) =>
      match parseRange range step.isSome min max nameMap with
      | .error e => .error e
      | .ok (start, stop) => .ok ⟨start, stop, step.getD 1⟩

def wrap (n : Int) : Int := n.bmod (2 ^ 64)

/-- `for i := start; i <= end; i += step`, with a budget of rounds. -/
def fill (stop step : Int) : Nat → Int → FieldMatcher → Option FieldMatcher
  | 0, _, _ => none
  | budget + 1, i, matcher =>
    if i ≤ stop then fill stop step budget (wrap (i + step)) (insert i matcher) else some matcher

def parseParts (budget : Nat) (field : List Char) (min max : Int)
    (nameMap : List (List Char × Int)) :
    List (List Char) → FieldMatcher → Option (Except FieldError FieldMatcher)
  | [], matcher =>
    if matcher = ∅ then some (.error (.noValues field)) else some (.ok matcher)
  | part :: parts, matcher =>
    match parsePart field part min max nameMap with
    | .error e => some (.error e)
    | .ok p =>
      (fill p.stop p.step budget p.start matcher).bind
        (parseParts budget field min max nameMap parts)

/-- `parseField` with a budget for each loop, `cron.go:92-158`. -/
def parseFieldIn (budget : Nat) (field : List Char) (min max : Int)
    (nameMap : List (List Char × Int)) : Option (Except FieldError FieldMatcher) :=
  parseParts budget field min max nameMap (split ',' field) ∅

structure FieldBounds where
  min : Int
  max : Int
  nameMap : List (List Char × Int)
  nonneg : 0 ≤ min
  small : max < 2 ^ 60
  names : ∀ e ∈ nameMap, min ≤ e.2 ∧ e.2 ≤ max

/-! ### The grammar -/

section Grammar

variable (b : FieldBounds)

/-- A word that names a value: a name, or a number within the bounds. -/
structure Word (text : List Char) (value : Int) : Prop where
  plain : '-' ∉ text
  named : b.nameMap.lookup ((trim text).map upper) = some value ∨
    b.nameMap.lookup ((trim text).map upper) = none ∧ atoi ((trim text).map upper) = some value ∧
      b.min ≤ value ∧ value ≤ b.max

/-- What stands before the step, with its first and last value; a single value with a step goes
on to the largest value. -/
inductive Span (stepped : Bool) : List Char → Int → Int → Prop
  | all : Span stepped ['*'] b.min b.max
  | range {first last : List Char} {start stop : Int} (hf : Word b first start)
      (hl : Word b last stop) (h : start ≤ stop) : Span stepped (first ++ '-' :: last) start stop
  | value {text : List Char} {v : Int} (hne : text ≠ ['*']) (hw : Word b text v) :
      Span stepped text v (if stepped then b.max else v)

inductive Denotes : List Char → Progression → Prop
  | plain {text : List Char} {start stop : Int} (hs : '/' ∉ text) (h : Span b false text start stop) :
      Denotes text ⟨start, stop, 1⟩
  | stepped {text number : List Char} {start stop step : Int} (hs : '/' ∉ text)
      (hn : '/' ∉ number) (h : Span b true text start stop) (hstep : atoi number = some step)
      (hpos : 0 < step) : Denotes (text ++ '/' :: number) ⟨start, stop, step⟩

end Grammar

def Progression.Has (p : Progression) (i : Int) : Prop :=
  p.start ≤ i ∧ i ≤ p.stop ∧ p.step ∣ i - p.start

/-! ### The parser follows the grammar -/

variable {b : FieldBounds}

variable {text part field : List Char} {p : Progression} {n : Nat} {parts : List (List Char)}
  {m : FieldMatcher}

theorem resolveValue_eq_ok {v : Int} (h : '-' ∉ text) :
    resolveValue text b.min b.max b.nameMap = .ok v ↔ Word b text v := by
  unfold resolveValue
  simp only
  constructor
  · intro hr
    refine ⟨h, ?_⟩
    split at hr
    · next hn =>
      cases hr
      exact .inl hn
    · next hn =>
      split at hr
      · cases hr
      · next value ha =>
        split at hr
        · cases hr
        · next hb =>
          cases hr
          exact .inr ⟨hn, ha, by omega, by omega⟩
  · rintro ⟨-, hn | ⟨hn, ha, hmin, hmax⟩⟩
    · simp [hn]
    · have hb : ¬(v < b.min ∨ b.max < v) := by omega
      simp [hn, ha, hb]

theorem parseRange_eq_ok {stepped : Bool} {start stop : Int} :
    parseRange text stepped b.min b.max b.nameMap = .ok (start, stop) ↔
      Span b stepped text start stop := by
  unfold parseRange
  constructor
  · intro h
    split at h
    · next he =>
      cases h
      exact he ▸ .all
    · next he =>
      split at h
      · split at h
        · next first last hs =>
          obtain ⟨rfl, hf, hl⟩ := split_eq_pair.mp hs
          split at h
          · cases h
          · cases h
          · next hrf hrl =>
            split at h
            · cases h
            · next hle =>
              cases h
              exact .range ((resolveValue_eq_ok hf).mp hrf) ((resolveValue_eq_ok hl).mp hrl)
                (by omega)
        · cases h
      · next hd =>
        split at h
        · cases h
        · next hr =>
          cases h
          exact .value he ((resolveValue_eq_ok hd).mp hr)
  · intro h
    cases h with
    | all => simp
    | @range first last _ _ hf hl hle =>
      have hne : first ++ '-' :: last ≠ ['*'] := fun he => by
        have : '-' ∈ ['*'] := he ▸ by simp
        simp at this
      rw [if_neg hne, if_pos (by simp), split_eq_pair.mpr ⟨rfl, hf.plain, hl.plain⟩]
      simp [(resolveValue_eq_ok hf.plain).mpr hf, (resolveValue_eq_ok hl.plain).mpr hl, hle]
    | value hne hw =>
      rw [if_neg hne, if_neg hw.plain, (resolveValue_eq_ok hw.plain).mpr hw]

theorem parseStep_eq_ok {range : List Char} {step : Option Int} :
    parseStep part = .ok (range, step) ↔ '/' ∉ range ∧
      (part = range ∧ step = none ∨
        ∃ number k, part = range ++ '/' :: number ∧ '/' ∉ number ∧ atoi number = some k ∧ 0 < k ∧
          step = some k) := by
  unfold parseStep
  constructor
  · intro h
    split at h
    · split at h
      · next range' number hs =>
        obtain ⟨rfl, hr, hn⟩ := split_eq_pair.mp hs
        split at h
        · next k hk =>
          split at h
          · next hpos =>
            cases h
            exact ⟨hr, .inr ⟨number, k, rfl, hn, hk, hpos, rfl⟩⟩
          · cases h
        · cases h
      · cases h
    · next hs =>
      cases h
      exact ⟨hs, .inl ⟨rfl, rfl⟩⟩
  · rintro ⟨hr, ⟨rfl, rfl⟩ | ⟨number, k, rfl, hn, hk, hpos, rfl⟩⟩
    · rw [if_neg hr]
    · rw [if_pos (by simp), split_eq_pair.mpr ⟨rfl, hr, hn⟩]
      simp [hk, hpos]

/-- The parser accepts what the grammar has, with the values of the grammar. -/
theorem parsePart_eq_ok :
    parsePart field part b.min b.max b.nameMap = .ok p ↔
      trim part ≠ [] ∧ Denotes b (trim part) p := by
  unfold parsePart
  generalize trim part = part
  simp only
  constructor
  · intro h
    split at h
    · cases h
    · next hne =>
      refine ⟨hne, ?_⟩
      split at h
      · cases h
      · next range step hs =>
        split at h
        · cases h
        · next start stop hr =>
          cases h
          obtain ⟨hns, ⟨rfl, rfl⟩ | ⟨number, k, rfl, hn, hk, hpos, rfl⟩⟩ := parseStep_eq_ok.mp hs
          · exact .plain hns (parseRange_eq_ok.mp hr)
          · exact .stepped hns hn (parseRange_eq_ok.mp hr) hk hpos
  · rintro ⟨hne, h⟩
    rw [if_neg hne]
    cases h with
    | plain hs h =>
      rw [parseStep_eq_ok.mpr ⟨hs, .inl ⟨rfl, rfl⟩⟩]
      simp only [Option.isSome_none, parseRange_eq_ok.mpr h, Option.getD_none]
    | @stepped text number _ _ step hs hn h hk hpos =>
      rw [parseStep_eq_ok.mpr ⟨hs, .inr ⟨number, step, rfl, hn, hk, hpos, rfl⟩⟩]
      simp only [Option.isSome_some, parseRange_eq_ok.mpr h, Option.getD_some]

theorem Denotes.unique {q : Progression} (hne : trim part ≠ []) (hp : Denotes b (trim part) p)
    (hq : Denotes b (trim part) q) : p = q := by
  have h : parsePart [] part b.min b.max b.nameMap = .ok p := parsePart_eq_ok.mpr ⟨hne, hp⟩
  exact Except.ok.inj (h.symm.trans (parsePart_eq_ok.mpr ⟨hne, hq⟩))

theorem Word.bounds {v : Int} (h : Word b text v) : b.min ≤ v ∧ v ≤ b.max := by
  obtain hn | ⟨-, -, hb⟩ := h.named
  · obtain ⟨l1, l2, he, -⟩ := List.lookup_eq_some_iff.mp hn
    exact b.names (_, v) (by rw [he]; exact List.mem_append_right l1 List.mem_cons_self)
  · exact hb

theorem Span.bounds {stepped : Bool} {start stop : Int} (h : Span b stepped text start stop) :
    b.min ≤ start ∧ stop ≤ b.max := by
  cases h with
  | all => exact ⟨le_refl _, le_refl _⟩
  | range hf hl => exact ⟨hf.bounds.1, hl.bounds.2⟩
  | value _ hw =>
    refine ⟨hw.bounds.1, ?_⟩
    split
    · exact le_refl _
    · exact hw.bounds.2

theorem Denotes.bounds (h : Denotes b text p) :
    b.min ≤ p.start ∧ p.stop ≤ b.max ∧ 0 < p.step ∧ p.step < 2 ^ 63 := by
  cases h with
  | plain _ h => exact ⟨h.bounds.1, h.bounds.2, Int.one_pos, by norm_num⟩
  | stepped _ _ h hk hpos => exact ⟨h.bounds.1, h.bounds.2, hpos, (atoi_bounds hk).2⟩

/-! ### The loop -/

theorem wrap_of_lt {n : Int} (h0 : -2 ^ 63 ≤ n) (h1 : n < 2 ^ 63) : wrap n = n := by
  unfold wrap
  rw [Int.bmod_def]
  omega

theorem wrap_of_le {n : Int} (h0 : 2 ^ 63 ≤ n) (h1 : n < 2 ^ 64) : wrap n = n - 2 ^ 64 := by
  unfold wrap
  rw [Int.bmod_def]
  omega

section Loop

variable {stop step : Int}

variable {n : Nat} {i : Int} {m : FieldMatcher}

/-- Without overflow the loop adds the values of the progression. -/
theorem mem_fill {m' : FieldMatcher} (hpos : 0 < step) (hi : 0 ≤ i) (hs : stop + step < 2 ^ 63)
    (h : fill stop step n i m = some m') (j : Int) :
    j ∈ m' ↔ j ∈ m ∨ Progression.Has ⟨i, stop, step⟩ j := by
  induction n generalizing i m with
  | zero => cases h
  | succ n ih =>
    rw [fill] at h
    split at h
    · next hle =>
      rw [wrap_of_lt (by omega) (by omega)] at h
      rw [ih (by omega) h, Finset.mem_insert]
      have hdvd : step ∣ j - (i + step) ↔ step ∣ j - i := by
        rw [← sub_sub]
        exact dvd_sub_self_right
      simp only [Progression.Has, hdvd]
      constructor
      · rintro ((rfl | hm) | ⟨h1, h2, h3⟩)
        · exact .inr ⟨le_refl _, hle, by simp⟩
        · exact .inl hm
        · exact .inr ⟨by omega, h2, h3⟩
      · rintro (hm | ⟨h1, h2, h3⟩)
        · exact .inl (.inr hm)
        · by_cases he : j = i
          · exact .inl (.inl he)
          · have := Int.le_of_dvd (by omega) h3
            exact .inr ⟨by omega, h2, h3⟩
    · next hle =>
      cases h
      simp only [Progression.Has]
      constructor
      · exact .inl
      · rintro (hm | ⟨h1, h2, -⟩)
        · exact hm
        · omega

theorem fill_mono {m' : FieldMatcher} (h : fill stop step n i m = some m') {n' : Nat}
    (hn : n ≤ n') : fill stop step n' i m = some m' := by
  induction n generalizing i m n' with
  | zero => cases h
  | succ n ih =>
    obtain ⟨k, rfl⟩ : ∃ k, n' = k + 1 := ⟨n' - 1, by omega⟩
    rw [fill] at h ⊢
    split at h
    · next hle =>
      rw [if_pos hle]
      exact ih h (by omega)
    · next hle =>
      rw [if_neg hle]
      exact h

/-- A step that never carries the counter over the largest integer. -/
theorem fill_isSome_of_small (m : FieldMatcher) (hpos : 0 < step) (hi : 0 ≤ i)
    (hs : stop + step < 2 ^ 63) (h1 : 1 ≤ n) (hn : stop - i + 2 ≤ n) :
    (fill stop step n i m).isSome := by
  induction n generalizing i m with
  | zero => omega
  | succ n ih =>
    rw [fill]
    split
    · next hle =>
      rw [wrap_of_lt (by omega) (by omega)]
      exact ih _ (by omega) (by omega) (by omega)
    · rfl

theorem fill_of_lt (h : stop < i) (hn : 1 ≤ n) : fill stop step n i m = some m := by
  obtain ⟨k, rfl⟩ : ∃ k, n = k + 1 := ⟨n - 1, by omega⟩
  rw [fill, if_neg (by omega)]

/-- A step near the largest integer: two rounds take the counter to a smaller value, so the
negative values end too. -/
theorem fill_isSome_of_large (i : Int) (m : FieldMatcher) (hlo : 2 ^ 62 ≤ step)
    (hhi : step < 2 ^ 63) (hs : stop < 2 ^ 60) (hi : 0 ≤ i) (hn : 2 * i + 4 ≤ n) :
    (fill stop step n i m).isSome := by
  induction hk : i.toNat using Nat.strong_induction_on generalizing i m n with
  | _ k ih =>
    obtain ⟨n, rfl⟩ : ∃ k, n = k + 3 := ⟨n - 3, by omega⟩
    by_cases hle : i ≤ stop
    · rw [fill, if_pos hle]
      by_cases hover : i + step < 2 ^ 63
      · rw [wrap_of_lt (by omega) hover, fill_of_lt (by omega) (by omega)]
        rfl
      · rw [wrap_of_le (by omega) (by omega), fill, if_pos (by omega),
          wrap_of_lt (by omega) (by omega)]
        by_cases hneg : 0 ≤ i + step - 2 ^ 64 + step
        · exact ih _ (by omega) _ _ hneg (by omega) rfl
        · rw [fill, if_pos (by omega), wrap_of_lt (by omega) (by omega),
            fill_of_lt (by omega) (by omega)]
          rfl
    · rw [fill_of_lt (by omega) (by omega)]
      rfl

end Loop

def enough (max : Int) : Nat := 2 * max.toNat + 4

theorem fill_isSome (h : Denotes b text p) (m : FieldMatcher) :
    (fill p.stop p.step (enough b.max) p.start m).isSome := by
  obtain ⟨hmin, hmax, hpos, hlt⟩ := h.bounds
  have h0 := b.nonneg
  have h60 := b.small
  by_cases hle : p.start ≤ p.stop
  · unfold enough
    by_cases hstep : p.step < 2 ^ 62
    · exact fill_isSome_of_small m hpos (by omega) (by omega) (by omega) (by omega)
    · exact fill_isSome_of_large _ m (by omega) hlt (by omega) (by omega) (by omega)
  · rw [fill_of_lt (by omega) (by simp [enough])]
    rfl

/-! ### Fields -/

theorem parseParts_isSome (field : List Char) (parts : List (List Char)) (m : FieldMatcher) :
    (parseParts (enough b.max) field b.min b.max b.nameMap parts m).isSome := by
  induction parts generalizing m with
  | nil =>
    rw [parseParts]
    split <;> rfl
  | cons part parts ih =>
    rw [parseParts]
    split
    · rfl
    · next p hp =>
      obtain ⟨m', hm'⟩ := Option.isSome_iff_exists.mp (fill_isSome (parsePart_eq_ok.mp hp).2 m)
      rw [hm']
      exact ih m'

theorem parseParts_mono {n' : Nat} (hn : n ≤ n') {res : Except FieldError FieldMatcher}
    (h : parseParts n field b.min b.max b.nameMap parts m = some res) :
    parseParts n' field b.min b.max b.nameMap parts m = some res := by
  induction parts generalizing m with
  | nil => exact h
  | cons part parts ih =>
    rw [parseParts] at h ⊢
    split at h
    · exact h
    · obtain ⟨m', hm', h⟩ := Option.bind_eq_some_iff.mp h
      rw [fill_mono hm' hn]
      exact ih h

def parseField (field : List Char) (b : FieldBounds) : Except FieldError FieldMatcher :=
  (parseFieldIn (enough b.max) field b.min b.max b.nameMap).get (parseParts_isSome _ _ _)

/-- Every further round of budget gives the same result. -/
theorem parseFieldIn_eq (field : List Char) (b : FieldBounds) (hn : enough b.max ≤ n) :
    parseFieldIn n field b.min b.max b.nameMap = some (parseField field b) :=
  parseParts_mono hn (Option.some_get _).symm

theorem denotes_of_parseParts {m' : FieldMatcher}
    (h : parseParts n field b.min b.max b.nameMap parts m = some (.ok m')) :
    ∀ part ∈ parts, trim part ≠ [] ∧ ∃ p, Denotes b (trim part) p := by
  induction parts generalizing m with
  | nil => simp
  | cons part parts ih =>
    rw [parseParts] at h
    split at h
    · cases h
    · next p hp =>
      obtain ⟨m1, -, h⟩ := Option.bind_eq_some_iff.mp h
      have hd := parsePart_eq_ok.mp hp
      intro part' hmem
      rcases List.mem_cons.mp hmem with rfl | hmem
      · exact ⟨hd.1, p, hd.2⟩
      · exact ih h part' hmem

/-- Without overflow the result is the union of the parts. -/
theorem mem_of_parseParts {m' : FieldMatcher}
    (h : parseParts n field b.min b.max b.nameMap parts m = some (.ok m'))
    (hs : ∀ part ∈ parts, ∀ p, Denotes b (trim part) p → b.max + p.step < 2 ^ 63) :
    m'.Nonempty ∧ ∀ i, i ∈ m' ↔
      i ∈ m ∨ ∃ part ∈ parts, ∃ p, Denotes b (trim part) p ∧ p.Has i := by
  induction parts generalizing m with
  | nil =>
    rw [parseParts] at h
    split at h
    · cases h
    · next hne =>
      cases h
      exact ⟨Finset.nonempty_iff_ne_empty.mpr hne, by simp⟩
  | cons part parts ih =>
    rw [parseParts] at h
    split at h
    · cases h
    · next p hp =>
      obtain ⟨m1, hm1, h⟩ := Option.bind_eq_some_iff.mp h
      obtain ⟨hne, hd⟩ := parsePart_eq_ok.mp hp
      obtain ⟨hmin, hmax, hpos, -⟩ := hd.bounds
      have h0 := b.nonneg
      have hstep := hs part List.mem_cons_self p hd
      obtain ⟨hnonempty, hmem⟩ := ih h fun part' h' => hs part' (List.mem_cons_of_mem _ h')
      refine ⟨hnonempty, fun i => ?_⟩
      have hfill := mem_fill hpos (by omega) (by omega) hm1 i
      have hpart : (∃ q, Denotes b (trim part) q ∧ q.Has i) ↔ p.Has i :=
        ⟨fun ⟨q, hq, hi⟩ => Denotes.unique hne hq hd ▸ hi, fun hi => ⟨p, hd, hi⟩⟩
      simp only [hmem, hfill, List.exists_mem_cons_iff, hpart]
      exact or_assoc

def weekdayNames : List (List Char × Int) :=
  [("SUN".toList, 0), ("MON".toList, 1), ("TUE".toList, 2), ("WED".toList, 3),
   ("THU".toList, 4), ("FRI".toList, 5), ("SAT".toList, 6)]

/-- The bounds of the five fields, `cron.go:50-73`. -/
def minuteBounds : FieldBounds := ⟨0, 59, [], by decide, by decide, by decide⟩

@[inherit_doc minuteBounds]
def weekdayBounds : FieldBounds := ⟨0, 7, weekdayNames, by decide, by decide, by decide⟩

end Deadbolt.Scheduling

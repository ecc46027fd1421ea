import Deadbolt.Base.Calendar
import Deadbolt.Scheduling.Cron

/-!
# The next occurrence of a schedule

`NextOccurrence` with `MatchesLocal`, `isValidWallTime` and `isRepeatedUTCOccurrence`,
`internal/scheduling/evaluator.go:34-105` and `cron.go:178-208`. An instant is a number of
nanoseconds since the start of 1970, a zone the offset in minutes at every instant. `Zone.date` is
`time.Date`: it looks up the offset of the wall time taken as an instant, and then the offset at the
instant that gives.

A zone is regular if its offset changes at most once in two days and never goes back by more than
two hours. In a regular zone the look-back of two hours finds every repeated wall time.
-/

namespace Deadbolt.Scheduling

open Base Base.Text

def minute : Int := 60000000000

/-- A `time.Location`: the UTC offset in minutes. -/
structure Zone where
  offset : Int → Int

/-- What `time.Time` shows of a wall time. -/
structure LocalTime where
  date : Date
  hour : Int
  minute : Int
  weekday : Int
  deriving DecidableEq

namespace LocalTime

/-- The wall time of a number of minutes since the start of 1970, a Thursday. -/
def ofMinutes (w : Int) : LocalTime where
  date := .ofDays (w / 1440)
  hour := w / 60 % 24
  minute := w % 60
  weekday := (w / 1440 + 4) % 7

def minutes (l : LocalTime) : Int := 1440 * l.date.days + 60 * l.hour + l.minute

def sameMinute (k l : LocalTime) : Bool :=
  k.date.year == l.date.year && k.date.month == l.date.month && k.date.day == l.date.day &&
    k.hour == l.hour && k.minute == l.minute

@[simp] theorem minutes_ofMinutes (w : Int) : (ofMinutes w).minutes = w := by
  simp only [minutes, ofMinutes, Date.days_ofDays]
  omega

theorem sameMinute_ofMinutes {v w : Int} :
    (ofMinutes v).sameMinute (ofMinutes w) = true ↔ v = w := by
  constructor
  · intro h
    simp only [sameMinute, Bool.and_eq_true, beq_iff_eq] at h
    obtain ⟨⟨⟨⟨hy, hm⟩, hd⟩, hh⟩, hmin⟩ := h
    have hdate : (ofMinutes v).date = (ofMinutes w).date := by
      cases hv : (ofMinutes v).date
      cases hw : (ofMinutes w).date
      simp_all
    rw [← minutes_ofMinutes v, ← minutes_ofMinutes w, minutes, minutes, hdate, hh, hmin]
  · rintro rfl
    simp [sameMinute]

end LocalTime

namespace Zone

def wall (z : Zone) (t : Int) : Int := t / Scheduling.minute + z.offset t

def localTime (z : Zone) (t : Int) : LocalTime := .ofMinutes (z.wall t)

/-- `time.Date` of a wall time. -/
def date (z : Zone) (l : LocalTime) : Int :=
  let unix := Scheduling.minute * l.minutes
  let offset := z.offset unix
  -- In the piece of the first lookup the second one finds the same offset.
  let offset := if offset = 0 then 0 else z.offset (unix - Scheduling.minute * offset)
  unix - Scheduling.minute * offset

def isValidWallTime (z : Zone) (l : LocalTime) : Bool :=
  let reconstructed := z.localTime (z.date l)
  reconstructed.hour == l.hour && reconstructed.minute == l.minute

/-- `isRepeatedUTCOccurrence`: an earlier minute of the last 120 with the same wall time. -/
def isRepeatedUTCOccurrence (z : Zone) (t : Int) : Bool :=
  (List.range 120).any fun k =>
    (z.localTime (t - Scheduling.minute * (k + 1))).sameMinute (z.localTime t)

end Zone

structure ScheduleSpec where
  location : Zone
  minutes : FieldMatcher
  hours : FieldMatcher
  days : FieldMatcher
  months : FieldMatcher
  weekdays : FieldMatcher
  domStar : Bool
  dowStar : Bool

namespace ScheduleSpec

/-- `MatchesLocal`, `cron.go:178-208`. -/
def matchesLocal (s : ScheduleSpec) (l : LocalTime) : Bool :=
  if l.minute ∉ s.minutes then false
  else if l.hour ∉ s.hours then false
  else if l.date.month ∉ s.months then false
  else
    let domMatch := decide (l.date.day ∈ s.days)
    let dowMatch := decide (l.weekday ∈ s.weekdays)
    if !s.domStar && !s.dowStar then domMatch || dowMatch
    else if !s.domStar then domMatch
    else if !s.dowStar then dowMatch
    else true

/-- An instant at which the loop of `NextOccurrence` returns. -/
def fires (s : ScheduleSpec) (t : Int) : Bool :=
  let localTime := s.location.localTime t
  if s.matchesLocal localTime then
    if !s.location.isValidWallTime localTime then false
    else if s.location.isRepeatedUTCOccurrence t then false
    else true
  else false

/-- The loop of `NextOccurrence` with the rounds that are left. -/
def search (s : ScheduleSpec) : Nat → Int → Option Int
  | 0, _ => none
  | rounds + 1, curr => if s.fires curr then some curr else s.search rounds (curr + minute)

end ScheduleSpec

/-- `after.UTC().Truncate(time.Minute).Add(time.Minute)`. -/
def nextMinute (after : Int) : Int := minute * (after / minute + 1)

/-- `Time.AddDate(5, 0, 0)` of a whole minute: the day after 28 February if there is no 29th. -/
def fiveYearsOn (t : Int) : Int :=
  let l := LocalTime.ofMinutes (t / minute)
  minute * { l with date := { l.date with year := l.date.year + 5 } }.minutes

/-- The last instant that `NextOccurrence` looks at. -/
def searchLimit (after : Int) : Int := fiveYearsOn (nextMinute after)

/-- `NextOccurrence`: a round for each minute up to the limit. -/
def ScheduleSpec.nextOccurrence (s : ScheduleSpec) (after : Int) : Option Int :=
  s.search ((searchLimit after - nextMinute after) / minute + 1).toNat (nextMinute after)

/-! ### Regular zones -/

namespace Zone

def Transition (z : Zone) (x : Int) : Prop := z.offset (x - 1) ≠ z.offset x

/-- Transitions are at least two days apart, and one that goes back repeats at most 120 minutes. -/
structure Regular (z : Zone) : Prop where
  apart : ∀ x y, z.Transition x → z.Transition y → x < y → x + 2880 * Scheduling.minute ≤ y
  back : ∀ x, z.Transition x → z.offset (x - 1) - z.offset x ≤ 120

variable {z : Zone}

variable {p q t : Int}

theorem exists_transition (h : p ≤ q) (hne : z.offset p ≠ z.offset q) :
    ∃ x, p < x ∧ x ≤ q ∧ z.Transition x := by
  by_contra hno
  have hconst : ∀ n : Nat, p + n ≤ q → z.offset (p + n) = z.offset p := by
    intro n
    induction n with
    | zero => simp
    | succ n ih =>
      intro hn
      rw [← ih (by omega)]
      by_contra hx
      refine hno ⟨p + (n + 1 : Nat), by omega, hn, fun he => hx ?_⟩
      rw [← he]
      congr 1
      omega
  apply hne
  rw [← hconst (q - p).toNat (by omega)]
  congr 1
  omega

/-- Within two days the offset changes once. -/
theorem Regular.two_values (hz : z.Regular) {s : Int} (hpq : p ≤ q) (hqs : q ≤ s)
    (hs : s - p ≤ 2880 * Scheduling.minute) :
    z.offset p = z.offset q ∨ z.offset q = z.offset s := by
  by_contra hne
  rw [not_or] at hne
  obtain ⟨x, hpx, hxq, hx⟩ := exists_transition hpq hne.1
  obtain ⟨y, hqy, hys, hy⟩ := exists_transition hqs hne.2
  have := hz.apart x y hx hy (by omega)
  omega

/-- Of three instants within two days, two have the same offset. -/
theorem Regular.three_instants (hz : z.Regular) {s : Int} (hpq : |p - q| ≤ 2880 * Scheduling.minute)
    (hqs : |q - s| ≤ 2880 * Scheduling.minute) (hps : |p - s| ≤ 2880 * Scheduling.minute) :
    z.offset p = z.offset q ∨ z.offset q = z.offset s ∨ z.offset p = z.offset s := by
  rw [abs_le] at hpq hqs hps
  rcases le_total p q with h1 | h1 <;> rcases le_total q s with h2 | h2 <;>
    rcases le_total p s with h3 | h3
  · rcases hz.two_values h1 h2 (by omega) with h | h <;> simp [h]
  · rcases hz.two_values h1 h2 (by omega) with h | h <;> simp [h]
  · rcases hz.two_values h3 h2 (by omega) with h | h <;> simp [h]
  · rcases hz.two_values h3 h1 (by omega) with h | h <;> simp [h]
  · rcases hz.two_values h1 h3 (by omega) with h | h <;> simp [h]
  · rcases hz.two_values h2 h3 (by omega) with h | h <;> simp [h]
  · rcases hz.two_values h2 h1 (by omega) with h | h <;> simp [h]
  · rcases hz.two_values h2 h1 (by omega) with h | h <;> simp [h]

theorem Regular.drop_of_near (hz : z.Regular) (h : p ≤ q) (hq : q - p ≤ 2880 * Scheduling.minute) :
    z.offset p - z.offset q ≤ 120 := by
  by_cases he : z.offset p = z.offset q
  · omega
  · obtain ⟨x, hpx, hxq, hx⟩ := exists_transition h he
    have hleft := (hz.two_values (p := p) (q := x - 1) (s := x) (by omega) (by omega)
      (by omega)).resolve_right hx
    have hright := (hz.two_values (p := x - 1) (q := x) (s := q) (by omega) hxq
      (by omega)).resolve_left hx
    have := hz.back x hx
    omega

/-- An offset goes back by at most two hours in each two days. -/
theorem Regular.drop (hz : z.Regular) (h : p ≤ q) :
    z.offset p - z.offset q ≤ 120 * (1 + (q - p) / (2880 * Scheduling.minute)) := by
  have hM : Scheduling.minute = 60000000000 := rfl
  induction hk : (q - p).toNat using Nat.strong_induction_on generalizing q with
  | _ k ih =>
    by_cases hnear : q - p ≤ 2880 * Scheduling.minute
    · have := hz.drop_of_near h hnear
      have : 0 ≤ (q - p) / (2880 * Scheduling.minute) := Int.ediv_nonneg (by omega) (by omega)
      omega
    · have hprev := ih _ (by omega) (q := q - 2880 * Scheduling.minute) (by omega) rfl
      have hlast := hz.drop_of_near (p := q - 2880 * Scheduling.minute) (q := q) (by omega)
        (by omega)
      rw [hM] at hprev hlast ⊢
      omega

/-- A wall time that a whole minute repeats is that of a whole minute up to two hours before. -/
theorem Regular.repeats_near (hz : z.Regular) {u : Int} (ht : Scheduling.minute ∣ t) (hu : u < t)
    (hw : z.wall u = z.wall t) : ∃ d, 1 ≤ d ∧ d ≤ 120 ∧
      z.wall (t - Scheduling.minute * d) = z.wall t := by
  have hM : Scheduling.minute = 60000000000 := rfl
  obtain ⟨m, rfl⟩ := ht
  have hwall : u / Scheduling.minute + z.offset u = m + z.offset (Scheduling.minute * m) := by
    have := hw
    unfold wall at this
    rwa [Int.mul_ediv_cancel_left _ (by omega)] at this
  generalize hd : m - u / Scheduling.minute = d
  have hdrop : d ≤ 120 * (1 + (Scheduling.minute * m - u) / (2880 * Scheduling.minute)) := by
    have := hz.drop (p := u) (q := Scheduling.minute * m) (by omega)
    omega
  rw [hM] at hd hdrop hu hwall ⊢
  have h120 : 1 ≤ d ∧ d ≤ 120 := by omega
  -- The start of the minute of `u` has the offset of `u`: no second transition is near.
  have hstart : z.offset (60000000000 * m - 60000000000 * d) = z.offset u := by
    refine (hz.two_values (q := u) (s := 60000000000 * m) (by omega) (by omega)
      (by rw [hM]; omega)).resolve_right ?_
    omega
  refine ⟨d, h120.1, h120.2, ?_⟩
  rw [← hM] at hstart hwall hd ⊢
  unfold wall
  rw [hstart, ← mul_sub, Int.mul_ediv_cancel_left _ (by omega),
    Int.mul_ediv_cancel_left _ (by omega)]
  omega

/-- The look-back of two hours finds every earlier instant with the same wall time. -/
theorem Regular.isRepeated_iff (hz : z.Regular) (ht : Scheduling.minute ∣ t) :
    z.isRepeatedUTCOccurrence t = true ↔
      ∃ u < t, (z.localTime u).sameMinute (z.localTime t) = true := by
  have hM : Scheduling.minute = 60000000000 := rfl
  simp only [isRepeatedUTCOccurrence, List.any_eq_true, List.mem_range, localTime,
    LocalTime.sameMinute_ofMinutes]
  constructor
  · rintro ⟨k, -, hk⟩
    exact ⟨_, by rw [hM]; omega, hk⟩
  · rintro ⟨u, hu, hw⟩
    obtain ⟨d, h1, h120, hd⟩ := hz.repeats_near ht hu hw
    refine ⟨(d - 1).toNat, by omega, ?_⟩
    rw [← hd]
    congr 3
    omega

/-- `time.Date` of the wall time of a whole minute shows that wall time, if no offset exceeds a
day. -/
theorem Regular.wall_date (hz : z.Regular) (hb : ∀ t, |z.offset t| ≤ 1440)
    (ht : Scheduling.minute ∣ t) : z.wall (z.date (z.localTime t)) = z.wall t := by
  have hM : Scheduling.minute = 60000000000 := rfl
  obtain ⟨m, rfl⟩ := ht
  have hwall : z.wall (Scheduling.minute * m) = m + z.offset (Scheduling.minute * m) := by
    rw [wall, Int.mul_ediv_cancel_left _ (by omega)]
  have hdate : z.date (z.localTime (Scheduling.minute * m)) =
      Scheduling.minute * (z.wall (Scheduling.minute * m) -
        z.offset (Scheduling.minute * (z.wall (Scheduling.minute * m) -
          z.offset (Scheduling.minute * z.wall (Scheduling.minute * m))))) := by
    simp only [date, localTime, LocalTime.minutes_ofMinutes, ← mul_sub]
    split
    · next h0 => rw [h0, sub_zero, h0, sub_zero]
    · rfl
  rw [hdate, hwall]
  generalize ha : z.offset (Scheduling.minute * m) = a
  generalize h1 : z.offset (Scheduling.minute * (m + a)) = o1
  generalize h2 : z.offset (Scheduling.minute * (m + a - o1)) = o2
  rw [wall, Int.mul_ediv_cancel_left _ (by omega)]
  -- The instant, its wall time and the first guess lie within two days.
  have hba := abs_le.mp (ha ▸ hb (Scheduling.minute * m))
  have hb1 := abs_le.mp (h1 ▸ hb (Scheduling.minute * (m + a)))
  have hthree := hz.three_instants (p := Scheduling.minute * m) (q := Scheduling.minute * (m + a))
    (s := Scheduling.minute * (m + a - o1)) (by rw [abs_le, hM]; omega)
    (by rw [abs_le, hM]; omega) (by rw [abs_le, hM]; omega)
  rw [ha, h1, h2] at hthree
  have hcases : o2 = a ∨ o2 = o1 := by
    rcases hthree with h | h | h
    · left
      rw [← h2, ← h, ← ha]
      congr 2
      omega
    · exact .inr h.symm
    · exact .inl h.symm
  rcases hcases with rfl | rfl
  · rw [show m + o2 - o2 = m by omega, ha]
  · rw [h2]
    omega

theorem Regular.isValidWallTime (hz : z.Regular) (hb : ∀ t, |z.offset t| ≤ 1440)
    (ht : Scheduling.minute ∣ t) : z.isValidWallTime (z.localTime t) = true := by
  have h : z.localTime (z.date (z.localTime t)) = z.localTime t := by
    rw [localTime, hz.wall_date hb ht, localTime]
  simp [Zone.isValidWallTime, h]

end Zone

/-! ### The search -/

namespace ScheduleSpec

variable {s : ScheduleSpec}

variable {t after : Int}

theorem search_eq_some {n : Nat} {c : Int} : s.search n c = some t ↔
    ∃ k < n, t = c + minute * k ∧ s.fires t = true ∧ ∀ j < k, s.fires (c + minute * j) = false := by
  induction n generalizing c with
  | zero => simp [search]
  | succ n ih =>
    rw [search]
    constructor
    · intro h
      split at h
      · next hc =>
        cases h
        exact ⟨0, by omega, by simp, hc, by simp⟩
      · next hc =>
        obtain ⟨k, hk, rfl, hf, hj⟩ := ih.mp h
        refine ⟨k + 1, by omega, by push_cast; ring, hf, fun j hjk => ?_⟩
        cases j with
        | zero => simpa using hc
        | succ j =>
          rw [show c + minute * ((j + 1 : Nat) : Int) = c + minute + minute * j by push_cast; ring]
          exact hj j (by omega)
    · rintro ⟨k, hk, rfl, hf, hj⟩
      cases k with
      | zero => simp_all
      | succ k =>
        have hc : s.fires c = false := by simpa using hj 0 (by omega)
        rw [hc, if_neg (by simp)]
        refine ih.mpr ⟨k, by omega, by push_cast; ring, hf, fun j hjk => ?_⟩
        have := hj (j + 1) (by omega)
        rwa [show c + minute * ((j + 1 : Nat) : Int) = c + minute + minute * j by
          push_cast; ring] at this

theorem search_eq_none {n : Nat} {c : Int} : s.search n c = none ↔
    ∀ k < n, s.fires (c + minute * (k : Nat)) = false := by
  induction n generalizing c with
  | zero => simp [search]
  | succ n ih =>
    rw [search]
    split
    · next hc =>
      simp only [reduceCtorEq, false_iff, not_forall]
      exact ⟨0, by omega, by simp [hc]⟩
    · next hc =>
      rw [ih]
      constructor
      · intro h k hk
        cases k with
        | zero => simpa using hc
        | succ k =>
          rw [show c + minute * ((k + 1 : Nat) : Int) = c + minute + minute * k by push_cast; ring]
          exact h k (by omega)
      · intro h k hk
        have := h (k + 1) (by omega)
        rwa [show c + minute * ((k + 1 : Nat) : Int) = c + minute + minute * k by
          push_cast; ring] at this

/-- The whole minutes after an instant up to the limit are the rounds of the search. -/
theorem mem_rounds (ht : minute ∣ t) (h : after < t) (hl : t ≤ searchLimit after) :
    ∃ k < ((searchLimit after - nextMinute after) / minute + 1).toNat,
      t = nextMinute after + minute * (k : Nat) := by
  have hM : minute = 60000000000 := rfl
  obtain ⟨m, rfl⟩ := ht
  unfold nextMinute at *
  refine ⟨(m - (after / minute + 1)).toNat, ?_, ?_⟩
  · generalize searchLimit after = l at hl ⊢
    rw [hM] at hl h ⊢
    omega
  · rw [hM] at h ⊢
    omega

theorem nextMinute_spec (after : Int) : after < nextMinute after ∧ minute ∣ nextMinute after := by
  refine ⟨?_, dvd_mul_right _ _⟩
  unfold nextMinute minute
  omega

theorem round_spec (after : Int) {k : Nat}
    (hk : k < ((searchLimit after - nextMinute after) / minute + 1).toNat) :
    after < nextMinute after + minute * k ∧ minute ∣ nextMinute after + minute * (k : Int) ∧
      nextMinute after + minute * k ≤ searchLimit after := by
  obtain ⟨hafter, hdvd⟩ := nextMinute_spec after
  have hM : minute = 60000000000 := rfl
  refine ⟨by rw [hM] at *; omega, dvd_add hdvd (dvd_mul_right _ _), ?_⟩
  rw [hM] at hk ⊢
  omega

theorem nextOccurrence_eq_some : s.nextOccurrence after = some t ↔
    IsLeast {t | after < t ∧ minute ∣ t ∧ s.fires t = true} t ∧ t ≤ searchLimit after := by
  have hM : minute = 60000000000 := rfl
  rw [nextOccurrence, search_eq_some]
  constructor
  · rintro ⟨k, hk, rfl, hf, hj⟩
    obtain ⟨h1, h2, h3⟩ := round_spec after hk
    refine ⟨⟨⟨h1, h2, hf⟩, fun u ⟨hu, hdvd, hfu⟩ => ?_⟩, h3⟩
    by_contra hlt
    obtain ⟨j, -, rfl⟩ := mem_rounds hdvd hu (by omega)
    rw [hj j (by rw [hM] at hlt; omega)] at hfu
    cases hfu
  · rintro ⟨⟨⟨h1, h2, hf⟩, hleast⟩, h3⟩
    obtain ⟨k, hk, rfl⟩ := mem_rounds h2 h1 h3
    refine ⟨k, hk, rfl, hf, fun j hj => ?_⟩
    by_contra hfj
    have hround := round_spec after (k := j) (by omega)
    have := hleast ⟨hround.1, hround.2.1, by simpa using hfj⟩
    rw [hM] at this
    omega

theorem nextOccurrence_eq_none : s.nextOccurrence after = none ↔
    ∀ t, after < t → minute ∣ t → s.fires t = true → searchLimit after < t := by
  rw [nextOccurrence, search_eq_none]
  constructor
  · intro h t hafter hdvd hf
    by_contra hle
    obtain ⟨k, hk, rfl⟩ := mem_rounds hdvd hafter (by omega)
    rw [h k hk] at hf
    cases hf
  · intro h k hk
    obtain ⟨h1, h2, h3⟩ := round_spec after hk
    by_contra hf
    have := h _ h1 h2 (by simpa using hf)
    omega

/-- A slot of the schedule: a whole minute whose wall time matches, and whose date, hour and
minute no earlier instant has shown. -/
def Slot (s : ScheduleSpec) (t : Int) : Prop :=
  minute ∣ t ∧ s.matchesLocal (s.location.localTime t) = true ∧
    ∀ u < t, (s.location.localTime u).sameMinute (s.location.localTime t) = false

theorem fires_iff_slot (hz : s.location.Regular) (hb : ∀ t, |s.location.offset t| ≤ 1440)
    (ht : minute ∣ t) : s.fires t = true ↔ s.Slot t := by
  have hrep := hz.isRepeated_iff ht
  have hvalid := hz.isValidWallTime hb ht
  unfold fires Slot
  simp only [hvalid, Bool.not_true, Bool.false_eq_true, if_false]
  constructor
  · intro h
    split at h
    · next hm =>
      refine ⟨ht, hm, fun u hu => ?_⟩
      by_contra hsame
      rw [hrep.mpr ⟨u, hu, by simpa using hsame⟩] at h
      cases h
    · cases h
  · rintro ⟨-, hm, hno⟩
    have hfalse : s.location.isRepeatedUTCOccurrence t = false := by
      by_contra h
      obtain ⟨u, hu, hsame⟩ := hrep.mp (by simpa using h)
      rw [hno u hu] at hsame
      cases hsame
    simp [hm, hfalse]

end ScheduleSpec

/-- In a regular zone whose offset is at most a day, `NextOccurrence` returns the first slot after
an instant, and fails if and only if there is none up to its limit. -/
theorem nextOccurrence_least (s : ScheduleSpec) (hz : s.location.Regular)
    (hb : ∀ t, |s.location.offset t| ≤ 1440) (after : Int) :
    (∀ t, s.nextOccurrence after = some t → IsLeast {t | after < t ∧ s.Slot t} t) ∧
    (s.nextOccurrence after = none ↔ ∀ t, after < t → s.Slot t → searchLimit after < t) := by
  constructor
  · intro t ht
    obtain ⟨⟨⟨hafter, hdvd, hf⟩, hleast⟩, -⟩ := ScheduleSpec.nextOccurrence_eq_some.mp ht
    refine ⟨⟨hafter, (ScheduleSpec.fires_iff_slot hz hb hdvd).mp hf⟩, fun u ⟨hu, hslot⟩ => ?_⟩
    exact hleast ⟨hu, hslot.1, (ScheduleSpec.fires_iff_slot hz hb hslot.1).mpr hslot⟩
  · rw [ScheduleSpec.nextOccurrence_eq_none]
    constructor
    · intro h t hafter hslot
      exact h t hafter hslot.1 ((ScheduleSpec.fires_iff_slot hz hb hslot.1).mpr hslot)
    · intro h t hafter hdvd hf
      exact h t hafter ((ScheduleSpec.fires_iff_slot hz hb hdvd).mp hf)

namespace Sample

/-- New York in 2026: daylight saving time from 8 March, 07:00 UTC, to 1 November, 06:00 UTC. -/
def newYork : Zone where
  offset t := if t < 1772953200000000000 then -300 else if t < 1793512800000000000 then -240 else -300

theorem newYork_transition {x : Int} (h : newYork.Transition x) :
    x = 1772953200000000000 ∨ x = 1793512800000000000 := by
  unfold Zone.Transition newYork at h
  simp only at h
  split_ifs at h <;> omega

theorem newYork_regular : newYork.Regular where
  apart x y hx hy hxy := by
    have hM : minute = 60000000000 := rfl
    have := newYork_transition hx
    have := newYork_transition hy
    omega
  back x hx := by
    obtain rfl | rfl := newYork_transition hx <;> decide

theorem newYork_day (t : Int) : |newYork.offset t| ≤ 1440 := by
  unfold newYork
  simp only
  split_ifs <;> decide

def daily (location : Zone) (minutes hours : FieldMatcher) : ScheduleSpec :=
  { location, minutes, hours, days := (Finset.range 32).image Int.ofNat
    months := (Finset.range 13).image Int.ofNat, weekdays := (Finset.range 7).image Int.ofNat
    domStar := true, dowStar := true }

def halfPastOne (location : Zone) : ScheduleSpec := daily location {30} {1}

def everyMinute (location : Zone) : ScheduleSpec :=
  daily location ((Finset.range 60).image Int.ofNat) ((Finset.range 24).image Int.ofNat)

/-- Three days ahead of UTC; the offset grows by an hour and shrinks by two, two days apart. -/
def farAhead : Zone where
  offset t := if t < 1800000000000 then 4320 else if t < 174600000000000 then 4380 else 4260

theorem farAhead_transition {x : Int} (h : farAhead.Transition x) :
    x = 1800000000000 ∨ x = 174600000000000 := by
  unfold Zone.Transition farAhead at h
  simp only at h
  split_ifs at h <;> omega

theorem farAhead_regular : farAhead.Regular where
  apart x y hx hy hxy := by
    have hM : minute = 60000000000 := rfl
    have := farAhead_transition hx
    have := farAhead_transition hy
    omega
  back x hx := by
    obtain rfl | rfl := farAhead_transition hx <;> decide

end Sample

/-- On the night that the clocks go back in New York, 01:30 comes a second time an hour later;
from the first one on, the next occurrence is that of the next night. -/
theorem nextOccurrence_least_newYork :
    IsLeast {t | 1793511000000000000 < t ∧ (Sample.halfPastOne Sample.newYork).Slot t}
      1793601000000000000 :=
  (nextOccurrence_least (Sample.halfPastOne Sample.newYork) Sample.newYork_regular
    Sample.newYork_day 1793511000000000000).1 _ (by decide +kernel)

/-- With an offset of three days `time.Date` gives another wall time back, and the slot at the
start of 1970 is passed over. -/
theorem distant_offset_skips : Sample.farAhead.Regular ∧ (Sample.everyMinute Sample.farAhead).Slot 0 ∧
    (Sample.everyMinute Sample.farAhead).nextOccurrence (-1) = some (30 * minute) := by
  refine ⟨Sample.farAhead_regular, ⟨dvd_zero _, by decide +kernel, fun u hu => ?_⟩,
    by decide +kernel⟩
  by_contra h
  have hrep := (Sample.farAhead_regular.isRepeated_iff (dvd_zero _)).mpr
    ⟨u, hu, (Bool.not_eq_false _).mp h⟩
  have hnone : Sample.farAhead.isRepeatedUTCOccurrence 0 = false := by decide +kernel
  rw [hnone] at hrep
  cases hrep

end Deadbolt.Scheduling

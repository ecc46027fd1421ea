import Mathlib

/-!
# The Gregorian calendar

Days are counted from 1 January 1970. A date is read off a day by cutting off cycles of four
hundred, one hundred and four years, in years that begin in March, so that the leap day is the last
day of a cycle.
-/

namespace Deadbolt.Base

structure Date where
  year : Int
  month : Int
  day : Int
  deriving DecidableEq

namespace Date

/-- The days before a year that begins in March. -/
def yearStart (y : Int) : Int := 365 * y + y / 4 - y / 100 + y / 400

/-- The days before a month of such a year; March is month 0. -/
def monthStart (m : Int) : Int := (153 * m + 2) / 5

def days (d : Date) : Int :=
  if d.month ≤ 2 then yearStart (d.year - 1) + monthStart (d.month + 9) + d.day - 719469
  else yearStart d.year + monthStart (d.month - 3) + d.day - 719469

/-- The whole parts of `n` days, of which the last of four takes one day more. -/
def parts (n d : Int) : Int := d / n - d / n / 4

/-- The March year of a day and the day in it. -/
def yearAndDay (d : Int) : Int × Int :=
  let era := d / 146097
  let d := d - 146097 * era
  let century := parts 36524 d
  let d := d - 36524 * century
  let quad := d / 1461
  let d := d - 1461 * quad
  let year := parts 365 d
  (400 * era + 100 * century + 4 * quad + year, d - 365 * year)

/-- The date of a day of a March year. -/
def ofYearAndDay (y d : Int) : Date :=
  let m := (5 * d + 2) / 153
  if m < 10 then ⟨y, m + 3, d - monthStart m + 1⟩ else ⟨y + 1, m - 9, d - monthStart m + 1⟩

def ofDays (n : Int) : Date :=
  let p := yearAndDay (n + 719468)
  ofYearAndDay p.1 p.2

theorem yearStart_cycles {e c q y : Int} (hc : 0 ≤ c ∧ c ≤ 3) (hq : 0 ≤ q ∧ q ≤ 24)
    (hy : 0 ≤ y ∧ y ≤ 3) : yearStart (400 * e + 100 * c + 4 * q + y) =
      146097 * e + 36524 * c + 1461 * q + 365 * y := by
  have h4 : (400 * e + 100 * c + 4 * q + y) / 4 = 100 * e + 25 * c + q := by omega
  have h100 : (400 * e + 100 * c + 4 * q + y) / 100 = 4 * e + c := by omega
  have h400 : (400 * e + 100 * c + 4 * q + y) / 400 = e := by omega
  rw [yearStart, h4, h100, h400]
  omega

theorem yearAndDay_spec (d : Int) : yearStart (yearAndDay d).1 + (yearAndDay d).2 = d ∧
    0 ≤ (yearAndDay d).2 ∧ (yearAndDay d).2 ≤ 365 := by
  simp only [yearAndDay]
  generalize he : d / 146097 = e
  generalize hd1 : d - 146097 * e = d1
  generalize hc : parts 36524 d1 = c
  generalize hd2 : d1 - 36524 * c = d2
  generalize hq : d2 / 1461 = q
  generalize hd3 : d2 - 1461 * q = d3
  generalize hy : parts 365 d3 = y
  unfold parts at hc hy
  have hc' : 0 ≤ c ∧ c ≤ 3 ∧ 0 ≤ d2 ∧ d2 ≤ 36524 := by omega
  have hq' : 0 ≤ q ∧ q ≤ 24 ∧ 0 ≤ d3 ∧ d3 ≤ 1460 := by omega
  have hy' : 0 ≤ y ∧ y ≤ 3 := by omega
  rw [yearStart_cycles ⟨hc'.1, hc'.2.1⟩ ⟨hq'.1, hq'.2.1⟩ hy']
  omega

theorem days_ofYearAndDay {y d : Int} (h0 : 0 ≤ d) (h1 : d ≤ 365) :
    (ofYearAndDay y d).days = yearStart y + d - 719468 := by
  have hm : 0 ≤ (5 * d + 2) / 153 ∧ (5 * d + 2) / 153 ≤ 11 := by omega
  unfold ofYearAndDay days
  generalize (5 * d + 2) / 153 = m at hm
  by_cases h : m < 10
  · simp only [h, if_true]
    rw [if_neg (by omega), show m + 3 - 3 = m by omega]
    omega
  · simp only [h, if_false]
    rw [if_pos (by omega), show m - 9 + 9 = m by omega, show y + 1 - 1 = y by omega]
    omega

@[simp] theorem days_ofDays (n : Int) : (ofDays n).days = n := by
  obtain ⟨hs, h0, h1⟩ := yearAndDay_spec (n + 719468)
  unfold ofDays
  rw [days_ofYearAndDay h0 h1]
  omega

example : ofDays 11016 = ⟨2000, 2, 29⟩ := by decide

end Date
end Deadbolt.Base

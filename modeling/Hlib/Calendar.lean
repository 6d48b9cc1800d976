import Mathlib.Algebra.Order.Ring.Int
import Mathlib.Tactic.Common

namespace Calendar

/-- A date of the proleptic Gregorian calendar; months and days count from 1. -/
structure Date where
  year : Int
  month : Int
  day : Int
  deriving DecidableEq, Repr

/-- The days before 1 March of a year, from 1 March of the year 0. -/
def daysBeforeYear (year : Int) : Int := 365 * year + year / 4 - year / 100 + year / 400

/-- The days before a month, from 1 March; March is month 0. -/
def daysBeforeMonth (month : Int) : Int := (153 * month + 2) / 5

/-- The days from 1 January 1970. -/
def daysFromCivil (date : Date) : Int :=
  let year := if date.month ≤ 2 then date.year - 1 else date.year
  let month := if date.month ≤ 2 then date.month + 9 else date.month - 3
  daysBeforeYear year + daysBeforeMonth month + date.day - 1 - 719468

/-- The year that begins on 1 March and holds a day, and how far into that year the day is. -/
def yearOfDay (day : Int) : Int × Int :=
  let inEra := day % 146097
  -- The last century of an era, and the last year of a leap period, is a day longer than the others.
  let century := min (inEra / 36524) 3
  let inCentury := inEra - 36524 * century
  let inPeriod := inCentury % 1461
  let year := min (inPeriod / 365) 3
  (400 * (day / 146097) + 100 * century + 4 * (inCentury / 1461) + year, inPeriod - 365 * year)

def civilFromDays (days : Int) : Date :=
  let (year, inYear) := yearOfDay (days + 719468)
  let month := (5 * inYear + 2) / 153
  let day := inYear - daysBeforeMonth month + 1
  if month < 10 then ⟨year, month + 3, day⟩ else ⟨year + 1, month - 9, day⟩

theorem daysBeforeYear_parts {era century period year : Int} (hc : 0 ≤ century ∧ century ≤ 3)
    (hp : 0 ≤ period ∧ period ≤ 24) (hy : 0 ≤ year ∧ year ≤ 3) :
    daysBeforeYear (400 * era + 100 * century + 4 * period + year) =
      146097 * era + 36524 * century + 1461 * period + 365 * year := by
  have fourth : (400 * era + 100 * century + 4 * period + year) / 4 =
      100 * era + 25 * century + period := by omega
  have hundredth : (400 * era + 100 * century + 4 * period + year) / 100 = 4 * era + century := by omega
  have fourHundredth : (400 * era + 100 * century + 4 * period + year) / 400 = era := by omega
  rw [daysBeforeYear, fourth, hundredth, fourHundredth]
  omega

theorem yearOfDay_spec (day : Int) :
    daysBeforeYear (yearOfDay day).1 + (yearOfDay day).2 = day ∧
      0 ≤ (yearOfDay day).2 ∧ (yearOfDay day).2 ≤ 365 := by
  simp only [yearOfDay]
  generalize hera : day / 146097 = era
  generalize hin : day % 146097 = inEra
  have split : day = 146097 * era + inEra := by omega
  have era_bounds : 0 ≤ inEra ∧ inEra < 146097 := by omega
  generalize hcentury : min (inEra / 36524) 3 = century
  have century_bounds : 0 ≤ century ∧ century ≤ 3 ∧ 36524 * century ≤ inEra ∧
      inEra ≤ 36524 * century + 36524 := by omega
  generalize hrest : inEra - 36524 * century = inCentury
  generalize hperiod : inCentury / 1461 = period
  generalize hinPeriod : inCentury % 1461 = inPeriod
  have period_bounds : 0 ≤ period ∧ period ≤ 24 ∧ 0 ≤ inPeriod ∧ inPeriod < 1461 := by omega
  generalize hyear : min (inPeriod / 365) 3 = year
  have year_bounds : 0 ≤ year ∧ year ≤ 3 ∧ 365 * year ≤ inPeriod ∧ inPeriod ≤ 365 * year + 365 := by
    omega
  have parts : daysBeforeYear (400 * era + 100 * century + 4 * period + year) = _ :=
    daysBeforeYear_parts ⟨century_bounds.1, century_bounds.2.1⟩
      ⟨period_bounds.1, period_bounds.2.1⟩ ⟨year_bounds.1, year_bounds.2.1⟩
  refine ⟨?_, ?_, ?_⟩
  · rw [parts]
    omega
  · show 0 ≤ inPeriod - 365 * year
    omega
  · show inPeriod - 365 * year ≤ 365
    omega

theorem month_bounds {inYear month : Int} (h : 0 ≤ inYear ∧ inYear ≤ 365)
    (hm : (5 * inYear + 2) / 153 = month) :
    0 ≤ month ∧ month ≤ 11 ∧ 1 ≤ inYear - daysBeforeMonth month + 1 ∧
      inYear - daysBeforeMonth month + 1 ≤ 31 := by
  unfold daysBeforeMonth
  omega

theorem civilFromDays_month (days : Int) :
    1 ≤ (civilFromDays days).month ∧ (civilFromDays days).month ≤ 12 := by
  have spec := (yearOfDay_spec (days + 719468)).2
  have bounds := month_bounds spec rfl
  unfold civilFromDays
  simp only
  split
  · show 1 ≤ _ + 3 ∧ _ + 3 ≤ (12 : Int)
    omega
  · show 1 ≤ _ - 9 ∧ _ - 9 ≤ (12 : Int)
    omega

theorem civilFromDays_day (days : Int) :
    1 ≤ (civilFromDays days).day ∧ (civilFromDays days).day ≤ 31 := by
  have spec := (yearOfDay_spec (days + 719468)).2
  have bounds := month_bounds spec rfl
  unfold civilFromDays
  simp only
  split
  · exact bounds.2.2
  · exact bounds.2.2

theorem daysFromCivil_civilFromDays (days : Int) : daysFromCivil (civilFromDays days) = days := by
  obtain ⟨total, inside⟩ := yearOfDay_spec (days + 719468)
  have bounds := month_bounds inside rfl
  unfold civilFromDays
  simp only
  split
  next early =>
    unfold daysFromCivil
    simp only
    rw [if_neg (by omega), if_neg (by omega), Int.add_sub_cancel]
    omega
  next late =>
    unfold daysFromCivil
    simp only
    rw [if_pos (by omega), if_pos (by omega), Int.add_sub_cancel, Int.sub_add_cancel]
    omega

/-- Years go up with days. -/
theorem daysBeforeYear_le {year bound : Int} (h : year ≤ bound) :
    daysBeforeYear year ≤ daysBeforeYear bound := by
  unfold daysBeforeYear
  omega

theorem civilFromDays_year {days : Int} (h : 0 ≤ days) : 1970 ≤ (civilFromDays days).year := by
  obtain ⟨total, inside⟩ := yearOfDay_spec (days + 719468)
  have bounds := month_bounds inside rfl
  have late : 1969 ≤ (yearOfDay (days + 719468)).1 := by
    by_contra early
    have before : daysBeforeYear (yearOfDay (days + 719468)).1 ≤ daysBeforeYear 1968 :=
      daysBeforeYear_le (by omega)
    have value : daysBeforeYear 1968 = 718797 := by decide
    omega
  unfold civilFromDays
  simp only
  split
  next early =>
    show 1970 ≤ (yearOfDay (days + 719468)).1
    by_contra same
    have year : (yearOfDay (days + 719468)).1 = 1969 := by omega
    have value : daysBeforeYear 1969 = 719162 := by decide
    rw [year, value] at total
    omega
  next =>
    show 1970 ≤ (yearOfDay (days + 719468)).1 + 1
    omega

end Calendar

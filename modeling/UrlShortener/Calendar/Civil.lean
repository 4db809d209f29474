import Mathlib.Tactic.Common

/-!
# Civil dates

The proleptic Gregorian calendar: the number of days from 1970-01-01 to a date, and the date of a
day. Years start in March, so that the leap day is the last day of a year.

* `daysFromCivil_bounds`: dates of the years 0 to 9999 are within three million days of the epoch.
* `civilFromDays_month`, `civilFromDays_day`: the date of a day has a month and a day in range.
* `civilFromDays_year`: days within 292 years of the epoch fall in years of four digits.
-/

namespace UrlShortener.Calendar

/-- A year, a month from 1 to 12 and a day of the month from 1. -/
structure Date where
  year : Int
  month : Int
  day : Int
  deriving DecidableEq, Repr

/-- **The day number of a date.** A day past the end of its month runs into the next month. -/
def daysFromCivil (d : Date) : Int :=
  let y := if d.month ≤ 2 then d.year - 1 else d.year
  let yoe := y % 400
  let doy := (153 * ((d.month + 9) % 12) + 2) / 5 + (d.day - 1)
  y / 400 * 146097 + (yoe * 365 + yoe / 4 - yoe / 100 + doy) - 719468

/-- The day of the year (from 1 March) and the year of a day, counted from 2000-03-01. The last
century of 400 years, the last four years of a century and the last year of four are a day longer,
so the quotients are capped. -/
def yearDay (days : Int) : Int × Int :=
  let r := days % 146097
  let c := min (r / 36524) 3
  let r₁ := r - c * 36524
  let q := min (r₁ / 1461) 24
  let r₂ := r₁ - q * 1461
  let y := min (r₂ / 365) 3
  (2000 + days / 146097 * 400 + c * 100 + q * 4 + y, r₂ - y * 365)

/-- **The date of a day number.** -/
def civilFromDays (days : Int) : Date :=
  let (y, doy) := yearDay (days - 11017)
  let mp := (5 * doy + 2) / 153
  { year := if mp < 10 then y else y + 1
    month := if mp < 10 then mp + 3 else mp - 9
    day := doy - (153 * mp + 2) / 5 + 1 }

theorem daysFromCivil_bounds {d : Date} (hy0 : 0 ≤ d.year) (hy1 : d.year ≤ 9999)
    (hd0 : 0 ≤ d.day) (hd1 : d.day ≤ 31) : -3000000 ≤ daysFromCivil d ∧ daysFromCivil d ≤ 3000000 := by
  unfold daysFromCivil
  simp only
  split <;> omega

theorem yearDay_doy (days : Int) : 0 ≤ (yearDay days).2 ∧ (yearDay days).2 ≤ 365 := by
  unfold yearDay
  simp only
  have hr : 0 ≤ days % 146097 ∧ days % 146097 < 146097 := by omega
  set r := days % 146097
  -- one bound for each of the three divisions
  have h1 : 0 ≤ r - min (r / 36524) 3 * 36524 ∧ r - min (r / 36524) 3 * 36524 ≤ 36524 := by omega
  set r₁ := r - min (r / 36524) 3 * 36524
  have h2 : 0 ≤ r₁ - min (r₁ / 1461) 24 * 1461 ∧ r₁ - min (r₁ / 1461) 24 * 1461 ≤ 1460 := by omega
  set r₂ := r₁ - min (r₁ / 1461) 24 * 1461
  omega

theorem civilFromDays_month (days : Int) :
    1 ≤ (civilFromDays days).month ∧ (civilFromDays days).month ≤ 12 := by
  have h := yearDay_doy (days - 11017)
  unfold civilFromDays
  simp only
  split <;> omega

theorem civilFromDays_day (days : Int) : 1 ≤ (civilFromDays days).day ∧ (civilFromDays days).day ≤ 31 := by
  have h := yearDay_doy (days - 11017)
  unfold civilFromDays
  simp only
  omega

theorem yearDay_year {days : Int} (h0 : -118000 ≤ days) (h1 : days ≤ 96000) :
    1676 ≤ (yearDay days).1 ∧ (yearDay days).1 ≤ 2263 := by
  unfold yearDay
  simp only
  have hr : 0 ≤ days % 146097 ∧ days % 146097 < 146097 := by omega
  have hq : days = days / 146097 * 146097 + days % 146097 := by omega
  set r := days % 146097
  have h1 : 0 ≤ r - min (r / 36524) 3 * 36524 ∧ r - min (r / 36524) 3 * 36524 ≤ 36524 := by omega
  set c := min (r / 36524) 3
  set r₁ := r - c * 36524 with hr₁
  have h2 : 0 ≤ r₁ - min (r₁ / 1461) 24 * 1461 ∧ r₁ - min (r₁ / 1461) 24 * 1461 ≤ 1460 := by omega
  set q := min (r₁ / 1461) 24
  set r₂ := r₁ - q * 1461 with hr₂
  have h3 : 0 ≤ min (r₂ / 365) 3 ∧ r₂ - min (r₂ / 365) 3 * 365 ≤ 365 ∧
      0 ≤ r₂ - min (r₂ / 365) 3 * 365 := by omega
  set y := min (r₂ / 365) 3
  omega

/-- Days within 64 bits of nanoseconds fall in years of four digits. -/
theorem civilFromDays_year {days : Int} (h0 : -106753 ≤ days) (h1 : days ≤ 106752) :
    1000 ≤ (civilFromDays days).year ∧ (civilFromDays days).year ≤ 9999 := by
  have h : 1676 ≤ (yearDay (days - 11017)).1 ∧ (yearDay (days - 11017)).1 ≤ 2263 :=
    yearDay_year (by omega) (by omega)
  unfold civilFromDays
  simp only
  split <;> omega

end UrlShortener.Calendar

import UrlShortener.Calendar.Civil

/-!
# Months and leap years

Which dates there are: those of a month from 1 to 12 and of a day that this month has in this year.

* `Position`: a day by its cycle of 400 years, its century, its group of four years, its year and its day of the year.
  Each day has one, and both conversions go through it.
* `civilFromDays_day_le`: no day falls past the end of its month.
* `civilFromDays_daysFromCivil`: **a date that there is survives the way to its day number and back.**
* `exists_day_iff`: the dates of days are those.
-/

namespace UrlShortener.Calendar

/-- The years with a 29 February. -/
def IsLeap (year : Int) : Prop := year % 4 = 0 ∧ (year % 100 ≠ 0 ∨ year % 400 = 0)

instance (year : Int) : Decidable (IsLeap year) := inferInstanceAs (Decidable (_ ∧ _))

/-- The number of days of a month. -/
def monthDays (year month : Int) : Int :=
  if month = 2 then if IsLeap year then 29 else 28
  else if month = 4 ∨ month = 6 ∨ month = 9 ∨ month = 11 then 30
  else 31

/-- **A day within the calendar that starts on 2000-03-01.** Of the years that start in March, one has a last day more
if it is the last of its group, and the group is not the last of its century unless that is the last of the cycle. -/
structure Position where
  cycle : Int
  century : Int
  group : Int
  year : Int
  doy : Int
  hcentury : 0 ≤ century ∧ century ≤ 3
  hgroup : 0 ≤ group ∧ group ≤ 24
  hyear : 0 ≤ year ∧ year ≤ 3
  hdoy : 0 ≤ doy ∧ doy ≤ 365
  hleap : doy = 365 → year = 3 ∧ (group = 24 → century = 3)

namespace Position

variable (p : Position)

/-- The number of days since 2000-03-01. -/
def days : Int := p.cycle * 146097 + p.century * 36524 + p.group * 1461 + p.year * 365 + p.doy

/-- The year in which the March of the position lies. -/
def marchYear : Int := 2000 + p.cycle * 400 + p.century * 100 + p.group * 4 + p.year

theorem yearDay_days : yearDay p.days = (p.marchYear, p.doy) := by
  obtain ⟨e, c, q, y, doy, hc, hq, hy, hdoy, hleap⟩ := p
  have hquot : (e * 146097 + c * 36524 + q * 1461 + y * 365 + doy) / 146097 = e := by omega
  have hrem : (e * 146097 + c * 36524 + q * 1461 + y * 365 + doy) % 146097 = c * 36524 + q * 1461 + y * 365 + doy := by
    omega
  have hcentury : min ((c * 36524 + q * 1461 + y * 365 + doy) / 36524) 3 = c := by omega
  have hr₁ : c * 36524 + q * 1461 + y * 365 + doy - c * 36524 = q * 1461 + y * 365 + doy := by omega
  have hgroup : min ((q * 1461 + y * 365 + doy) / 1461) 24 = q := by omega
  have hr₂ : q * 1461 + y * 365 + doy - q * 1461 = y * 365 + doy := by omega
  have hyear : min ((y * 365 + doy) / 365) 3 = y := by omega
  have hr₃ : y * 365 + doy - y * 365 = doy := by omega
  simp only [yearDay, days, marchYear, hquot, hrem, hcentury, hr₁, hgroup, hr₂, hyear, hr₃]

/-- The last day is that of a leap year. -/
theorem isLeap (h : p.doy = 365) : IsLeap (p.marchYear + 1) := by
  obtain ⟨e, c, q, y, doy, hc, hq, hy, hdoy, hleap⟩ := p
  obtain ⟨rfl, hlast⟩ := hleap h
  unfold IsLeap marchYear
  simp only
  omega

end Position

/-- **Every day has a position.** -/
theorem exists_position (n : Int) : ∃ p : Position, p.days = n := by
  have hr : 0 ≤ n % 146097 ∧ n % 146097 < 146097 := by omega
  have hn : n = n / 146097 * 146097 + n % 146097 := by omega
  generalize n / 146097 = e at hn
  generalize n % 146097 = r at hn hr
  subst hn
  -- centuries, cycles of four years and years: the last of each may be a day longer, hence the minima
  obtain ⟨c, r₁, hr₁, hc, hb₁⟩ : ∃ c r₁, r = c * 36524 + r₁ ∧ (0 ≤ c ∧ c ≤ 3) ∧
      0 ≤ r₁ ∧ r₁ ≤ 36524 ∧ (r₁ = 36524 → c = 3) :=
    ⟨min (r / 36524) 3, r - min (r / 36524) 3 * 36524, by omega, by omega, by omega, by omega, by omega⟩
  obtain ⟨q, r₂, hr₂, hq, hb₂⟩ : ∃ q r₂, r₁ = q * 1461 + r₂ ∧ (0 ≤ q ∧ q ≤ 24) ∧ 0 ≤ r₂ ∧ r₂ ≤ 1460 :=
    ⟨min (r₁ / 1461) 24, r₁ - min (r₁ / 1461) 24 * 1461, by omega, by omega, by omega, by omega⟩
  obtain ⟨y, doy, hr₃, hy, hdoy⟩ : ∃ y doy, r₂ = y * 365 + doy ∧ (0 ≤ y ∧ y ≤ 3) ∧
      (0 ≤ doy ∧ doy ≤ 365) ∧ (doy = 365 → y = 3) :=
    ⟨min (r₂ / 365) 3, r₂ - min (r₂ / 365) 3 * 365, by omega, by omega, by omega, by omega⟩
  refine ⟨⟨e, c, q, y, doy, hc, hq, hy, hdoy.1, fun h => ⟨hdoy.2 h, ?_⟩⟩, ?_⟩
  · intro hlast
    have := hdoy.2 h
    omega
  · simp only [Position.days]
    omega

/-- **No day falls past the end of its month.** -/
theorem civilFromDays_day_le (n : Int) :
    (civilFromDays n).day ≤ monthDays (civilFromDays n).year (civilFromDays n).month := by
  obtain ⟨p, hp⟩ := exists_position (n - 11017)
  have hdoy := p.hdoy
  have hleap := p.isLeap
  unfold civilFromDays
  rw [← hp, p.yearDay_days]
  simp only
  generalize p.doy = doy at hdoy hleap ⊢
  generalize p.marchYear = y at hleap ⊢
  unfold monthDays
  split
  · -- from March to December
    split
    · omega
    · split <;> omega
  · -- February ends the year, January has the days that are left
    by_cases hfeb : (5 * doy + 2) / 153 - 9 = 2
    · rw [if_pos hfeb]
      split
      · omega
      · rename_i hnot
        have hshort : doy ≠ 365 := fun h => hnot (hleap h)
        omega
    · rw [if_neg hfeb]
      split <;> omega

theorem exists_position_of_year {y doy : Int} (hdoy : 0 ≤ doy ∧ doy ≤ 365) (hleap : doy = 365 → IsLeap (y + 1)) :
    ∃ p : Position, p.marchYear = y ∧ p.doy = doy := by
  refine ⟨⟨y / 400 - 5, y % 400 / 100, y % 100 / 4, y % 4, doy, by omega, by omega, by omega, hdoy, fun h => ?_⟩,
    ?_, rfl⟩
  · obtain ⟨hfour, hcentury⟩ := hleap h
    omega
  · simp only [Position.marchYear]
    omega

/-- The day number is that of the position. -/
theorem Position.daysFromCivil_eq (p : Position) {d : Date}
    (hyear : p.marchYear = if d.month ≤ 2 then d.year - 1 else d.year)
    (hdoy : p.doy = (153 * ((d.month + 9) % 12) + 2) / 5 + (d.day - 1)) : daysFromCivil d = p.days + 11017 := by
  have hc := p.hcentury
  have hg := p.hgroup
  have hy := p.hyear
  unfold daysFromCivil
  simp only [← hyear, ← hdoy]
  unfold marchYear days
  omega

/-- **A date that there is survives the way to its day number and back.** -/
theorem civilFromDays_daysFromCivil {d : Date} (hmonth : 1 ≤ d.month ∧ d.month ≤ 12)
    (hday : 1 ≤ d.day ∧ d.day ≤ monthDays d.year d.month) : civilFromDays (daysFromCivil d) = d := by
  have hlen : d.day ≤ 31 ∧ ((d.month = 4 ∨ d.month = 6 ∨ d.month = 9 ∨ d.month = 11) → d.day ≤ 30) ∧
      (d.month = 2 → d.day ≤ 29 ∧ (d.day = 29 → IsLeap d.year)) := by
    unfold monthDays at hday
    split at hday
    · split at hday
      · rename_i hleap
        exact ⟨by omega, by omega, fun _ => ⟨by omega, fun _ => hleap⟩⟩
      · exact ⟨by omega, by omega, fun _ => ⟨by omega, by omega⟩⟩
    · split at hday <;> exact ⟨by omega, by omega, by omega⟩
  obtain ⟨hshort, hthirty, hfeb⟩ := hlen
  -- the position of the date, in the year that starts in March
  obtain ⟨p, hyear, hdoy⟩ : ∃ p : Position, p.marchYear = (if d.month ≤ 2 then d.year - 1 else d.year) ∧
      p.doy = (153 * ((d.month + 9) % 12) + 2) / 5 + (d.day - 1) := by
    refine exists_position_of_year (by omega) fun hlast => ?_
    have htwo : d.month = 2 := by omega
    rw [if_pos (by omega), Int.sub_add_cancel]
    exact (hfeb htwo).2 (by omega)
  rw [p.daysFromCivil_eq hyear hdoy, civilFromDays, Int.add_sub_cancel, p.yearDay_days]
  have hmp : (5 * p.doy + 2) / 153 = (d.month + 9) % 12 := by
    have hmonths : d.month = 1 ∨ d.month = 2 ∨ d.month = 3 ∨ d.month = 4 ∨ d.month = 5 ∨ d.month = 6 ∨
        d.month = 7 ∨ d.month = 8 ∨ d.month = 9 ∨ d.month = 10 ∨ d.month = 11 ∨ d.month = 12 := by omega
    rcases hmonths with h | h | h | h | h | h | h | h | h | h | h | h <;> omega
  simp only [hmp]
  obtain ⟨year, month, day⟩ := d
  simp only at hyear hdoy hmonth ⊢
  rw [Date.mk.injEq]
  split at hyear
  · rw [if_neg (by omega), if_neg (by omega)]
    omega
  · rw [if_pos (by omega), if_pos (by omega)]
    omega

/-- **The dates that there are.** -/
theorem exists_day_iff (d : Date) :
    (∃ n, civilFromDays n = d) ↔ (1 ≤ d.month ∧ d.month ≤ 12) ∧ 1 ≤ d.day ∧ d.day ≤ monthDays d.year d.month := by
  constructor
  · rintro ⟨n, rfl⟩
    exact ⟨civilFromDays_month n, (civilFromDays_day n).1, civilFromDays_day_le n⟩
  · rintro ⟨hmonth, hday⟩
    exact ⟨_, civilFromDays_daysFromCivil hmonth hday⟩

end UrlShortener.Calendar

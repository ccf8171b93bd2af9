import CardHolds.Timestamp
import Mathlib.Algebra.BigOperators.Group.Finset.Basic
import Mathlib.Algebra.Order.BigOperators.Group.Finset
import Mathlib.Tactic.IntervalCases

/-!
# Days and minutes counted

Each day of the calendar has a number (`Date.number`), counted from the start of the year 0.  The day
after has the next number (`Date.next?_eq_some_iff`), and no two days have the same (`Date.number_inj`).
So the minutes of a point in time can be counted too (`Timestamp.minutes`), and going back in time is
subtraction (`Timestamp.back?_eq_some_iff`).
-/

namespace CardHolds

namespace Calendar
variable {year year' : Int} {month month' day day' : Nat}

/-- The number of days of all years from 0 on that come before a year. -/
def daysBeforeYear (year : Int) : Int :=
  365 * year + (year - 1) / 4 - (year - 1) / 100 + (year - 1) / 400

/-- The number of days of all months of a year that come before a month. -/
def daysBeforeMonth (year : Int) (month : Nat) : Nat :=
  ∑ k ∈ Finset.range month, daysInMonth year k

/-- The number of a day. -/
def dayNumber (year : Int) (month day : Nat) : Int :=
  daysBeforeYear year + daysBeforeMonth year month + day

theorem daysBeforeMonth_succ (year : Int) (month : Nat) :
    daysBeforeMonth year (month + 1) = daysBeforeMonth year month + daysInMonth year month :=
  Finset.sum_range_succ _ _

theorem daysBeforeMonth_mono (h : month ≤ month') :
    daysBeforeMonth year month ≤ daysBeforeMonth year month' :=
  Finset.sum_le_sum_of_subset (Finset.range_subset_range.mpr h)

theorem daysBeforeMonth_thirteen (year : Int) :
    daysBeforeMonth year 13 = if isLeapYear year then 366 else 365 := by
  simp only [daysBeforeMonth, Finset.sum_range_succ, Finset.sum_range_zero, daysInMonth]
  split <;> rfl

/-- A year is as long as its months. -/
theorem daysBeforeYear_succ (year : Int) :
    daysBeforeYear (year + 1) = daysBeforeYear year + daysBeforeMonth year 13 := by
  rw [daysBeforeMonth_thirteen, daysBeforeYear, daysBeforeYear]
  by_cases h : isLeapYear year = true
  · rw [if_pos h]
    simp only [isLeapYear, Bool.and_eq_true, Bool.or_eq_true, beq_iff_eq, bne_iff_ne] at h
    omega
  · rw [if_neg h]
    simp only [isLeapYear, Bool.and_eq_true, Bool.or_eq_true, beq_iff_eq, bne_iff_ne] at h
    omega

theorem daysBeforeYear_mono (h : year ≤ year') : daysBeforeYear year ≤ daysBeforeYear year' := by
  unfold daysBeforeYear
  omega

/-- The days of a year have the numbers from its beginning to that of the next year. -/
theorem dayNumber_bounds (h : hasDay year month day = true) :
    daysBeforeYear year < dayNumber year month day ∧
      dayNumber year month day ≤ daysBeforeYear (year + 1) := by
  obtain ⟨hpos, hlast⟩ := hasDay_iff.mp h
  have hmonth := month_of_daysInMonth_pos (Nat.lt_of_lt_of_le hpos hlast)
  have hsum := daysBeforeMonth_succ year month
  have hyear : daysBeforeMonth year (month + 1) ≤ daysBeforeMonth year 13 :=
    daysBeforeMonth_mono (by omega)
  rw [daysBeforeYear_succ, dayNumber]
  omega

/-- A day of an earlier month, or an earlier day of the month, has the smaller number. -/
theorem dayNumber_lt_of_year_eq (h : hasDay year month day = true)
    (hlt : month < month' ∨ month = month' ∧ day < day') (h' : 1 ≤ day') :
    dayNumber year month day < dayNumber year month' day' := by
  unfold dayNumber
  rcases hlt with hmonth | ⟨rfl, hday⟩
  · have hlast := (hasDay_iff.mp h).2
    have hsum := daysBeforeMonth_succ year month
    have hmono : daysBeforeMonth year (month + 1) ≤ daysBeforeMonth year month' :=
      daysBeforeMonth_mono hmonth
    omega
  · omega

theorem dayNumber_inj (h : hasDay year month day = true) (h' : hasDay year' month' day' = true)
    (heq : dayNumber year month day = dayNumber year' month' day') :
    year = year' ∧ month = month' ∧ day = day' := by
  have hbounds := dayNumber_bounds h
  have hbounds' := dayNumber_bounds h'
  have hyear : year = year' := by
    rcases lt_trichotomy year year' with hlt | heq | hlt
    · have hmono := daysBeforeYear_mono (show year + 1 ≤ year' by omega)
      omega
    · exact heq
    · have hmono := daysBeforeYear_mono (show year' + 1 ≤ year by omega)
      omega
  subst hyear
  have hnot : ¬ (month < month' ∨ month = month' ∧ day < day') := fun hlt =>
    (dayNumber_lt_of_year_eq h hlt (hasDay_iff.mp h').1).ne heq
  have hnot' : ¬ (month' < month ∨ month' = month ∧ day' < day) := fun hlt =>
    (dayNumber_lt_of_year_eq h' hlt (hasDay_iff.mp h).1).ne heq.symm
  omega

theorem daysInMonth_ge (year : Int) (hone : 1 ≤ month) (htwelve : month ≤ 12) :
    28 ≤ daysInMonth year month := by
  interval_cases month <;> simp only [daysInMonth] <;> (try split) <;> omega

end Calendar

namespace Date

open Calendar

variable {d e : Date} {year : Int} {month day : Nat}

/-- The number of a day, counted from the start of the year 0. -/
def number (d : Date) : Int := dayNumber d.year d.month d.day

theorem ext_numbers (hyear : d.year = e.year) (hmonth : d.month = e.month) (hday : d.day = e.day) :
    d = e := by
  cases d
  cases e
  cases hyear
  cases hmonth
  cases hday
  rfl

theorem number_inj (h : d.number = e.number) : d = e := by
  obtain ⟨hyear, hmonth, hday⟩ := dayNumber_inj d.has_day e.has_day h
  exact ext_numbers hyear hmonth hday

theorem ofNumbers?_eq_some_iff :
    ofNumbers? year month day = some d ↔ d.year = year ∧ d.month = month ∧ d.day = day := by
  unfold ofNumbers?
  constructor
  · intro h
    split at h
    · cases h
      exact ⟨rfl, rfl, rfl⟩
    · cases h
  · rintro ⟨rfl, rfl, rfl⟩
    rw [dif_pos ⟨d.has_year, d.has_day⟩]

/-- A day of some year is found by its number. -/
theorem ofNumbers?_eq_some_iff_number (h : hasDay year month day = true) :
    ofNumbers? year month day = some d ↔ d.number = dayNumber year month day := by
  rw [ofNumbers?_eq_some_iff]
  constructor
  · rintro ⟨rfl, rfl, rfl⟩
    rfl
  · exact dayNumber_inj d.has_day h

/-- The day after has the next number; where the calendar ends, it has no day with that number. -/
theorem next?_eq_some_iff : d.next? = some e ↔ e.number = d.number + 1 := by
  obtain ⟨hpos, hlast⟩ := hasDay_iff.mp d.has_day
  obtain ⟨-, htwelve⟩ := d.month_bounds
  unfold next?
  by_cases hday : d.day < daysInMonth d.year d.month
  · rw [if_pos hday, ofNumbers?_eq_some_iff_number (hasDay_iff.mpr ⟨by omega, hday⟩)]
    simp only [number, dayNumber]
    omega
  · by_cases hmonth : d.month < 12
    · have hlength : 28 ≤ daysInMonth d.year (d.month + 1) := daysInMonth_ge _ (by omega) (by omega)
      rw [if_neg hday, if_pos hmonth,
        ofNumbers?_eq_some_iff_number (hasDay_iff.mpr ⟨le_rfl, by omega⟩)]
      simp only [number, dayNumber, daysBeforeMonth_succ]
      omega
    · have hdecember : d.month = 12 := by omega
      have hfirst : hasDay (d.year + 1) 1 1 = true := hasDay_iff.mpr ⟨le_rfl, (by omega : 1 ≤ 31)⟩
      have hlength : daysInMonth d.year 12 = 31 := rfl
      have hsum : daysBeforeMonth d.year 13 = _ := daysBeforeMonth_succ d.year 12
      have hyear := daysBeforeYear_succ d.year
      have hbefore : daysBeforeMonth (d.year + 1) 1 = 0 := Finset.sum_range_one _
      rw [if_neg hday, if_neg hmonth, ofNumbers?_eq_some_iff_number hfirst]
      rw [hdecember] at hlast hday
      simp only [number, dayNumber, hdecember]
      omega

/-- The day before has the number before. -/
theorem previous?_eq_some_iff : d.previous? = some e ↔ e.number = d.number - 1 := by
  obtain ⟨hpos, hlast⟩ := hasDay_iff.mp d.has_day
  obtain ⟨hone, htwelve⟩ := d.month_bounds
  unfold previous?
  by_cases hday : 1 < d.day
  · rw [if_pos hday, ofNumbers?_eq_some_iff_number (hasDay_iff.mpr ⟨by omega, by omega⟩)]
    simp only [number, dayNumber]
    omega
  · by_cases hmonth : 1 < d.month
    · have hlength : 28 ≤ daysInMonth d.year (d.month - 1) := daysInMonth_ge _ (by omega) (by omega)
      have hsum := daysBeforeMonth_succ d.year (d.month - 1)
      rw [Nat.sub_add_cancel hone] at hsum
      rw [if_neg hday, if_pos hmonth,
        ofNumbers?_eq_some_iff_number (hasDay_iff.mpr ⟨by omega, le_rfl⟩)]
      simp only [number, dayNumber]
      omega
    · have hjanuary : d.month = 1 := by omega
      have hlast : hasDay (d.year - 1) 12 31 = true := hasDay_iff.mpr ⟨by omega, le_rfl⟩
      have hlength : daysInMonth (d.year - 1) 12 = 31 := rfl
      have hsum : daysBeforeMonth (d.year - 1) 13 = _ := daysBeforeMonth_succ (d.year - 1) 12
      have hyear := daysBeforeYear_succ (d.year - 1)
      have hbefore : daysBeforeMonth d.year 1 = 0 := Finset.sum_range_one _
      rw [Int.sub_add_cancel] at hyear
      rw [if_neg hday, if_neg hmonth, ofNumbers?_eq_some_iff_number hlast]
      simp only [number, dayNumber, hjanuary]
      omega

end Date

namespace Timestamp

variable {t u : Timestamp} {offset : Int}

/-- The number of whole minutes since the start of the year 0. -/
def minutes (t : Timestamp) : Int := 1440 * t.date.number + 60 * t.hour + t.minute

/-- Points in time with the same minutes, seconds and nanoseconds are the same. -/
theorem eq_of_minutes (hminutes : t.minutes = u.minutes) (hsecond : t.second = u.second)
    (hnanosecond : t.nanosecond = u.nanosecond) : t = u := by
  have hhour := t.hour_lt
  have hhour' := u.hour_lt
  have hminute := t.minute_lt
  have hminute' := u.minute_lt
  unfold Timestamp.minutes at hminutes
  have hdate : t.date = u.date := Date.number_inj (by omega)
  rw [hdate] at hminutes
  have hhours : t.hour = u.hour := by omega
  have hminutes : t.minute = u.minute := by omega
  cases t
  cases u
  cases hdate
  cases hhours
  cases hminutes
  cases hsecond
  cases hnanosecond
  rfl

/-- Going back in time is subtraction; there is nothing before the calendar or after it. -/
theorem back?_eq_some_iff (hlow : -1440 < offset) (hhigh : offset < 1440) :
    t.back? offset = some u ↔ u.minutes = t.minutes - offset ∧ u.second = t.second ∧
      u.nanosecond = t.nanosecond := by
  have hhour := t.hour_lt
  have hminute := t.minute_lt
  have hdate (e : Date) :
      (if 60 * (t.hour : Int) + t.minute - offset < 0 then t.date.previous?
        else if 60 * (t.hour : Int) + t.minute - offset < 1440 then some t.date
        else t.date.next?) = some e ↔
      e.number = t.date.number + (60 * (t.hour : Int) + t.minute - offset) / 1440 := by
    split
    · rw [Date.previous?_eq_some_iff]
      omega
    · split
      · rw [Option.some.injEq]
        constructor
        · rintro rfl
          omega
        · intro hnumber
          exact Date.number_inj (by omega)
      · rw [Date.next?_eq_some_iff]
        omega
  simp only [back?, Option.map_eq_some_iff, hdate]
  constructor
  · rintro ⟨e, he, rfl⟩
    refine ⟨?_, rfl, rfl⟩
    simp only [Timestamp.minutes]
    omega
  · rintro ⟨hminutes, hsecond, hnanosecond⟩
    have hhour' := u.hour_lt
    have hminute' := u.minute_lt
    simp only [Timestamp.minutes] at hminutes
    refine ⟨u.date, by omega, eq_of_minutes ?_ hsecond.symm hnanosecond.symm⟩
    simp only [Timestamp.minutes]
    omega

end Timestamp

end CardHolds

import CardHolds.Text.Numeral

/-!
# Days of the calendar

A `Date` is a day of the Gregorian calendar, which is taken to reach back to before its beginning.
Written, a year from 0 to 9999 has four digits; a later one is preceded by a plus sign and one before 0
by a minus sign, and both have as many digits as they need, at least four.
-/

namespace CardHolds

namespace Calendar

/-- The years of the calendar. -/
def hasYear (year : Int) : Bool :=
  -262143 ≤ year && year ≤ 262142

/-- Leap years are the multiples of 4 that are no multiples of 100, and the multiples of 400. -/
def isLeapYear (year : Int) : Bool :=
  year % 4 == 0 && (year % 100 != 0 || year % 400 == 0)

/-- The number of days of a month; zero if there is no such month. -/
def daysInMonth (year : Int) (month : Nat) : Nat :=
  match month with
  | 1 | 3 | 5 | 7 | 8 | 10 | 12 => 31
  | 4 | 6 | 9 | 11 => 30
  | 2 => if isLeapYear year then 29 else 28
  | _ => 0

/-- Whether the month has this day, in whatever year. -/
def hasDay (year : Int) (month day : Nat) : Bool :=
  1 ≤ day && day ≤ daysInMonth year month

theorem daysInMonth_le (year : Int) (month : Nat) : daysInMonth year month ≤ 31 := by
  unfold daysInMonth
  split <;> (try split) <;> omega

theorem month_of_daysInMonth_pos {year : Int} {month : Nat} (h : 0 < daysInMonth year month) :
    1 ≤ month ∧ month ≤ 12 := by
  unfold daysInMonth at h
  split at h <;> omega

theorem hasDay_iff {year : Int} {month day : Nat} :
    hasDay year month day = true ↔ 1 ≤ day ∧ day ≤ daysInMonth year month := by
  simp only [hasDay, Bool.and_eq_true, decide_eq_true_eq]

end Calendar

/-- A day of the calendar. -/
structure Date where
  year : Int
  month : Nat
  day : Nat
  has_year : Calendar.hasYear year = true
  has_day : Calendar.hasDay year month day = true
deriving DecidableEq

namespace Date

open Calendar Numeral

/-- The day that the three numbers name, if there is one. -/
def ofNumbers? (year : Int) (month day : Nat) : Option Date :=
  if h : hasYear year = true ∧ hasDay year month day = true then
    some ⟨year, month, day, h.1, h.2⟩
  else
    none

instance : Inhabited Date := ⟨⟨1970, 1, 1, by decide, by decide⟩⟩

/-- The day after, unless the calendar ends. -/
def next? (d : Date) : Option Date :=
  if d.day < daysInMonth d.year d.month then ofNumbers? d.year d.month (d.day + 1)
  else if d.month < 12 then ofNumbers? d.year (d.month + 1) 1
  else ofNumbers? (d.year + 1) 1 1

/-- The day before, unless the calendar begins. -/
def previous? (d : Date) : Option Date :=
  if 1 < d.day then ofNumbers? d.year d.month (d.day - 1)
  else if 1 < d.month then ofNumbers? d.year (d.month - 1) (daysInMonth d.year (d.month - 1))
  else ofNumbers? (d.year - 1) 12 31

/-- The sign of a written year; the years of four digits have none. -/
def yearSign (year : Int) : List Char :=
  if year < 0 then ['-'] else if 9999 < year then ['+'] else []

/-- The number of digits of a written year. -/
def yearWidth (year : Int) : Nat :=
  if year.natAbs < 10000 then 4 else if year.natAbs < 100000 then 5 else 6

/-- A written year. -/
def yearText (year : Int) : List Char :=
  yearSign year ++ digits (yearWidth year) year.natAbs

/-- A written day: `YYYY-MM-DD`. -/
def text (d : Date) : List Char :=
  yearText d.year ++ '-' :: (digits 2 d.month ++ '-' :: digits 2 d.day)

theorem month_bounds (d : Date) : 1 ≤ d.month ∧ d.month ≤ 12 := by
  have h := hasDay_iff.mp d.has_day
  exact month_of_daysInMonth_pos (Nat.lt_of_lt_of_le h.1 h.2)

theorem day_bounds (d : Date) : 1 ≤ d.day ∧ d.day ≤ 31 := by
  have h := hasDay_iff.mp d.has_day
  exact ⟨h.1, Nat.le_trans h.2 (daysInMonth_le d.year d.month)⟩

end Date

end CardHolds

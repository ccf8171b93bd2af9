import CardHolds.Date

/-!
# Points in time

A `Timestamp` is a point in universal time with a precision of nanoseconds.  It is written as
`YYYY-MM-DDTHH:MM:SS` with as many groups of three digits after a point as it needs, followed by the
mark of universal time: a `Z` in documents (`text`), `+00:00` in a store (`storedText`).

`ofText?` reads the date and time format of RFC 3339.  A text may show a clock that is ahead of universal
time or behind it, and may show any part of a second; what is read is the point in time, down to whole
nanoseconds.

Timestamps are ordered as a store orders them, by the text that it holds.  From year 0 to year 9999 this
is the order in time; the years after 9999 come before all others, and the years before 0 come next.
-/

namespace CardHolds

/-- A point in time; second 60 is a leap second. -/
structure Timestamp where
  date : Date
  hour : Nat
  minute : Nat
  second : Nat
  nanosecond : Nat
  hour_lt : hour < 24
  minute_lt : minute < 60
  second_le : second ≤ 60
  nanosecond_lt : nanosecond < 1000000000
deriving DecidableEq

namespace Timestamp

open Numeral

/-- The point in time on a day that the numbers name, if there is one. -/
def onDate? (date : Date) (hour minute second nanosecond : Nat) : Option Timestamp :=
  if h : hour < 24 ∧ minute < 60 ∧ second ≤ 60 ∧ nanosecond < 1000000000 then
    some ⟨date, hour, minute, second, nanosecond, h.1, h.2.1, h.2.2.1, h.2.2.2⟩
  else
    none

/-- The start of the second that the numbers name, if there is one. -/
def ofNumbers? (year : Int) (month day hour minute second : Nat) : Option Timestamp := do
  onDate? (← Date.ofNumbers? year month day) hour minute second 0

instance : Inhabited Timestamp :=
  ⟨⟨default, 0, 0, 0, 0, by decide, by decide, by decide, by decide⟩⟩

/-! ## Writing -/

/-- A part of `Nat.pow 1000 k`, as many groups of three digits as it needs. -/
def groups : Nat → Nat → List Char
  | 0, _ => []
  | k + 1, n => if n = 0 then [] else digits 3 (n / Nat.pow 1000 k) ++ groups k (n % Nat.pow 1000 k)

/-- The nanoseconds of a written time; whole seconds show none. -/
def fractionText (nanosecond : Nat) : List Char :=
  if nanosecond = 0 then [] else '.' :: groups 3 nanosecond

/-- The written form, without the mark of universal time. -/
def clockText (t : Timestamp) : List Char :=
  t.date.text ++ 'T' :: (digits 2 t.hour ++ ':' :: (digits 2 t.minute ++ ':' ::
    (digits 2 t.second ++ fractionText t.nanosecond)))

/-- The written form in a document. -/
def text (t : Timestamp) : String :=
  String.ofList (t.clockText ++ ['Z'])

/-- The written form in a store. -/
def storedText (t : Timestamp) : String :=
  String.ofList (t.clockText ++ ['+', '0', '0', ':', '0', '0'])

instance : LE Timestamp := ⟨fun a b => a.storedText ≤ b.storedText⟩
instance (a b : Timestamp) : Decidable (a ≤ b) :=
  inferInstanceAs (Decidable (a.storedText ≤ b.storedText))

/-! ## Reading

Each part of a text is read from its front, and what follows it is left. -/

/-- Reads one of these characters. -/
def readMark? (marks : List Char) : List Char → Option (List Char)
  | c :: rest => if c ∈ marks then some rest else none
  | [] => none

/-- Reads two digits. -/
def readTwo? : List Char → Option (Nat × List Char)
  | a :: b :: rest => (natural? [a, b]).map fun n => (n, rest)
  | _ => none

/-- Reads all the digits that follow, at least one: their value, and how many they are. -/
def readDigits? (cs : List Char) : Option (Nat × Nat × List Char) :=
  (natural? (cs.takeWhile Char.isDigit)).map fun n =>
    (n, (cs.takeWhile Char.isDigit).length, cs.dropWhile Char.isDigit)

/-- Reads a year: four digits, or a sign and any number of digits. -/
def readYear? : List Char → Option (Int × List Char)
  | '+' :: rest => do
    let (n, _, rest) ← readDigits? rest
    some (n, rest)
  | '-' :: rest => do
    let (n, _, rest) ← readDigits? rest
    some (-n, rest)
  | cs => do
    let n ← natural? (cs.take 4)
    if (cs.take 4).length = 4 then some (n, cs.drop 4) else none

/-- Reads the part of a second, if it is shown, down to whole nanoseconds. -/
def readFraction? : List Char → Option (Nat × List Char)
  | '.' :: rest => do
    let (n, width, rest) ← readDigits? rest
    some (n * 1000000000 / Nat.pow 10 width, rest)
  | cs => some (0, cs)

/-- Reads a day. -/
def readDate? (cs : List Char) : Option (Date × List Char) := do
  let (year, cs) ← readYear? cs
  let (month, cs) ← readTwo? (← readMark? ['-'] cs)
  let (day, cs) ← readTwo? (← readMark? ['-'] cs)
  (Date.ofNumbers? year month day).map fun date => (date, cs)

/-- Reads the time of a day. -/
def readClock? (date : Date) (cs : List Char) : Option (Timestamp × List Char) := do
  let (hour, cs) ← readTwo? cs
  let (minute, cs) ← readTwo? (← readMark? [':'] cs)
  let (second, cs) ← readTwo? (← readMark? [':'] cs)
  let (nanosecond, cs) ← readFraction? cs
  (onDate? date hour minute second nanosecond).map fun clock => (clock, cs)

/-- Reads hours and minutes of less than a day, as minutes; nothing may follow. -/
def readSpan? (cs : List Char) : Option Nat := do
  let (hours, cs) ← readTwo? cs
  let (minutes, cs) ← readTwo? (← readMark? [':'] cs)
  if cs = [] ∧ hours < 24 ∧ minutes < 60 then some (60 * hours + minutes) else none

/-- Reads how many minutes the clock is ahead of universal time; nothing may follow. -/
def readOffset? : List Char → Option Int
  | ['Z'] => some 0
  | ['z'] => some 0
  | '+' :: rest => (readSpan? rest).map fun n : Nat => (n : Int)
  | '-' :: rest => (readSpan? rest).map fun n : Nat => -(n : Int)
  | _ => none

/-- The point in time so many minutes before, less than a day; negative minutes count forward. -/
def back? (t : Timestamp) (minutes : Int) : Option Timestamp :=
  let minute := 60 * (t.hour : Int) + t.minute - minutes
  let date :=
    if minute < 0 then t.date.previous?
    else if minute < 1440 then some t.date
    else t.date.next?
  date.map fun date =>
    { t with
      date := date
      hour := (minute % 1440 / 60).toNat
      minute := (minute % 60).toNat
      hour_lt := by omega
      minute_lt := by omega }

/-- Reads a text in the format of RFC 3339; anything else, also a day that is not in the calendar, is
no point in time. -/
def ofText? (s : String) : Option Timestamp := do
  let (date, cs) ← readDate? s.toList
  let (clock, cs) ← readClock? date (← readMark? ['T', 't', ' '] cs)
  clock.back? (← readOffset? cs)

/-! ## Seconds since 1970 -/

/-- The point in time that lies `seconds` after the start of 1970, if it is in the calendar.  Days are
counted from 1 March of the year 0, so that a leap day is the last of its year; 146097 days make 400
years. -/
def ofUnixSeconds? (seconds : Int) : Option Timestamp :=
  let day := seconds / 86400 + 719468
  let rest := (seconds % 86400).toNat
  let era := day / 146097
  let dayOfEra := (day % 146097).toNat
  let yearOfEra := (dayOfEra - dayOfEra / 1460 + dayOfEra / 36524 - dayOfEra / 146096) / 365
  let dayOfYear := dayOfEra - (365 * yearOfEra + yearOfEra / 4 - yearOfEra / 100)
  let month := (5 * dayOfYear + 2) / 153
  ofNumbers? (era * 400 + yearOfEra + (if month < 10 then 0 else 1))
    (if month < 10 then month + 3 else month - 9)
    (dayOfYear - (153 * month + 2) / 5 + 1) (rest / 3600) (rest / 60 % 60) (rest % 60)

example : (ofUnixSeconds? 253402300800).map text = some "+10000-01-01T00:00:00Z" := by decide +kernel
example : (ofUnixSeconds? (-62167219201)).map text = some "-0001-12-31T23:59:59Z" := by
  decide +kernel

end Timestamp

end CardHolds

import CardHolds.Proofs.Calendar
import CardHolds.Proofs.Text.Numeral

/-!
# The date and time format of RFC 3339

The grammar of the format is given by what each part of a text stands for: `FullDate`, `PartialTime` and
`Zone`, and what these consist of.  Put together, a text shows the reading of a clock and how far the
clock is ahead of universal time (`Shows`), and so it `Denotes` a point in time: the reading, less what
the clock is ahead.

A year has four digits, as the format says, or a sign and any number of digits, which is how the years
after 9999 and those before 0 are written.  Between day and hour stands a `T` in either case or, as the
format permits, a blank.

Main statements: the reader takes exactly the texts of the grammar for the points in time that they
denote (`Timestamp.ofText?_eq_some_iff`), and what is written for a point in time denotes it
(`Timestamp.denotes_text`).
-/

namespace CardHolds

namespace Rfc3339

open Numeral

/-! ## The grammar -/

/-- Nothing but the ten digits of ASCII. -/
def Digits (ds : List Char) : Prop := ∀ c ∈ ds, '0' ≤ c ∧ c ≤ '9'

/-- A number of two digits. -/
structure Two (ds : List Char) (n : Nat) : Prop where
  length_eq : ds.length = 2
  digits : Digits ds
  eq_positional : n = positional ds

/-- A year. -/
inductive Year : List Char → Int → Prop
  | plain {ds : List Char} {year : Int} :
      ds.length = 4 → Digits ds → year = positional ds → Year ds year
  | later {ds : List Char} {year : Int} :
      ds ≠ [] → Digits ds → year = positional ds → Year ('+' :: ds) year
  | earlier {ds : List Char} {year : Int} :
      ds ≠ [] → Digits ds → year = -positional ds → Year ('-' :: ds) year

/-- The part of a second that may be shown, in whole nanoseconds. -/
inductive Fraction : List Char → Nat → Prop
  | absent : Fraction [] 0
  | present {ds : List Char} {n : Nat} : ds ≠ [] → Digits ds →
      n = positional ds * 10 ^ 9 / 10 ^ ds.length → Fraction ('.' :: ds) n

/-- A day. -/
inductive FullDate (date : Date) : List Char → Prop
  | intro {year month day : List Char} :
      Year year date.year → Two month date.month → Two day date.day →
      FullDate date (year ++ '-' :: (month ++ '-' :: day))

/-- The time of a day. -/
inductive PartialTime (clock : Timestamp) : List Char → Prop
  | intro {hour minute second fraction : List Char} :
      Two hour clock.hour → Two minute clock.minute → Two second clock.second →
      Fraction fraction clock.nanosecond →
      PartialTime clock (hour ++ ':' :: (minute ++ ':' :: (second ++ fraction)))

/-- Hours and minutes of less than a day, as minutes. -/
inductive Span : List Char → Nat → Prop
  | intro {hh mm : List Char} {h m : Nat} : Two hh h → Two mm m → h < 24 → m < 60 →
      Span (hh ++ ':' :: mm) (60 * h + m)

/-- How many minutes a clock is ahead of universal time. -/
inductive Zone : List Char → Int → Prop
  | universal : Zone ['Z'] 0
  | universal' : Zone ['z'] 0
  | ahead {cs : List Char} {n : Nat} : Span cs n → Zone ('+' :: cs) n
  | behind {cs : List Char} {n : Nat} : Span cs n → Zone ('-' :: cs) (-n)

/-- The text of a clock that is some minutes ahead of universal time. -/
inductive Shows (clock : Timestamp) (offset : Int) : List Char → Prop
  | intro {date time zone : List Char} {separator : Char} :
      FullDate clock.date date → separator ∈ ['T', 't', ' '] → PartialTime clock time →
      Zone zone offset → Shows clock offset (date ++ separator :: (time ++ zone))

/-- The text stands for the point in time. -/
def Denotes (text : String) (t : Timestamp) : Prop :=
  ∃ clock offset, Shows clock offset text.toList ∧ t.minutes = clock.minutes - offset ∧
    t.second = clock.second ∧ t.nanosecond = clock.nanosecond

variable {cs : List Char} {n : Nat} {offset : Int}

/-- No clock is ahead or behind by a day. -/
theorem Zone.bounds (h : Zone cs offset) : -1440 < offset ∧ offset < 1440 := by
  have hspan {cs : List Char} {n : Nat} (h : Span cs n) : n < 1440 := by
    cases h
    omega
  cases h with
  | universal => omega
  | universal' => omega
  | ahead h =>
    have hn := hspan h
    omega
  | behind h =>
    have hn := hspan h
    omega

/-- The zone can be told from what comes before it. -/
theorem Zone.exists_cons (h : Zone cs offset) :
    ∃ c rest, cs = c :: rest ∧ c.isDigit = false ∧ c ≠ '.' := by
  cases h with
  | universal => exact ⟨_, _, rfl, by decide, by decide⟩
  | universal' => exact ⟨_, _, rfl, by decide, by decide⟩
  | ahead => exact ⟨_, _, rfl, by decide, by decide⟩
  | behind => exact ⟨_, _, rfl, by decide, by decide⟩

end Rfc3339

/-! ## Reading the parts -/

namespace Timestamp

open Numeral Rfc3339

variable {cs rest ds : List Char} {marks : List Char} {n : Nat} {year offset : Int}

theorem readMark?_eq_some_iff :
    readMark? marks cs = some rest ↔ ∃ c ∈ marks, cs = c :: rest := by
  cases cs with
  | nil => exact iff_of_false (Option.some_ne_none rest).symm fun ⟨c, _, hcs⟩ => by cases hcs
  | cons c tail =>
    by_cases hc : c ∈ marks
    · rw [readMark?, if_pos hc, Option.some.injEq]
      constructor
      · rintro rfl
        exact ⟨c, hc, rfl⟩
      · rintro ⟨c', -, hcs⟩
        exact (List.cons.inj hcs).2
    · rw [readMark?, if_neg hc]
      refine iff_of_false (Option.some_ne_none rest).symm fun ⟨c', hc', hcs⟩ => hc ?_
      rw [(List.cons.inj hcs).1]
      exact hc'

theorem natural?_two_iff {a b : Char} : natural? [a, b] = some n ↔ Two [a, b] n := by
  rw [natural?_eq_some_iff]
  exact ⟨fun ⟨_, hdigits, hn⟩ => ⟨rfl, hdigits, hn⟩,
    fun h => ⟨List.cons_ne_nil _ _, h.digits, h.eq_positional⟩⟩

theorem readTwo?_eq_some_iff : readTwo? cs = some (n, rest) ↔ ∃ ds, Two ds n ∧ cs = ds ++ rest := by
  constructor
  · intro h
    unfold readTwo? at h
    split at h
    · rename_i a b tail
      obtain ⟨n', hn, h⟩ := Option.map_eq_some_iff.mp h
      cases h
      exact ⟨[a, b], natural?_two_iff.mp hn, rfl⟩
    · cases h
  · rintro ⟨ds, hds, rfl⟩
    obtain ⟨a, b, rfl⟩ := List.length_eq_two.mp hds.length_eq
    rw [List.cons_append, List.cons_append, List.nil_append, readTwo?, natural?_two_iff.mpr hds]
    rfl

theorem digits_of_readDigits? {width : Nat} (h : readDigits? cs = some (n, width, rest)) :
    ∃ ds, ds ≠ [] ∧ Digits ds ∧ n = positional ds ∧ width = ds.length ∧ cs = ds ++ rest := by
  obtain ⟨n', hn, h⟩ := Option.map_eq_some_iff.mp h
  cases h
  obtain ⟨hne, hdigits, hvalue⟩ := natural?_eq_some_iff.mp hn
  exact ⟨_, hne, hdigits, hvalue, rfl, List.takeWhile_append_dropWhile.symm⟩

/-- A row of digits ends where something else comes. -/
theorem readDigits?_append {c : Char} (hne : ds ≠ []) (hds : Digits ds) (hc : c.isDigit = false) :
    readDigits? (ds ++ c :: rest) = some (positional ds, ds.length, c :: rest) := by
  have hall : ∀ d ∈ ds, d.isDigit = true := fun d hd => (isDigit_iff d).mpr (hds d hd)
  have hc : ¬ c.isDigit = true := Bool.eq_false_iff.mp hc
  rw [readDigits?, List.takeWhile_append_of_pos hall, List.dropWhile_append_of_pos hall,
    List.takeWhile_cons_of_neg hc, List.dropWhile_cons_of_neg hc, List.append_nil,
    natural?_eq_some_iff.mpr ⟨hne, hds, rfl⟩]
  rfl

theorem year_of_readYear? (h : readYear? cs = some (year, rest)) :
    ∃ ds, Year ds year ∧ cs = ds ++ rest := by
  unfold readYear? at h
  split at h
  · obtain ⟨⟨n, width, _⟩, hread, h⟩ := Option.bind_eq_some_iff.mp h
    cases h
    obtain ⟨ds, hne, hdigits, rfl, -, hcs⟩ := digits_of_readDigits? hread
    exact ⟨'+' :: ds, .later hne hdigits rfl, congrArg _ hcs⟩
  · obtain ⟨⟨n, width, _⟩, hread, h⟩ := Option.bind_eq_some_iff.mp h
    cases h
    obtain ⟨ds, hne, hdigits, rfl, -, hcs⟩ := digits_of_readDigits? hread
    exact ⟨'-' :: ds, .earlier hne hdigits rfl, congrArg _ hcs⟩
  · obtain ⟨n, hn, h⟩ := Option.bind_eq_some_iff.mp h
    obtain ⟨-, hdigits, rfl⟩ := natural?_eq_some_iff.mp hn
    split at h
    · rename_i hlength
      cases h
      exact ⟨cs.take 4, .plain hlength hdigits rfl, (List.take_append_drop 4 cs).symm⟩
    · cases h

theorem readYear?_append {c : Char} (h : Year ds year) (hc : c.isDigit = false) :
    readYear? (ds ++ c :: rest) = some (year, c :: rest) := by
  cases h with
  | plain hlength hdigits hyear =>
    obtain ⟨first, tail, rfl⟩ := List.exists_cons_of_length_eq_add_one hlength
    have hfirst := hdigits first List.mem_cons_self
    have htake : (first :: tail ++ c :: rest).take 4 = first :: tail := List.take_left' hlength
    have hdrop : (first :: tail ++ c :: rest).drop 4 = c :: rest := List.drop_left' hlength
    have hread := natural?_eq_some_iff.mpr ⟨List.cons_ne_nil first tail, hdigits, rfl⟩
    -- a digit is no sign
    unfold readYear?
    split
    · rename_i heq
      rw [(List.cons.inj heq).1] at hfirst
      exact absurd hfirst (by decide)
    · rename_i heq
      rw [(List.cons.inj heq).1] at hfirst
      exact absurd hfirst (by decide)
    · rw [htake, hdrop, hread, hyear, Option.bind_eq_bind, Option.bind_some, if_pos hlength]
  | later hne hdigits hyear =>
    rw [List.cons_append, readYear?, readDigits?_append hne hdigits hc, hyear]
    rfl
  | earlier hne hdigits hyear =>
    rw [List.cons_append, readYear?, readDigits?_append hne hdigits hc, hyear]
    rfl

theorem fraction_of_readFraction? (h : readFraction? cs = some (n, rest)) :
    ∃ ds, Fraction ds n ∧ cs = ds ++ rest := by
  unfold readFraction? at h
  split at h
  · obtain ⟨⟨value, width, _⟩, hread, h⟩ := Option.bind_eq_some_iff.mp h
    cases h
    obtain ⟨ds, hne, hdigits, rfl, rfl, hcs⟩ := digits_of_readDigits? hread
    exact ⟨'.' :: ds, .present hne hdigits rfl, congrArg _ hcs⟩
  · cases h
    exact ⟨[], .absent, rfl⟩

theorem readFraction?_append {c : Char} (h : Fraction ds n) (hc : c.isDigit = false)
    (hpoint : c ≠ '.') : readFraction? (ds ++ c :: rest) = some (n, c :: rest) := by
  cases h with
  | absent =>
    rw [List.nil_append]
    unfold readFraction?
    split
    · rename_i heq
      exact absurd (List.cons.inj heq).1 hpoint
    · rfl
  | present hne hdigits hvalue =>
    rw [List.cons_append, readFraction?, readDigits?_append hne hdigits hc, hvalue]
    rfl

theorem readSpan?_eq_some_iff : readSpan? cs = some n ↔ Span cs n := by
  simp only [readSpan?, Option.bind_eq_bind, Option.bind_eq_some_iff, Prod.exists,
    readTwo?_eq_some_iff, readMark?_eq_some_iff, List.mem_singleton, exists_eq_left,
    Option.ite_none_right_eq_some, Option.some.injEq]
  constructor
  · rintro ⟨h, _, ⟨hh, hhours, rfl⟩, _, rfl, m, _, ⟨mm, hminutes, rfl⟩, ⟨rfl, hlt, hlt'⟩, rfl⟩
    rw [List.append_nil]
    exact .intro hhours hminutes hlt hlt'
  · rintro ⟨hhours, hminutes, hlt, hlt'⟩
    exact ⟨_, _, ⟨_, hhours, rfl⟩, _, rfl, _, _, ⟨_, hminutes, (List.append_nil _).symm⟩,
      ⟨rfl, hlt, hlt'⟩, rfl⟩

theorem readOffset?_eq_some_iff : readOffset? cs = some offset ↔ Zone cs offset := by
  constructor
  · intro h
    unfold readOffset? at h
    split at h
    · cases h
      exact .universal
    · cases h
      exact .universal'
    · obtain ⟨n, hn, rfl⟩ := Option.map_eq_some_iff.mp h
      exact .ahead (readSpan?_eq_some_iff.mp hn)
    · obtain ⟨n, hn, rfl⟩ := Option.map_eq_some_iff.mp h
      exact .behind (readSpan?_eq_some_iff.mp hn)
    · cases h
  · intro h
    cases h with
    | universal => rfl
    | universal' => rfl
    | ahead h =>
      rw [readOffset?, readSpan?_eq_some_iff.mpr h]
      rfl
    | behind h =>
      rw [readOffset?, readSpan?_eq_some_iff.mpr h]
      rfl

/-! ## Reading a text -/

theorem onDate?_eq_some_iff {date : Date} {hour minute second nanosecond : Nat} {t : Timestamp} :
    onDate? date hour minute second nanosecond = some t ↔
      t.date = date ∧ t.hour = hour ∧ t.minute = minute ∧ t.second = second ∧
        t.nanosecond = nanosecond := by
  unfold onDate?
  constructor
  · intro h
    split at h
    · cases h
      exact ⟨rfl, rfl, rfl, rfl, rfl⟩
    · cases h
  · rintro ⟨rfl, rfl, rfl, rfl, rfl⟩
    rw [dif_pos ⟨t.hour_lt, t.minute_lt, t.second_le, t.nanosecond_lt⟩]

theorem readDate?_eq_some_iff {date : Date} :
    readDate? cs = some (date, rest) ↔ ∃ ds, FullDate date ds ∧ cs = ds ++ rest := by
  simp only [readDate?, Option.bind_eq_bind, Option.bind_eq_some_iff, Option.map_eq_some_iff,
    Prod.exists, readTwo?_eq_some_iff, readMark?_eq_some_iff, Date.ofNumbers?_eq_some_iff,
    List.mem_singleton, exists_eq_left, Prod.mk.injEq]
  constructor
  · rintro ⟨year, cs₀, hread, cs₁, hcs₁, month, cs₂, ⟨mm, hmonth, rfl⟩, cs₃, hcs₃, day, _,
      ⟨dd, hday, hcs₂⟩, _, ⟨rfl, rfl, rfl⟩, rfl, rfl⟩
    obtain ⟨yyyy, hyear, hcs⟩ := year_of_readYear? hread
    refine ⟨_, .intro hyear hmonth hday, ?_⟩
    rw [hcs, hcs₁, hcs₃, hcs₂]
    simp only [List.append_assoc, List.cons_append]
  · rintro ⟨ds, ⟨hyear, hmonth, hday⟩, rfl⟩
    simp only [List.append_assoc, List.cons_append]
    exact ⟨_, _, readYear?_append hyear (by decide), _, rfl, _, _, ⟨_, hmonth, rfl⟩, _, rfl, _, _,
      ⟨_, hday, rfl⟩, date, ⟨rfl, rfl, rfl⟩, rfl, rfl⟩

theorem partialTime_of_readClock? {date : Date} {clock : Timestamp}
    (h : readClock? date cs = some (clock, rest)) :
    clock.date = date ∧ ∃ ds, PartialTime clock ds ∧ cs = ds ++ rest := by
  simp only [readClock?, Option.bind_eq_bind, Option.bind_eq_some_iff, Option.map_eq_some_iff,
    Prod.exists, readTwo?_eq_some_iff, readMark?_eq_some_iff, onDate?_eq_some_iff,
    List.mem_singleton, exists_eq_left, Prod.mk.injEq] at h
  obtain ⟨hour, _, ⟨hh, hhour, rfl⟩, _, rfl, minute, _, ⟨mm, hminute, rfl⟩, _, rfl, second, _,
    ⟨ss, hsecond, rfl⟩, nanosecond, _, hread, _, ⟨rfl, rfl, rfl, rfl, rfl⟩, rfl, rfl⟩ := h
  obtain ⟨fraction, hfraction, rfl⟩ := fraction_of_readFraction? hread
  refine ⟨rfl, _, .intro hhour hminute hsecond hfraction, ?_⟩
  simp only [List.append_assoc, List.cons_append]

theorem readClock?_append {clock : Timestamp} {c : Char} (h : PartialTime clock ds)
    (hc : c.isDigit = false) (hpoint : c ≠ '.') :
    readClock? clock.date (ds ++ c :: rest) = some (clock, c :: rest) := by
  simp only [readClock?, Option.bind_eq_bind, Option.bind_eq_some_iff, Option.map_eq_some_iff,
    Prod.exists, readTwo?_eq_some_iff, readMark?_eq_some_iff, onDate?_eq_some_iff,
    List.mem_singleton, exists_eq_left, Prod.mk.injEq]
  obtain ⟨hhour, hminute, hsecond, hfraction⟩ := h
  simp only [List.append_assoc, List.cons_append]
  exact ⟨_, _, ⟨_, hhour, rfl⟩, _, rfl, _, _, ⟨_, hminute, rfl⟩, _, rfl, _, _, ⟨_, hsecond, rfl⟩, _, _,
    readFraction?_append hfraction hc hpoint, clock, ⟨rfl, rfl, rfl, rfl, rfl⟩, rfl, rfl⟩

/-- **The texts that are read are those of the format, each for the point in time that it denotes.** -/
theorem ofText?_eq_some_iff {s : String} {t : Timestamp} : ofText? s = some t ↔ Denotes s t := by
  simp only [ofText?, Option.bind_eq_bind, Option.bind_eq_some_iff, Prod.exists,
    readDate?_eq_some_iff, readMark?_eq_some_iff, readOffset?_eq_some_iff]
  constructor
  · rintro ⟨_, _, ⟨date, hdate, hs⟩, _, ⟨separator, hseparator, rfl⟩, clock, _, hread, offset, hzone,
      hback⟩
    obtain ⟨rfl, time, htime, rfl⟩ := partialTime_of_readClock? hread
    refine ⟨clock, offset, ?_, (back?_eq_some_iff hzone.bounds.1 hzone.bounds.2).mp hback⟩
    rw [hs]
    exact .intro hdate hseparator htime hzone
  · rintro ⟨clock, offset, hshows, hminutes⟩
    generalize s.toList = cs at hshows
    obtain ⟨hdate, hseparator, htime, hzone⟩ := hshows
    obtain ⟨c, rest, rfl, hdigit, hpoint⟩ := hzone.exists_cons
    exact ⟨_, _, ⟨_, hdate, rfl⟩, _, ⟨_, hseparator, rfl⟩, clock, _,
      readClock?_append htime hdigit hpoint, offset, hzone,
      (back?_eq_some_iff hzone.bounds.1 hzone.bounds.2).mpr hminutes⟩

instance {s : String} : Decidable (∃ t, Rfc3339.Denotes s t) :=
  decidable_of_iff ((ofText? s).isSome = true)
    (Option.isSome_iff_exists.trans (exists_congr fun _ => ofText?_eq_some_iff))

example : (ofText? "2024-05-06t23:08:09.5-01:30").map text = some "2024-05-07T00:38:09.500Z" := by
  decide +kernel
example : ofText? "2023-02-29T00:00:00Z" = none := by decide +kernel

/-! ## What is written denotes what it is written for -/

theorem digits_digits (width n : Nat) : Digits (digits width n) :=
  fun _ hc => (isDigit_iff _).mp (isDigit_of_mem_digits hc)

theorem two_digits (h : n < 100) : Two (digits 2 n) n :=
  ⟨length_digits 2 n, digits_digits 2 n, (positional_digits h).symm⟩

/-- The width of a written year is enough for all its digits. -/
theorem natAbs_lt_yearWidth (h : Calendar.hasYear year = true) :
    year.natAbs < Nat.pow 10 (Date.yearWidth year) := by
  simp only [Calendar.hasYear, Bool.and_eq_true, decide_eq_true_eq] at h
  unfold Date.yearWidth
  split
  · assumption
  · split
    · assumption
    · show year.natAbs < 1000000
      omega

theorem year_yearText (h : Calendar.hasYear year = true) : Year (Date.yearText year) year := by
  have hvalue : year.natAbs = positional (digits (Date.yearWidth year) year.natAbs) :=
    (positional_digits (natAbs_lt_yearWidth h)).symm
  have hdigits := digits_digits (Date.yearWidth year) year.natAbs
  have hne : digits (Date.yearWidth year) year.natAbs ≠ [] := by
    refine List.ne_nil_of_length_pos ?_
    rw [length_digits, Date.yearWidth]
    split <;> (try split) <;> omega
  unfold Date.yearText Date.yearSign
  split
  · have hyear : year = -(year.natAbs : Int) := by omega
    exact .earlier hne hdigits (hyear.trans (congrArg (fun n : Nat => -(n : Int)) hvalue))
  · have hyear : year = (year.natAbs : Int) := by omega
    split
    · exact .later hne hdigits (hyear.trans (congrArg Nat.cast hvalue))
    · have hwidth : Date.yearWidth year = 4 := if_pos (by omega)
      exact .plain ((length_digits _ _).trans hwidth) hdigits (hyear.trans (congrArg Nat.cast hvalue))

theorem digits_groups (k n : Nat) : Digits (groups k n) := by
  induction k generalizing n with
  | zero => exact fun c hc => by cases hc
  | succ k ih =>
    unfold groups
    split
    · exact fun c hc => by cases hc
    · exact fun c hc => (List.mem_append.mp hc).elim (digits_digits 3 _ c) (ih _ c)

/-- The groups of a part of a whole stand for as great a part of a power of ten. -/
theorem positional_groups {k : Nat} (h : n < 1000 ^ k) :
    positional (groups k n) * 1000 ^ k = n * 10 ^ (groups k n).length := by
  induction k generalizing n with
  | zero =>
    rw [pow_zero, Nat.lt_one_iff] at h
    rw [h]
    rfl
  | succ k ih =>
    unfold groups
    split
    · rename_i hn
      rw [hn, Nat.zero_mul]
      exact Nat.zero_mul _
    · have hfirst : n / 1000 ^ k < 1000 := Nat.div_lt_of_lt_mul (by rwa [pow_succ] at h)
      have hrest := ih (Nat.mod_lt n (Nat.pow_pos (by decide)))
      have hparts := Nat.div_add_mod n (1000 ^ k)
      simp only [Nat.pow_eq]
      rw [positional_append, positional_digits hfirst, List.length_append, length_digits, pow_succ 1000,
        pow_add 10]
      generalize n / 1000 ^ k = first at hparts
      generalize n % 1000 ^ k = rest at hrest hparts
      generalize (groups k rest).length = length at hrest
      generalize positional (groups k rest) = value at hrest
      calc (first * 10 ^ length + value) * (1000 ^ k * 1000)
        _ = (1000 ^ k * first * 10 ^ length + value * 1000 ^ k) * 1000 := by ring
        _ = (1000 ^ k * first * 10 ^ length + rest * 10 ^ length) * 1000 := by rw [hrest]
        _ = (1000 ^ k * first + rest) * (10 ^ 3 * 10 ^ length) := by ring
        _ = n * (10 ^ 3 * 10 ^ length) := by rw [hparts]

theorem fraction_fractionText (h : n < 1000000000) : Fraction (fractionText n) n := by
  unfold fractionText
  split
  · rename_i hn
    rw [hn]
    exact .absent
  · rename_i hn
    have hne : groups 3 n ≠ [] := by
      rw [groups, if_neg hn]
      exact List.append_ne_nil_of_left_ne_nil (List.ne_nil_of_length_eq_add_one (length_digits 3 _)) _
    have hvalue : positional (groups 3 n) * 10 ^ 9 / 10 ^ (groups 3 n).length = n := by
      rw [show (10 ^ 9 : Nat) = 1000 ^ 3 from rfl, positional_groups h]
      exact Nat.mul_div_cancel _ (Nat.pow_pos (by decide))
    exact .present hne (digits_groups 3 n) hvalue.symm

/-- **The text that is written for a point in time denotes it.** -/
theorem denotes_text (t : Timestamp) : Denotes t.text t := by
  have hmonth := t.date.month_bounds
  have hday := t.date.day_bounds
  have hhour := t.hour_lt
  have hminute := t.minute_lt
  have hsecond := t.second_le
  refine ⟨t, 0, ?_, (Int.sub_zero _).symm, rfl, rfl⟩
  have hdate : FullDate t.date t.date.text :=
    .intro (year_yearText t.date.has_year) (two_digits (by omega)) (two_digits (by omega))
  have htime : PartialTime t _ :=
    .intro (two_digits (by omega)) (two_digits (by omega)) (two_digits (by omega))
      (fraction_fractionText t.nanosecond_lt)
  rw [text, String.toList_ofList, clockText, List.append_assoc]
  exact .intro hdate List.mem_cons_self htime .universal

theorem ofText?_text (t : Timestamp) : ofText? t.text = some t :=
  ofText?_eq_some_iff.mpr t.denotes_text

end Timestamp

end CardHolds

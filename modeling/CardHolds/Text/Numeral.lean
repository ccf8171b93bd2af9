/-!
# Decimal numerals

`digits` writes a number with a given number of digits, `ofDigits?` reads a row of digits, and
`read?` reads a text that holds a numeral below a limit.  Only the ten digits of ASCII count.
-/

namespace CardHolds.Numeral

/-- The value of a decimal digit. -/
def digit? (c : Char) : Option Nat :=
  if c.isDigit then some (c.toNat - '0'.toNat) else none

/-- The value of a row of decimal digits, read after the digits of `value`. -/
def ofDigits? (value : Nat) : List Char → Option Nat
  | [] => some value
  | c :: rest => do ofDigits? (value * 10 + (← digit? c)) rest

/-- The number that one or more decimal digits stand for. -/
def natural? : List Char → Option Nat
  | [] => none
  | digits => ofDigits? 0 digits

/-- The digits of a numeral, without its plus sign. -/
def unsigned : List Char → List Char
  | '+' :: rest => rest
  | digits => digits

/-- Reads a numeral below a limit. -/
def read? (limit : Nat) (text : String) : Option Nat :=
  (natural? (unsigned text.toList)).filter fun n => decide (n < limit)

/-- The last `width` decimal digits of a number. -/
def digits : Nat → Nat → List Char
  | 0, _ => []
  | width + 1, n => digits width (n / 10) ++ [Nat.digitChar (n % 10)]

@[simp]
theorem length_digits (width n : Nat) : (digits width n).length = width := by
  induction width generalizing n with
  | zero => rfl
  | succ width ih => simp [digits, ih]

theorem digit?_digitChar {n : Nat} (h : n < 10) : digit? (Nat.digitChar n) = some n := by
  revert n
  decide

theorem isDigit_digitChar {n : Nat} (h : n < 10) : (Nat.digitChar n).isDigit = true := by
  revert n
  decide

theorem isDigit_of_mem_digits {width n : Nat} {c : Char} (h : c ∈ digits width n) :
    c.isDigit = true := by
  induction width generalizing n with
  | zero => cases h
  | succ width ih =>
    rcases List.mem_append.1 h with h | h
    · exact ih h
    · rw [List.mem_singleton.1 h]
      exact isDigit_digitChar (Nat.mod_lt _ (by decide))

theorem ofDigits?_append (value : Nat) (front back : List Char) :
    ofDigits? value (front ++ back) = (ofDigits? value front).bind fun v => ofDigits? v back := by
  induction front generalizing value with
  | nil => rfl
  | cons c front ih =>
    cases h : digit? c <;> simp [ofDigits?, h, ih]

/-- The digits that are written read back as the number they were taken from. -/
theorem ofDigits?_digits {width n : Nat} (h : n < Nat.pow 10 width) :
    ofDigits? 0 (digits width n) = some n := by
  induction width generalizing n with
  | zero => simp at h; subst h; rfl
  | succ width ih =>
    have small : n / 10 < Nat.pow 10 width := by
      have h : n < Nat.pow 10 width * 10 := h
      omega
    have last : n % 10 < 10 := Nat.mod_lt _ (by decide)
    simp only [digits, ofDigits?_append, ih small, Option.bind_some, ofDigits?,
      digit?_digitChar last]
    simp only [Option.bind_eq_bind, Option.bind_some, Option.some.injEq]
    omega

end CardHolds.Numeral

/-!
# Amounts of money

An `Amount` counts the minor units of a currency.  It lies below 2 ^ 64, and no operation rounds or
wraps: sums and differences are checked (`add?`, `sub?`), and the conversions to and from the
signed 64 bit quantities of a store (`toStored`, `ofStored`) say which values they refuse.
-/

namespace CardHolds

/-- A number of minor units, below 2 ^ 64. -/
@[ext]
structure Amount where
  units : Nat
  units_lt : units < 1 <<< 64
deriving DecidableEq

/-- Why a value is not an amount, or an amount not a stored quantity. -/
inductive AmountError where
  /-- A stored quantity below zero. -/
  | negative (stored : Int64)
  /-- An amount of 2 ^ 63 or more, which no signed 64 bit quantity holds. -/
  | tooLarge (amount : Amount)
  /-- A sum of 2 ^ 64 or more. -/
  | sumTooLarge
deriving DecidableEq

namespace AmountError

/-- The words for a refused conversion or sum. -/
def message : AmountError → String
  | negative stored => s!"Value cannot be represented in minor units: {stored.toInt} is negative"
  | tooLarge amount =>
    s!"Value cannot be represented in minor units: {amount.units} is too large to store as a signed integer"
  | sumTooLarge => "attempt to add with overflow"

end AmountError

namespace Amount

instance : ToString Amount := ⟨fun a => toString a.units⟩

instance : Ord Amount := ⟨fun a b => compare a.units b.units⟩

instance : LE Amount := ⟨fun a b => a.units ≤ b.units⟩
instance : LT Amount := ⟨fun a b => a.units < b.units⟩
instance (a b : Amount) : Decidable (a ≤ b) := inferInstanceAs (Decidable (a.units ≤ b.units))
instance (a b : Amount) : Decidable (a < b) := inferInstanceAs (Decidable (a.units < b.units))

/-- No money. -/
def zero : Amount := ⟨0, by decide⟩

instance : Inhabited Amount := ⟨zero⟩

/-- The amount of `n` units, if there is one. -/
def ofNat? (n : Nat) : Option Amount :=
  if h : n < 1 <<< 64 then some ⟨n, h⟩ else none

theorem ofNat?_eq_some_iff {n : Nat} {a : Amount} : ofNat? n = some a ↔ a.units = n := by
  unfold ofNat?
  split
  · rw [Option.some.injEq, Amount.ext_iff]; exact eq_comm
  · rename_i h
    simp only [reduceCtorEq, false_iff]
    rintro rfl
    exact h a.units_lt

/-- The sum, unless it reaches 2 ^ 64. -/
def add? (a b : Amount) : Option Amount :=
  ofNat? (a.units + b.units)

/-- The difference, or nothing where it would be negative. -/
def minus (a b : Amount) : Amount :=
  ⟨a.units - b.units, Nat.lt_of_le_of_lt (Nat.sub_le _ _) a.units_lt⟩

/-- The difference, unless it would be negative. -/
def sub? (a b : Amount) : Option Amount :=
  if b.units ≤ a.units then some (a.minus b) else none

theorem add?_eq_some_iff {a b c : Amount} : a.add? b = some c ↔ c.units = a.units + b.units :=
  ofNat?_eq_some_iff

theorem add?_eq_none_iff {a b : Amount} : a.add? b = none ↔ 1 <<< 64 ≤ a.units + b.units := by
  unfold add? ofNat?
  split <;> simp <;> omega

theorem sub?_eq_some_iff {a b c : Amount} : a.sub? b = some c ↔ a.units = b.units + c.units := by
  unfold sub? minus
  split
  · rw [Option.some.injEq, Amount.ext_iff]; simp only; omega
  · simp only [reduceCtorEq, false_iff]; omega

theorem sub?_eq_none_iff {a b : Amount} : a.sub? b = none ↔ a.units < b.units := by
  unfold sub?
  split <;> simp <;> omega

/-- The sum of two amounts that are expected to fit. -/
def add (a b : Amount) : Except AmountError Amount :=
  match a.add? b with
  | some c => .ok c
  | none => .error .sumTooLarge

/-- The sum of a list, added from the left. -/
def sum (amounts : List Amount) : Except AmountError Amount :=
  amounts.foldlM add zero

/-- The stored form of an amount: a signed 64 bit quantity holds it below 2 ^ 63 only. -/
def toStored (a : Amount) : Except AmountError Int64 :=
  if a.units < 1 <<< 63 then .ok (Int64.ofNat a.units) else .error (.tooLarge a)

/-- The amount that a stored quantity stands for. -/
def ofStored (n : Int64) : Except AmountError Amount :=
  if 0 ≤ n.toInt then
    .ok ⟨n.toInt.toNat, by have := n.toInt_lt; omega⟩
  else
    .error (.negative n)

theorem toStored_eq_ok_iff {a : Amount} {n : Int64} :
    a.toStored = .ok n ↔ n.toInt = a.units := by
  have bound := a.units_lt
  unfold toStored
  split
  · rename_i h
    rw [Except.ok.injEq]
    constructor
    · rintro rfl
      exact Int64.toInt_ofNat_of_lt h
    · intro h'
      rw [← Int64.toInt_inj, h', Int64.toInt_ofNat_of_lt h]
  · simp only [reduceCtorEq, false_iff]
    have := n.toInt_lt
    omega

theorem ofStored_eq_ok_iff {a : Amount} {n : Int64} :
    ofStored n = .ok a ↔ n.toInt = a.units := by
  unfold ofStored
  split
  · rw [Except.ok.injEq, Amount.ext_iff]; simp only; omega
  · simp only [reduceCtorEq, false_iff]; omega

/-- What is stored reads back. -/
theorem ofStored_of_toStored {a : Amount} {n : Int64} (h : a.toStored = .ok n) :
    ofStored n = .ok a :=
  ofStored_eq_ok_iff.2 (toStored_eq_ok_iff.1 h)

end Amount

end CardHolds

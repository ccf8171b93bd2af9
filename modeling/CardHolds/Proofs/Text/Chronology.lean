import CardHolds.Timestamp
import CardHolds.Proofs.Text.Numeral

/-!
# The order of stored timestamps is the order in time

Timestamps are compared by the text that a store holds.  Its parts are numbers of a fixed width, the
years from 0 to 9999 included, and rows of digits of the same width are ordered as their numbers,
whatever follows them (`digits_append_lt_iff`).  Only the part of a second may be shorter or longer, by
groups of three digits.  The text of universal time that follows it starts with a plus sign, and this
comes before the point and before all digits, so a part that ends earlier comes first
(`groups_append_lt_iff`).

Hence in these years a timestamp is ordered before another one just if it comes before it in time
(`Timestamp.not_before_of_le`).
-/

namespace CardHolds

namespace Numeral

theorem digitChar_lt_iff {m n : Nat} (hm : m < 10) (hn : n < 10) :
    Nat.digitChar m < Nat.digitChar n ↔ m < n := by
  have hall : ∀ m < 10, ∀ n < 10, (Nat.digitChar m < Nat.digitChar n ↔ m < n) := by decide
  exact hall m hm n hn

theorem digitChar_inj {m n : Nat} (hm : m < 10) (hn : n < 10) :
    Nat.digitChar m = Nat.digitChar n ↔ m = n := by
  have hall : ∀ m < 10, ∀ n < 10, (Nat.digitChar m = Nat.digitChar n ↔ m = n) := by decide
  exact hall m hm n hn

/-- Rows of digits of one width are ordered as their numbers; if these are the same, what follows
decides. -/
theorem digits_append_lt_iff {width m n : Nat} (hm : m < Nat.pow 10 width) (hn : n < Nat.pow 10 width)
    (xs ys : List Char) :
    digits width m ++ xs < digits width n ++ ys ↔ m < n ∨ m = n ∧ xs < ys := by
  induction width generalizing m n xs ys with
  | zero =>
    have hm : m = 0 := Nat.lt_one_iff.mp hm
    have hn : n = 0 := Nat.lt_one_iff.mp hn
    simp [digits, hm, hn]
  | succ width ih =>
    have hm : m < Nat.pow 10 width * 10 := hm
    have hn : n < Nat.pow 10 width * 10 := hn
    have hlast (k : Nat) : k % 10 < 10 := Nat.mod_lt k (by decide)
    rw [digits, digits, List.append_assoc, List.append_assoc, List.singleton_append,
      List.singleton_append, ih (by omega) (by omega), List.cons_lt_cons_iff,
      digitChar_lt_iff (hlast m) (hlast n), digitChar_inj (hlast m) (hlast n)]
    by_cases hrest : xs < ys
    · simp only [hrest, and_true]
      omega
    · simp only [hrest, and_false, or_false]
      omega

theorem cons_lt_cons_self (c : Char) (xs ys : List Char) : c :: xs < c :: ys ↔ xs < ys := by
  rw [List.cons_lt_cons_iff]
  exact ⟨fun h => h.elim (fun h => absurd h (Char.lt_irrefl c)) And.right, fun h => Or.inr ⟨rfl, h⟩⟩

/-- A part that ends comes before one that goes on. -/
theorem plus_lt_digits (width n : Nat) (xs ys : List Char) :
    '+' :: xs < digits (width + 1) n ++ ys := by
  obtain ⟨c, rest, hdigits⟩ := List.exists_cons_of_length_eq_add_one (length_digits (width + 1) n)
  have hc : c.isDigit = true := isDigit_of_mem_digits (hdigits ▸ List.mem_cons_self)
  have hplus : '+' < c :=
    Char.not_le.mp fun h => absurd (Char.le_trans ((isDigit_iff c).mp hc).1 h) (by decide)
  rw [hdigits, List.cons_append, List.cons_lt_cons_iff]
  exact Or.inl hplus

/-- The order of numbers is that of their quotients and, if these are the same, of their remainders. -/
theorem div_mod_lt_iff {d m n : Nat} (hd : 0 < d) :
    m / d < n / d ∨ m / d = n / d ∧ m % d < n % d ↔ m < n := by
  have hm := Nat.div_add_mod m d
  have hn := Nat.div_add_mod n d
  have hm' := Nat.mod_lt m hd
  have hn' := Nat.mod_lt n hd
  rcases Nat.lt_trichotomy (m / d) (n / d) with hlt | heq | hlt
  · have hstep : d * (m / d + 1) ≤ d * (n / d) := Nat.mul_le_mul_left d hlt
    rw [Nat.mul_succ] at hstep
    exact iff_of_true (Or.inl hlt) (by omega)
  · rw [heq] at hm ⊢
    omega
  · have hstep : d * (n / d + 1) ≤ d * (m / d) := Nat.mul_le_mul_left d hlt
    rw [Nat.mul_succ] at hstep
    exact iff_of_false (by omega) (by omega)

end Numeral

namespace Timestamp

open Numeral

/-- The first timestamp is earlier in time. -/
def Before (t u : Timestamp) : Prop :=
  t.date.year < u.date.year ∨ t.date.year = u.date.year ∧
    (t.date.month < u.date.month ∨ t.date.month = u.date.month ∧
      (t.date.day < u.date.day ∨ t.date.day = u.date.day ∧
        (t.hour < u.hour ∨ t.hour = u.hour ∧
          (t.minute < u.minute ∨ t.minute = u.minute ∧
            (t.second < u.second ∨ t.second = u.second ∧ t.nanosecond < u.nanosecond)))))

/-- The year is written with four digits and without a sign. -/
def HasPlainYear (t : Timestamp) : Prop := 0 ≤ t.date.year ∧ t.date.year ≤ 9999

/-- Groups of digits that a plus sign follows are ordered as the parts that they stand for. -/
theorem groups_append_lt_iff {k m n : Nat} (hm : m < 1000 ^ k) (hn : n < 1000 ^ k) (xs : List Char) :
    groups k m ++ '+' :: xs < groups k n ++ '+' :: xs ↔ m < n := by
  induction k generalizing m n with
  | zero =>
    have hm : m = 0 := Nat.lt_one_iff.mp hm
    have hn : n = 0 := Nat.lt_one_iff.mp hn
    rw [hm, hn]
    exact iff_of_false (List.lt_irrefl _) (Nat.lt_irrefl 0)
  | succ k ih =>
    have hpos : 0 < 1000 ^ k := Nat.pow_pos (by decide)
    have hfirst {a : Nat} (ha : a < 1000 ^ (k + 1)) : a / 1000 ^ k < 1000 :=
      Nat.div_lt_of_lt_mul (by rwa [pow_succ] at ha)
    unfold groups
    split <;> split
    · rename_i hm hn
      rw [hm, hn]
      exact iff_of_false (List.lt_irrefl _) (Nat.lt_irrefl 0)
    · rw [List.append_assoc]
      exact iff_of_true (plus_lt_digits 2 _ _ _) (by omega)
    · rw [List.append_assoc]
      exact iff_of_false (List.lt_asymm (plus_lt_digits 2 _ _ _)) (by omega)
    · rw [List.append_assoc, List.append_assoc, digits_append_lt_iff (hfirst hm) (hfirst hn),
        Nat.pow_eq, ih (Nat.mod_lt m hpos) (Nat.mod_lt n hpos), div_mod_lt_iff hpos]

theorem fractionText_append_lt_iff {m n : Nat} (hm : m < 1000000000) (hn : n < 1000000000)
    (xs : List Char) :
    fractionText m ++ '+' :: xs < fractionText n ++ '+' :: xs ↔ m < n := by
  unfold fractionText
  split <;> split
  · rename_i hm hn
    rw [hm, hn]
    exact iff_of_false (List.lt_irrefl _) (Nat.lt_irrefl 0)
  · rw [List.nil_append, List.cons_append, List.cons_lt_cons_iff]
    exact iff_of_true (Or.inl (by decide)) (by omega)
  · rw [List.nil_append, List.cons_append]
    exact iff_of_false (List.lt_asymm (List.cons_lt_cons_iff.mpr (Or.inl (by decide)))) (by omega)
  · rw [List.cons_append, List.cons_append, cons_lt_cons_self]
    exact groups_append_lt_iff hm hn xs

theorem toList_storedText {t : Timestamp} (h : t.HasPlainYear) : t.storedText.toList =
    digits 4 t.date.year.natAbs ++ '-' :: (digits 2 t.date.month ++ '-' :: (digits 2 t.date.day ++ 'T' ::
      (digits 2 t.hour ++ ':' :: (digits 2 t.minute ++ ':' :: (digits 2 t.second ++
        (fractionText t.nanosecond ++ ['+', '0', '0', ':', '0', '0'])))))) := by
  obtain ⟨hlow, hhigh⟩ := h
  have hsign : Date.yearSign t.date.year = [] := by
    rw [Date.yearSign, if_neg (by omega), if_neg (by omega)]
  have hwidth : Date.yearWidth t.date.year = 4 := by
    rw [Date.yearWidth, if_pos (by omega)]
  rw [storedText, String.toList_ofList, clockText, Date.text, Date.yearText, hsign, hwidth]
  simp only [List.nil_append, List.append_assoc, List.cons_append]

/-- In the years from 0 to 9999 the order of what is stored is the order in time. -/
theorem storedText_lt_iff {t u : Timestamp} (ht : t.HasPlainYear) (hu : u.HasPlainYear) :
    t.storedText < u.storedText ↔ t.Before u := by
  have hbounds (t : Timestamp) : t.date.month < 100 ∧ t.date.day < 100 ∧ t.hour < 100 ∧
      t.minute < 100 ∧ t.second < 100 := by
    have hmonth := t.date.month_bounds
    have hday := t.date.day_bounds
    have hhour := t.hour_lt
    have hminute := t.minute_lt
    have hsecond := t.second_le
    omega
  obtain ⟨hmonth, hday, hhour, hminute, hsecond⟩ := hbounds t
  obtain ⟨hmonth', hday', hhour', hminute', hsecond'⟩ := hbounds u
  obtain ⟨hlow, hhigh⟩ := id ht
  obtain ⟨hlow', hhigh'⟩ := id hu
  have hyear : t.date.year.natAbs < 10 ^ 4 := by omega
  have hyear' : u.date.year.natAbs < 10 ^ 4 := by omega
  rw [String.lt_iff, toList_storedText ht, toList_storedText hu, digits_append_lt_iff hyear hyear',
    cons_lt_cons_self, digits_append_lt_iff hmonth hmonth', cons_lt_cons_self,
    digits_append_lt_iff hday hday', cons_lt_cons_self, digits_append_lt_iff hhour hhour',
    cons_lt_cons_self, digits_append_lt_iff hminute hminute', cons_lt_cons_self,
    digits_append_lt_iff hsecond hsecond',
    fractionText_append_lt_iff t.nanosecond_lt u.nanosecond_lt, Before]
  omega

/-- What is ordered first is not later. -/
theorem not_before_of_le {t u : Timestamp} (ht : t.HasPlainYear) (hu : u.HasPlainYear) (h : t ≤ u) :
    ¬ u.Before t := by
  rw [← storedText_lt_iff hu ht]
  exact String.not_lt.mpr h

end Timestamp

end CardHolds

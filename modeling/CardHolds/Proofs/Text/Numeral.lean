import CardHolds.Text.Numeral
import Mathlib.Data.Nat.Digits.Lemmas

/-!
# What a numeral denotes

A text `Denotes` a number if it is written with an optional plus sign and one or more of the ten digits
of ASCII, of any width, the first digit counting most.  The reader takes the digits one by one from the
left, so what it has read stands for the digits before the rest (`ofDigits?_eq_some_iff`).

Main statement (`read?_eq_some_iff`): reading below a limit gives just the number below the limit that
the text denotes, and nothing if there is none.
-/

namespace CardHolds.Numeral
variable {text : String} {ds : List Char} {value limit m n : Nat}

/-- The number that a row of decimal digits stands for in the positional system. -/
def positional (ds : List Char) : Nat :=
  Nat.ofDigits 10 (ds.reverse.map fun c => c.toNat - '0'.toNat)

theorem positional_cons (c : Char) (ds : List Char) :
    positional (c :: ds) = (c.toNat - '0'.toNat) * 10 ^ ds.length + positional ds := by
  simp only [positional, List.reverse_cons, List.map_append, List.map_cons, List.map_nil,
    Nat.ofDigits_append, Nat.ofDigits_singleton, List.length_map, List.length_reverse]
  ring

theorem positional_append (xs ys : List Char) :
    positional (xs ++ ys) = positional xs * 10 ^ ys.length + positional ys := by
  simp only [positional, List.reverse_append, List.map_append, Nat.ofDigits_append, List.length_map,
    List.length_reverse]
  ring

/-- The text is a numeral for the number: an optional plus sign, and one or more decimal digits with
this value.  There may be any number of zeros in front. -/
def Denotes (text : String) (n : Nat) : Prop :=
  ∃ sign ds : List Char, text.toList = sign ++ ds ∧ (sign = [] ∨ sign = ['+']) ∧
    ds ≠ [] ∧ (∀ c ∈ ds, '0' ≤ c ∧ c ≤ '9') ∧ n = positional ds

theorem isDigit_iff (c : Char) : c.isDigit = true ↔ '0' ≤ c ∧ c ≤ '9' := by
  simp only [Char.isDigit, Bool.and_eq_true, decide_eq_true_eq]
  rfl

/-- What has been read moves up by one place for each of the digits that follow. -/
theorem ofDigits?_eq_some_iff : ofDigits? value ds = some n ↔
    (∀ c ∈ ds, '0' ≤ c ∧ c ≤ '9') ∧ n = value * 10 ^ ds.length + positional ds := by
  induction ds generalizing value with
  | nil =>
    simp [ofDigits?, positional, eq_comm]
  | cons c ds ih =>
    by_cases hc : c.isDigit = true
    · have hvalue : (value * 10 + (c.toNat - '0'.toNat)) * 10 ^ ds.length + positional ds =
          value * 10 ^ (c :: ds).length + positional (c :: ds) := by
        rw [positional_cons, List.length_cons, pow_succ]
        ring
      rw [ofDigits?, digit?, if_pos hc, Option.bind_eq_bind, Option.bind_some, ih, hvalue,
        List.forall_mem_cons, ← isDigit_iff c, and_iff_right hc]
    · rw [ofDigits?, digit?, if_neg hc, Option.bind_eq_bind, Option.bind_none, List.forall_mem_cons,
        ← isDigit_iff c]
      exact iff_of_false (Option.some_ne_none n).symm fun h => hc h.1.1

/-- The digits that are written for a number stand for it. -/
theorem positional_digits {width : Nat} (h : n < Nat.pow 10 width) :
    positional (digits width n) = n := by
  have hdigits := (ofDigits?_eq_some_iff.mp (ofDigits?_digits h)).2
  rw [Nat.zero_mul, Nat.zero_add] at hdigits
  exact hdigits.symm

theorem natural?_eq_some_iff :
    natural? ds = some n ↔ ds ≠ [] ∧ (∀ c ∈ ds, '0' ≤ c ∧ c ≤ '9') ∧ n = positional ds := by
  cases ds with
  | nil => simp [natural?]
  | cons c ds => simp [natural?, ofDigits?_eq_some_iff]

theorem exists_sign (cs : List Char) :
    ∃ sign, cs = sign ++ unsigned cs ∧ (sign = [] ∨ sign = ['+']) := by
  unfold unsigned
  split
  · exact ⟨['+'], rfl, Or.inr rfl⟩
  · exact ⟨[], rfl, Or.inl rfl⟩

/-- A plus sign is no digit, so the digits of a numeral are all that is not its sign. -/
theorem unsigned_append {sign : List Char} (hsign : sign = [] ∨ sign = ['+'])
    (hdigits : ∀ c ∈ ds, '0' ≤ c ∧ c ≤ '9') : unsigned (sign ++ ds) = ds := by
  rcases hsign with rfl | rfl
  · rw [List.nil_append]
    unfold unsigned
    split
    · exact absurd (hdigits '+' List.mem_cons_self) (by decide)
    · rfl
  · rfl

theorem denotes_iff : Denotes text n ↔ natural? (unsigned text.toList) = some n := by
  rw [natural?_eq_some_iff]
  constructor
  · rintro ⟨sign, ds, htext, hsign, hne, hdigits, hn⟩
    rw [htext, unsigned_append hsign hdigits]
    exact ⟨hne, hdigits, hn⟩
  · rintro ⟨hne, hdigits, hn⟩
    obtain ⟨sign, htext, hsign⟩ := exists_sign text.toList
    exact ⟨sign, unsigned text.toList, htext, hsign, hne, hdigits, hn⟩

instance : Decidable (Denotes text n) := decidable_of_iff _ denotes_iff.symm

theorem Denotes.unique (hm : Denotes text m) (hn : Denotes text n) : m = n :=
  Option.some.inj ((denotes_iff.mp hm).symm.trans (denotes_iff.mp hn))

/-- A text is no numeral if it has no digit, or a character out of place: anything but a digit, a plus
sign in front apart. -/
theorem not_denotes_iff : (¬ ∃ n, Denotes text n) ↔
    unsigned text.toList = [] ∨ ∃ c ∈ unsigned text.toList, ¬ ('0' ≤ c ∧ c ≤ '9') := by
  simp only [denotes_iff, natural?_eq_some_iff, exists_and_left, exists_eq, and_true]
  rw [not_and_or, not_ne_iff]
  simp only [not_forall, exists_prop]

/-- **Reading gives the number below the limit that the text denotes.** -/
theorem read?_eq_some_iff : read? limit text = some n ↔ Denotes text n ∧ n < limit := by
  rw [read?, Option.filter_eq_some_iff, denotes_iff, decide_eq_true_iff]

end CardHolds.Numeral

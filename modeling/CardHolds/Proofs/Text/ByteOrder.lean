import CardHolds.Identifier

/-!
# The order of names is the order of their bytes

A store compares names byte by byte, in the UTF-8 encoding; the model compares them character by
character.  The two orders are the same (`AccountId.lt_iff_bytes_lt`): of two characters the greater
one has the greater encoding, and their encodings differ before either of them ends, so nothing that
follows can change the comparison (`encodeChar_append_lt`).
-/

namespace CardHolds
open String

/-- The bytes that encode a name. -/
def AccountId.bytes (id : AccountId) : List UInt8 :=
  id.text.toUTF8.data.toList

/-- Every character is a code point of Unicode. -/
theorem toNat_lt_of_char (c : Char) : c.val.toNat < 0x110000 := by
  rcases c.valid with h | h
  · exact Nat.lt_trans h (by decide)
  · exact h.2

theorem byte_lt_iff {m n : Nat} (hm : m < 256) (hn : n < 256) :
    UInt8.ofNat m < UInt8.ofNat n ↔ m < n := by
  rw [UInt8.lt_iff_toNat_lt, UInt8.toNat_ofNat_of_lt' hm, UInt8.toNat_ofNat_of_lt' hn]

theorem byte_inj {m n : Nat} (hm : m < 256) (hn : n < 256) :
    UInt8.ofNat m = UInt8.ofNat n ↔ m = n := by
  rw [← UInt8.toNat_inj, UInt8.toNat_ofNat_of_lt' hm, UInt8.toNat_ofNat_of_lt' hn]

/-- A greater character is encoded as greater bytes, whatever follows. -/
theorem encodeChar_append_lt {c d : Char} (h : c < d) (xs ys : List UInt8) :
    utf8EncodeChar c ++ xs < utf8EncodeChar d ++ ys := by
  have hval : c.val.toNat < d.val.toNat := h
  have hmax := toNat_lt_of_char d
  unfold utf8EncodeChar
  generalize c.val.toNat = m at *
  generalize d.val.toNat = n at *
  -- the digits of a code point are groups of six bits
  have hsecond (x : Nat) : x / 4096 = x / 64 / 64 := (Nat.div_div_eq_div_mul x 64 64).symm
  have hthird (x : Nat) : x / 262144 = x / 64 / 64 / 64 := by omega
  simp only [hsecond, hthird]
  -- a longer encoding has a greater first byte; two of one length are compared digit by digit
  repeat' split
  all_goals
    simp (disch := omega) only [List.cons_append, List.nil_append, List.cons_lt_cons_iff,
      byte_lt_iff, byte_inj]
    omega

theorem append_lt_append_iff (zs xs ys : List UInt8) : zs ++ xs < zs ++ ys ↔ xs < ys := by
  induction zs with
  | nil => exact Iff.rfl
  | cons z zs ih =>
    rw [List.cons_append, List.cons_append, List.cons_lt_cons_iff, ih]
    exact ⟨fun h => h.elim (fun h => absurd h (UInt8.lt_irrefl z)) And.right, fun h => Or.inr ⟨rfl, h⟩⟩

/-- Texts are ordered as their encodings are. -/
theorem flatMap_encodeChar_lt_iff (xs ys : List Char) :
    xs.flatMap utf8EncodeChar < ys.flatMap utf8EncodeChar ↔ xs < ys := by
  induction xs generalizing ys with
  | nil =>
    cases ys with
    | nil => exact iff_of_false (List.lt_irrefl _) (List.lt_irrefl _)
    | cons d ys =>
      refine iff_of_true ?_ (List.nil_lt_cons d ys)
      obtain ⟨b, bs, hbs⟩ := List.exists_cons_of_ne_nil (utf8EncodeChar_ne_nil (c := d))
      rw [List.flatMap_cons, hbs]
      exact List.nil_lt_cons b _
  | cons c xs ih =>
    cases ys with
    | nil => exact iff_of_false (List.not_lt_nil _) (List.not_lt_nil _)
    | cons d ys =>
      rw [List.flatMap_cons, List.flatMap_cons, List.cons_lt_cons_iff]
      by_cases hcd : c = d
      · rw [hcd, append_lt_append_iff, ih]
        exact ⟨fun h => Or.inr ⟨rfl, h⟩, fun h => h.elim (fun h => absurd h (Char.lt_irrefl d)) And.right⟩
      · rcases Nat.lt_or_gt_of_ne (fun h => hcd (Char.toNat_inj.mp h)) with hlt | hgt
        · exact iff_of_true (encodeChar_append_lt hlt _ _) (Or.inl hlt)
        · refine iff_of_false (List.lt_asymm (encodeChar_append_lt hgt _ _)) ?_
          rintro (hlt | ⟨heq, -⟩)
          · exact Nat.lt_asymm hgt hlt
          · exact hcd heq

theorem AccountId.bytes_eq (id : AccountId) : id.bytes = id.text.toList.flatMap utf8EncodeChar := by
  rw [bytes, toUTF8_eq_toByteArray, ← utf8Encode_toList]
  exact List.toList_data_toByteArray

/-- **Names are compared byte by byte.** -/
theorem AccountId.lt_iff_bytes_lt {a b : AccountId} : a < b ↔ a.bytes < b.bytes := by
  rw [bytes_eq, bytes_eq, flatMap_encodeChar_lt_iff, AccountId.lt_def, String.lt_iff]

end CardHolds

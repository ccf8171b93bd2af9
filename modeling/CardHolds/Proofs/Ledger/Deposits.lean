import CardHolds.Proofs.Ledger.Update
import CardHolds.Proofs.Text.Chronology

/-!
# Deposits

A deposit looks for the accounts that hold a card, selects the one that was opened first, and credits
it under the version that it read (`LedgerStore.deposit_of_holder`).  What stands in its way are the
two limits of the amounts: a sum of 2 ^ 64 or more is no amount, and one of 2 ^ 63 or more cannot be
stored.  Both are told as failed conversions.

Main statement (`Ledger.deposit_credits`): with accounts that read, a deposit credits the first holder
of its card with exactly its amount, or fails and changes nothing.
-/

namespace CardHolds

/-! ## The account that a deposit selects -/

namespace Timestamp
variable {a b c : Timestamp}

theorem le_refl (a : Timestamp) : a ≤ a := String.le_refl a.storedText

theorem le_trans (hab : a ≤ b) (hbc : b ≤ c) : a ≤ c := String.le_trans hab hbc

theorem le_of_not_le (h : ¬ a ≤ b) : b ≤ a := (String.le_total a.storedText b.storedText).resolve_left h

end Timestamp

namespace LedgerStore
variable {s : LedgerStore} {rows : List AccountRow} {row : AccountRow} {cardNumber : String}

theorem oldest?_eq_none_iff : oldest? rows = none ↔ rows = [] := by
  cases rows with
  | nil => exact iff_of_true rfl rfl
  | cons first rest =>
    refine iff_of_false (fun h => ?_) (List.cons_ne_nil first rest)
    unfold oldest? at h
    split at h
    · cases h
    · split at h <;> cases h

/-- No row of the list was opened before the oldest one. -/
theorem oldest?_le (h : oldest? rows = some row) : ∀ r ∈ rows, row.openedAt ≤ r.openedAt := by
  induction rows generalizing row with
  | nil => cases h
  | cons first rest ih =>
    intro r hr
    unfold oldest? at h
    split at h
    · rename_i hnone
      cases h
      rw [oldest?_eq_none_iff.mp hnone, List.mem_singleton] at hr
      rw [hr]
      exact Timestamp.le_refl _
    · rename_i other hother
      split at h
      · rename_i hle
        cases h
        rcases List.mem_cons.mp hr with rfl | hr
        · exact Timestamp.le_refl _
        · exact Timestamp.le_trans hle (ih hother r hr)
      · rename_i hnot
        cases h
        rcases List.mem_cons.mp hr with rfl | hr
        · exact Timestamp.le_of_not_le hnot
        · exact ih hother r hr

theorem holder?_eq_none_iff :
    s.holder? cardNumber = none ↔ ∀ row ∈ s.accounts.rows, row.card.number ≠ cardNumber := by
  rw [holder?, oldest?_eq_none_iff, List.filter_eq_nil_iff]
  simp only [decide_eq_true_iff]

theorem holder?_spec (h : s.holder? cardNumber = some row) :
    row ∈ s.accounts.rows ∧ row.card.number = cardNumber ∧
      ∀ r ∈ s.accounts.rows, r.card.number = cardNumber → row.openedAt ≤ r.openedAt := by
  obtain ⟨hmem, hcard⟩ := List.mem_filter.mp (mem_of_oldest? h)
  exact ⟨hmem, of_decide_eq_true hcard,
    fun r hr hr' => oldest?_le h r (List.mem_filter.mpr ⟨hr, decide_eq_true hr'⟩)⟩

/-- A deposit plans to raise the balance that it reads, unless the sum is no amount. -/
theorem planDeposit_of_holder {o : Account} (hrow : s.holder? cardNumber = some row)
    (hread : s.readRow row = .ok o) (amount : Amount) : s.planDeposit cardNumber amount =
      match o.balance.add? amount with
      | none => .error (.conversion (.depositTooLarge amount row.id))
      | some balance => .ok (some ⟨row.id, ⟨o.version, row.held⟩,
          { balance := some balance, expectedVersion := some o.version }⟩) := by
  obtain ⟨-, hversion, hheld⟩ := AccountRow.read_spec hread
  have hbalance : readQuantity row.balance = .ok o.balance :=
    readQuantity_of_toInt (congrArg Prod.fst hheld)
  have hread : row.version.read = .ok o.version := by rw [hversion, RowVersion.read]
  unfold planDeposit
  cases hsum : o.balance.add? amount with
  | none => simp only [hrow, hread, hbalance, hsum]
  | some balance => simp only [hrow, hread, hbalance, hsum]

/-- A balance that is too large to store is refused. -/
theorem updateBalance_of_large {balance : Amount} (h : 2 ^ 63 ≤ balance.units) (id : AccountId)
    (expected : Option Int64) :
    s.updateBalance id { balance := some balance, expectedVersion := expected } =
      (.error (.conversion (.quantity (.tooLarge balance))), s) := by
  unfold updateBalance
  simp only [Option.mapM_some, storeQuantity_eq, if_neg (Nat.not_lt.mpr h)]
  rfl

end LedgerStore

/-! ## What a deposit does -/

namespace Ledger

/-- The ledger is open, and its accounts can be read and have versions that leave room for one more
write. -/
structure Writable (l : Ledger) : Prop where
  isOpen : l.closed = false
  readable : ∀ row ∈ l.store.accounts.rows,
    ∃ a, l.account row.id = .ok a ∧ a.version.toInt < 2 ^ 63 - 1

/-- The account holds the card, and of all that do it has the least opening time, as it is stored; in
the years from 0 to 9999 it is the first in time. -/
structure FirstHolder (l : Ledger) (cardNumber : String) (o : Account) : Prop where
  shown : l.account o.id = .ok o
  holds : o.card.number = cardNumber
  least : ∀ id a, l.account id = .ok a → a.card.number = cardNumber → o.openedAt ≤ a.openedAt
  first : ∀ id a, l.account id = .ok a → a.card.number = cardNumber →
    o.openedAt.HasPlainYear → a.openedAt.HasPlainYear → ¬ a.openedAt.Before o.openedAt

variable {l : Ledger} {cardNumber : String} {amount : Amount} {row : AccountRow}

/-- The row that a deposit selects reads as the first holder of the card. -/
theorem Writable.firstHolder (h : l.Writable) (hrow : l.store.holder? cardNumber = some row) :
    ∃ o, l.account row.id = .ok o ∧ o.version.toInt < 2 ^ 63 - 1 ∧ l.FirstHolder cardNumber o := by
  obtain ⟨hmem, hcard, hleast⟩ := LedgerStore.holder?_spec hrow
  obtain ⟨o, ho, hv⟩ := h.readable row hmem
  obtain ⟨row', hrow', hread⟩ := exists_row_of_account ho
  cases (Table.find?_key hmem).symm.trans hrow'
  obtain ⟨hocard, hotime, -⟩ := AccountRow.shown_of_read hread
  have least : ∀ id a, l.account id = .ok a → a.card.number = cardNumber →
      o.openedAt ≤ a.openedAt := by
    intro id a ha hacard
    obtain ⟨r, hr, hread'⟩ := exists_row_of_account ha
    obtain ⟨hcard', htime', -⟩ := AccountRow.shown_of_read hread'
    rw [hotime, htime']
    exact hleast r (Table.mem_of_find? hr) (hcard' ▸ hacard)
  refine ⟨o, ho, hv, ?_, hocard ▸ hcard, least, fun id a ha hacard hplain hplain' =>
    Timestamp.not_before_of_le hplain hplain' (least id a ha hacard)⟩
  rw [(AccountRow.read_spec hread).1]
  exact ho

/-- A deposit that fits is credited to the account that was selected. -/
theorem deposit_of_fits {o : Account} (hopen : l.closed = false)
    (hrow : l.store.holder? cardNumber = some row) (ho : l.account row.id = .ok o)
    (hv : o.version.toInt < 2 ^ 63 - 1) (hfits : o.balance.units + amount.units < 2 ^ 63) :
    ∃ balance l', balance.units = o.balance.units + amount.units ∧
      l.deposit cardNumber amount =
        (.ok { o with balance := balance, version := o.version + 1 }, l') ∧
      l.Replaces { o with balance := balance, version := o.version + 1 } l' := by
  obtain ⟨row', hrow', hread⟩ := exists_row_of_account ho
  cases (LedgerStore.find?_of_holder? hrow).symm.trans hrow'
  cases hsum : o.balance.add? amount with
  | none =>
    have hlarge := Amount.add?_eq_none_iff.mp hsum
    omega
  | some balance =>
    have hunits : balance.units = o.balance.units + amount.units := Amount.add?_eq_some_iff.mp hsum
    have hplan := LedgerStore.planDeposit_of_holder hrow hread amount
    rw [hsum] at hplan
    obtain ⟨l', hupdate, hreplaces⟩ := updateBalance_of_read ho
      (u := { balance := some balance, expectedVersion := some o.version })
      ⟨fun b hb => by cases hb; omega, fun b hb => by cases hb⟩ (fun v hv => (Option.some.inj hv).symm)
      (by omega)
    refine ⟨balance, l', hunits, ?_, hreplaces⟩
    rw [deposit_eq, read, hopen, if_neg Bool.false_ne_true, hplan]
    exact hupdate

/-- A deposit that does not fit is refused. -/
theorem deposit_of_large {o : Account} (hopen : l.closed = false)
    (hrow : l.store.holder? cardNumber = some row) (ho : l.account row.id = .ok o)
    (hlarge : 2 ^ 63 ≤ o.balance.units + amount.units) :
    ∃ cause, l.deposit cardNumber amount = (.error (.conversion cause), l) := by
  obtain ⟨row', hrow', hread⟩ := exists_row_of_account ho
  cases (LedgerStore.find?_of_holder? hrow).symm.trans hrow'
  have hplan := LedgerStore.planDeposit_of_holder hrow hread amount
  rw [deposit_eq, read, hopen, if_neg Bool.false_ne_true, hplan]
  cases hsum : o.balance.add? amount with
  | none => exact ⟨_, rfl⟩
  | some balance =>
    have hunits : balance.units = o.balance.units + amount.units := Amount.add?_eq_some_iff.mp hsum
    have hclosed : ¬ l.closed = true := Bool.eq_false_iff.mp hopen
    refine ⟨.quantity (.tooLarge balance), ?_⟩
    simp only
    rw [updateBalance, change, if_neg hclosed, LedgerStore.updateBalance_of_large (hunits ▸ hlarge)]

/-- A deposit to a card that nobody holds is refused. -/
theorem deposit_of_noHolder (hopen : l.closed = false) (hrow : l.store.holder? cardNumber = none) :
    l.deposit cardNumber amount = (.error .cardNotFound, l) := by
  rw [deposit_eq, read, hopen, if_neg Bool.false_ne_true, LedgerStore.planDeposit, hrow]

/-- What a deposit of an amount to a card does. -/
structure Deposits (l : Ledger) (cardNumber : String) (amount : Amount) : Prop where
  cardNotFound_iff : (l.deposit cardNumber amount).1 = .error .cardNotFound ↔
    ∀ id a, l.account id = .ok a → a.card.number ≠ cardNumber
  /-- A holder of the card is selected.  If the sum fits the store, it is answered with exactly this
  balance and the next version, and the ledger shows it so; a larger sum is a failed conversion. -/
  holder : ∀ id a, l.account id = .ok a → a.card.number = cardNumber →
    ∃ o, l.FirstHolder cardNumber o ∧
      (o.balance.units + amount.units ≤ 2 ^ 63 - 1 →
        ∃ balance l', balance.units = o.balance.units + amount.units ∧
          (o.version + 1).toInt = o.version.toInt + 1 ∧
          l.deposit cardNumber amount =
            (.ok { o with balance := balance, version := o.version + 1 }, l') ∧
          l.Replaces { o with balance := balance, version := o.version + 1 } l') ∧
      (2 ^ 63 - 1 < o.balance.units + amount.units →
        ∃ cause, l.deposit cardNumber amount = (.error (.conversion cause), l))
  /-- A deposit fails for no other reason, and then nothing has changed. -/
  failed : ∀ e, (l.deposit cardNumber amount).1 = .error e →
    (l.deposit cardNumber amount).2 = l ∧ (e = .cardNotFound ∨ ∃ cause, e = .conversion cause)
  /-- No account changes but the one in the answer. -/
  others : ∀ id, (∀ o, (l.deposit cardNumber amount).1 = .ok o → id ≠ o.id) →
    (l.deposit cardNumber amount).2.account id = l.account id

/-- **A deposit credits one account exactly, or nothing.** -/
theorem deposit_credits (h : l.Writable) (cardNumber : String) (amount : Amount) :
    l.Deposits cardNumber amount := by
  cases hrow : l.store.holder? cardNumber with
  | none =>
    have hdeposit : l.deposit cardNumber amount = (.error .cardNotFound, l) :=
      deposit_of_noHolder h.isOpen hrow
    have hnobody : ∀ id a, l.account id = .ok a → a.card.number ≠ cardNumber := by
      intro id a ha
      obtain ⟨row, hfound, hread⟩ := exists_row_of_account ha
      rw [(AccountRow.shown_of_read hread).1]
      exact LedgerStore.holder?_eq_none_iff.mp hrow row (Table.mem_of_find? hfound)
    refine ⟨iff_of_true (by rw [hdeposit]) hnobody, fun id a ha hcard => absurd hcard (hnobody id a ha),
      fun e he => ?_, fun id _ => by rw [hdeposit]⟩
    rw [hdeposit] at he ⊢
    cases he
    exact ⟨rfl, Or.inl rfl⟩
  | some row =>
    obtain ⟨o, ho, hv, hfirst⟩ := h.firstHolder hrow
    have hsomebody : ¬ ∀ id a, l.account id = .ok a → a.card.number ≠ cardNumber :=
      fun hnobody => hnobody o.id o hfirst.shown hfirst.holds
    rcases Nat.lt_or_ge (o.balance.units + amount.units) (2 ^ 63) with hfits | hlarge
    · obtain ⟨balance, l', hunits, hdeposit, hreplaces⟩ :=
        deposit_of_fits h.isOpen hrow ho hv hfits
      refine ⟨iff_of_false (fun he => ?_) hsomebody, fun _ _ _ _ => ⟨o, hfirst, fun _ => ⟨balance, l',
        hunits, Int64.toInt_add_one (by omega), hdeposit, hreplaces⟩, fun hlarge => by omega⟩,
        fun e he => ?_, fun id hid => ?_⟩
      · rw [hdeposit] at he
        cases he
      · rw [hdeposit] at he
        cases he
      · rw [hdeposit] at hid ⊢
        exact hreplaces.account_of_ne (hid _ rfl)
    · obtain ⟨cause, hdeposit⟩ := deposit_of_large h.isOpen hrow ho hlarge
      refine ⟨iff_of_false (fun he => ?_) hsomebody, fun _ _ _ _ => ⟨o, hfirst, fun hfits => by omega,
        fun _ => ⟨cause, hdeposit⟩⟩, fun e he => ?_, fun id _ => by rw [hdeposit]⟩
      · rw [hdeposit] at he
        cases he
      · rw [hdeposit] at he ⊢
        cases he
        exact ⟨rfl, Or.inr ⟨cause, rfl⟩⟩

end Ledger

/-! ## A card with two holders -/

namespace SharedCard

open Sample

/-- A moment of a certain second. -/
def moment (nanosecond : Nat) : Timestamp :=
  ((Date.ofNumbers? 2024 5 6).bind fun date => Timestamp.onDate? date 7 8 9 nanosecond).getD default

/-- An account with the card. -/
def row (name : String) (openedAt : Timestamp) (balance : Int64) : AccountRow :=
  { AccountRow.opened ⟨name⟩ openedAt (details "Cora") with balance := balance }

/-- The account that comes first in the store was opened later, by less than a second. -/
def ledger : Ledger where
  store :=
    ⟨⟨[row "a" (moment 900000000) 30, row "b" (moment 100000000) 7], by decide⟩, []⟩

/-- The account that was opened first, with the given balance and version. -/
def elder (balance : Amount) (version : Int64) : Account :=
  ⟨⟨"b"⟩, "Cora", "Lind", card, balance, .zero, [], version, moment 100000000⟩

theorem writable : ledger.Writable := by
  refine ⟨rfl, fun row hrow => ?_⟩
  rcases List.mem_cons.mp hrow with rfl | hrow
  · exact ⟨_, rfl, by decide⟩
  · rw [List.mem_singleton.mp hrow]
    exact ⟨_, rfl, by decide⟩

/-- Five units go to the older account, and as many as there are to nobody. -/
theorem deposit_credits_sharedCard :
    ledger.Writable ∧
      (ledger.store.accounts.rows.map fun row => (row.id.text, row.openedAt.storedText)) =
        [("a", "2024-05-06T07:08:09.900+00:00"), ("b", "2024-05-06T07:08:09.100+00:00")] ∧
      ledger.account ⟨"b"⟩ = .ok (elder ⟨7, by decide⟩ 0) ∧
      (ledger.deposit card.number ⟨5, by decide⟩).1 = .ok (elder ⟨12, by decide⟩ 1) ∧
      (∃ cause, ledger.deposit card.number ⟨2 ^ 64 - 1, by decide⟩ =
        (.error (.conversion cause), ledger)) := by
  have hshown : ledger.account ⟨"b"⟩ = .ok (elder ⟨7, by decide⟩ 0) := by decide +kernel
  have hanswer : (ledger.deposit card.number ⟨5, by decide⟩).1 = .ok (elder ⟨12, by decide⟩ 1) := by
    decide +kernel
  obtain ⟨o, -, -, hlarge⟩ := (Ledger.deposit_credits writable card.number
    ⟨2 ^ 64 - 1, by decide⟩).holder ⟨"b"⟩ _ hshown rfl
  exact ⟨writable, by decide +kernel, hshown, hanswer, hlarge (by simp only; omega)⟩

end SharedCard

end CardHolds

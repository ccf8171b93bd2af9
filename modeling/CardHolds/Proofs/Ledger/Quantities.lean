import CardHolds.Ledger.Scan
import CardHolds.Proofs.Ledger.Conversion

/-!
# What the ledger writes it can read

No operation leaves an account with a quantity below zero (`LedgerStore.Nonneg`), so every quantity
that is stored is one that can be read, and an account, a statement or a page of accounts is refused
for other reasons only.  An operation fails to convert a quantity only if it was to write one that is
too large (`Ledger.tooLarge_of_conversion`).
-/

namespace CardHolds

namespace LedgerStore
variable {s : LedgerStore}

/-- No account holds anything below zero. -/
def Nonneg (s : LedgerStore) : Prop :=
  ∀ x row, s.accounts.find? x = some row → row.belowZero? = none

theorem nonneg_of_rows_eq_nil (h : s.accounts.rows = []) : s.Nonneg := by
  intro x row hrow
  rw [Table.find?, h] at hrow
  cases hrow

theorem Nonneg.of_mem (h : s.Nonneg) {row : AccountRow} (hrow : row ∈ s.accounts.rows) :
    row.belowZero? = none :=
  h row.id row (Table.find?_key hrow)

/-! ## Operations -/

theorem Nonneg.insert (h : s.Nonneg) (id : AccountId) (now : Timestamp) (details : NewAccount) :
    (s.insert id now details).2.Nonneg := by
  intro x row hrow
  rw [find?_insert] at hrow
  split at hrow
  · cases hfound : s.accounts.find? id with
    | none =>
      rw [hfound] at hrow
      cases hrow
      rfl
    | some row' =>
      rw [hfound] at hrow
      cases hrow
      exact h id row' hfound
  · exact h x row hrow

theorem Nonneg.amend (h : s.Nonneg) (id : AccountId) (update : AccountUpdate) :
    (s.amend id update).2.Nonneg := by
  intro x row hrow
  rw [find?_amend] at hrow
  split at hrow
  · obtain ⟨row', hrow', rfl⟩ := Option.map_eq_some_iff.mp hrow
    exact h x row' hrow'
  · exact h x row hrow

theorem Nonneg.delete (h : s.Nonneg) (id : AccountId) : (s.delete id).2.Nonneg := by
  intro x row hrow
  rw [find?_delete] at hrow
  split at hrow
  · cases hrow
  · exact h x row hrow

theorem Nonneg.updateBalance (h : s.Nonneg) (id : AccountId) (u : BalanceUpdate) :
    (s.updateBalance id u).2.Nonneg := by
  intro x row hrow
  rcases s.updateBalance_cases id u with ⟨e, he⟩ | ⟨before, after, hwritten⟩
  · rw [he] at hrow
    exact h x row hrow
  · rw [hwritten.stored] at hrow
    split at hrow
    · cases hrow
      exact AccountRow.belowZero?_of_nonneg hwritten.balance_nonneg hwritten.blocked_nonneg
    · exact h x row hrow

theorem Nonneg.deposit (h : s.Nonneg) (cardNumber : String) (amount : Amount) :
    (s.deposit cardNumber amount).2.Nonneg := by
  rw [deposit_eq]
  cases s.planDeposit cardNumber amount with
  | error e => exact h
  | ok plan =>
    cases plan with
    | none => exact h
    | some plan => exact h.updateBalance plan.account plan.update

theorem Nonneg.append (h : s.Nonneg) (id : AccountId) (payment : PaymentId) :
    (s.append id payment).2.Nonneg := fun x row hrow => h x row (find?_append s id payment x ▸ hrow)

/-! ## Readers -/

/-- An account that holds nothing below zero is not read only if its version cannot be. -/
theorem Nonneg.readRow_error (h : s.Nonneg) {row : AccountRow} (hrow : row ∈ s.accounts.rows)
    {e : LedgerError} (he : s.readRow row = .error e) : e = .database .versionOutgrown := by
  rcases AccountRow.read_error he with hversion | ⟨hbelow, -⟩
  · exact hversion
  · exact absurd (h.of_mem hrow) hbelow

theorem Nonneg.fetch_error (h : s.Nonneg) {id : AccountId} {e : LedgerError}
    (he : s.fetch id = .error e) : e = .database .versionOutgrown := by
  unfold fetch at he
  cases hrow : s.accounts.find? id with
  | none =>
    rw [hrow] at he
    cases he
  | some row =>
    rw [hrow] at he
    exact h.readRow_error (Table.mem_of_find? hrow) (error_of_map he)

theorem mem_of_pageRows {after : Option AccountId} {limit : Nat} {row : AccountRow}
    (h : row ∈ s.pageRows after limit) : row ∈ s.accounts.rows := by
  have hsorted : ∀ row ∈ s.sortedRows, row ∈ s.accounts.rows := fun row hrow =>
    List.mem_mergeSort.mp hrow
  have hrest := List.mem_of_mem_take h
  cases after with
  | none => exact hsorted row hrest
  | some id => exact hsorted row (List.mem_filter.mp hrest).1

theorem Nonneg.page_error (h : s.Nonneg) {after : Option AccountId} {limit : Nat} {e : LedgerError}
    (he : s.page after limit = .error e) : e = .database .versionOutgrown := by
  unfold page at he
  simp only at he
  cases hversions : (s.pageRows after limit).mapM fun row => row.version.read with
  | error e' =>
    rw [hversions] at he
    cases he
    obtain ⟨row, -, hversion⟩ := exists_of_mapM_error hversions
    exact RowVersion.read_error hversion
  | ok versions =>
    rw [hversions] at he
    obtain ⟨row, hrow, hread⟩ := exists_of_mapM_error he
    exact h.readRow_error (mem_of_pageRows hrow) hread

/-! ## Writers -/

/-- The operation is to write a quantity that is too large to be stored: one of an update, or the
balance after a deposit. -/
def TooLarge (s : LedgerStore) : Ledger.Command → Prop
  | .updateBalance _ u => ¬ u.Storable
  | .deposit cardNumber amount =>
    ∃ row, s.holder? cardNumber = some row ∧ 2 ^ 63 ≤ row.balance.toInt + amount.units
  | .create _ | .account _ | .statement _ | .amend _ _ | .delete _ | .append _ _ => False

theorem isConversion_of_insert {id : AccountId} {now : Timestamp} {details : NewAccount}
    {e : LedgerError} (he : (s.insert id now details).1 = .error e) : e.isConversion = false := by
  unfold LedgerStore.insert at he
  simp only at he
  split at he
  · rcases AccountRow.read_error he with rfl | ⟨hbelow, -⟩
    · rfl
    · exact absurd rfl hbelow
  · cases he
    rfl

theorem Nonneg.isConversion_of_amend (h : s.Nonneg) {id : AccountId} {update : AccountUpdate}
    {e : LedgerError} (he : (s.amend id update).1 = .error e) : e.isConversion = false := by
  have hafter := h.amend id update
  unfold LedgerStore.amend at he hafter
  split at he
  · rw [h.fetch_error he]
    rfl
  · rename_i hempty
    rw [if_neg hempty] at hafter
    rw [hafter.fetch_error he]
    rfl

/-- An update of quantities that can be stored does not fail to convert them. -/
theorem isConversion_of_updateBalance {id : AccountId} {u : BalanceUpdate} {e : LedgerError}
    (hu : u.Storable) (he : (s.updateBalance id u).1 = .error e) : e.isConversion = false := by
  rcases updateBalance_error he with ⟨hlarge, -⟩ | rfl | ⟨cause, rfl⟩ | ⟨_, _, -, rfl⟩
  · exact absurd hu hlarge
  · rfl
  · rfl
  · rfl

theorem Nonneg.tooLarge_of_deposit (h : s.Nonneg) {cardNumber : String} {amount : Amount}
    {e : LedgerError} (he : (s.deposit cardNumber amount).1 = .error e)
    (hc : e.isConversion = true) : s.TooLarge (.deposit cardNumber amount) := by
  unfold LedgerStore.deposit at he
  cases hholder : s.holder? cardNumber with
  | none =>
    rw [hholder] at he
    cases he
  | some row =>
    refine ⟨row, hholder, ?_⟩
    rw [hholder] at he
    simp only at he
    cases hversion : row.version.read with
    | error e' =>
      rw [hversion] at he
      cases he
      rw [RowVersion.read_error hversion] at hc
      cases hc
    | ok version =>
      cases hcurrent : readQuantity row.balance with
      | error e' =>
        obtain ⟨hneg, -⟩ := readQuantity_error hcurrent
        have hbelow := h row.id row (find?_of_holder? hholder)
        exact absurd (AccountRow.nonneg_of_belowZero? hbelow).1 (Int.not_le.mpr hneg)
      | ok current =>
        have hbalance : row.balance.toInt = current.units := readQuantity_eq_ok hcurrent
        rw [hversion, hcurrent] at he
        simp only at he
        split at he
        · rename_i hsum
          have hlarge := Amount.add?_eq_none_iff.mp hsum
          omega
        · rename_i balance hsum
          -- the sum is an amount, but none that can be stored
          by_contra hsmall
          have hunits := Amount.add?_eq_some_iff.mp hsum
          have hstorable : BalanceUpdate.Storable
              { balance := some balance, expectedVersion := some version } :=
            ⟨fun a ha => by cases ha; omega, fun a ha => by cases ha⟩
          rw [isConversion_of_updateBalance hstorable (error_of_map he)] at hc
          cases hc

end LedgerStore

namespace Ledger
variable {l : Ledger} {α : Type}

theorem nonneg_change (h : l.store.Nonneg)
    {operation : LedgerStore → Except LedgerError α × LedgerStore}
    (hoperation : (operation l.store).2.Nonneg) : (l.change operation).2.store.Nonneg := by
  rcases l.store_change operation with hstore | hstore
  · rwa [hstore]
  · rwa [hstore]

/-- **No operation takes a quantity below zero.** -/
theorem nonneg_perform (h : l.store.Nonneg) (fresh : AccountId) (now : Timestamp)
    (command : Command) : (l.perform fresh now command).2.store.Nonneg := by
  cases command with
  | create details => exact nonneg_change h (h.insert fresh now details)
  | account id => exact h
  | statement id => exact h
  | amend id update => exact nonneg_change h (h.amend id update)
  | delete id => exact nonneg_change h (h.delete id)
  | deposit card amount => exact nonneg_change h (h.deposit card amount)
  | updateBalance id u => exact nonneg_change h (h.updateBalance id u)
  | append id payment => exact nonneg_change h (h.append id payment)

/-- Why a ledger without quantities below zero does not show an account. -/
theorem account_error (h : l.store.Nonneg) {id : AccountId} {e : LedgerError}
    (he : l.account id = .error e) :
    e = .database .closed ∨ e = .accountNotFound id ∨ e = .database .versionOutgrown := by
  unfold account read at he
  split at he
  · cases he
    exact Or.inl rfl
  · simp only at he
    cases hfetch : l.store.fetch id with
    | error e' =>
      rw [hfetch] at he
      cases he
      exact Or.inr (Or.inr (h.fetch_error hfetch))
    | ok found =>
      rw [hfetch] at he
      cases found with
      | none =>
        cases he
        exact Or.inr (Or.inl rfl)
      | some a => cases he

theorem isConversion_of_account (h : l.store.Nonneg) {id : AccountId} {e : LedgerError}
    (he : l.account id = .error e) : e.isConversion = false := by
  rcases account_error h he with rfl | rfl | rfl <;> rfl

theorem page_error (h : l.store.Nonneg) {after : Option AccountId} {limit : Nat} {e : LedgerError}
    (he : l.page after limit = .error e) :
    e = .database .closed ∨ e = .database .versionOutgrown := by
  unfold page read at he
  split at he
  · cases he
    exact Or.inl rfl
  · exact Or.inr (h.page_error he)

theorem error_of_change {operation : LedgerStore → Except LedgerError α × LedgerStore}
    {e : LedgerError} (he : (l.change operation).1 = .error e) (hc : e.isConversion = true) :
    (operation l.store).1 = .error e := by
  unfold change at he
  split at he
  · cases he
    cases hc
  · exact he

theorem isConversion_of_require {error e : LedgerError} {x : Except LedgerError (Option α)}
    (herror : error.isConversion = false) (he : require error x = .error e)
    (hc : e.isConversion = true) : x = .error e := by
  match x with
  | .ok (some a) => cases he
  | .ok none =>
    cases he
    rw [herror] at hc
    cases hc
  | .error e' =>
    cases he
    rfl

/-- **An operation fails to convert only what is too large.** -/
theorem tooLarge_of_conversion (h : l.store.Nonneg) {fresh : AccountId} {now : Timestamp}
    {command : Command} {e : LedgerError} (he : (l.perform fresh now command).1 = .error e)
    (hc : e.isConversion = true) : l.store.TooLarge command := by
  have never : e.isConversion = false → l.store.TooLarge command := fun hfalse => by
    rw [hfalse] at hc
    cases hc
  cases command with
  | create details =>
    exact never (LedgerStore.isConversion_of_insert (error_of_change (error_of_map he) hc))
  | account id => exact never (isConversion_of_account h (error_of_map he))
  | statement id => exact never (isConversion_of_account h (error_of_map (error_of_map he)))
  | amend id update =>
    exact never (h.isConversion_of_amend
      (isConversion_of_require rfl (error_of_change (error_of_map he) hc) hc))
  | delete id =>
    have hdelete := error_of_change (error_of_map he) hc
    simp only at hdelete
    split at hdelete
    · cases hdelete
    · cases hdelete
      exact never rfl
  | deposit card amount =>
    exact h.tooLarge_of_deposit
      (isConversion_of_require rfl (error_of_change (error_of_map he) hc) hc) hc
  | updateBalance id u =>
    intro hu
    rw [LedgerStore.isConversion_of_updateBalance hu (error_of_change (error_of_map he) hc)] at hc
    cases hc
  | append id payment =>
    have happend := error_of_change (error_of_map he) hc
    unfold LedgerStore.append at happend
    split at happend
    · cases happend
    · cases happend
      exact never rfl

end Ledger

namespace Scan

theorem page_of_nextPage {scan : Scan} {l : Ledger} {e : LedgerError}
    (h : .error e ∈ (scan.nextPage l).1) : ∃ after limit, l.page after limit = .error e := by
  unfold nextPage at h
  split at h
  · cases h
  · split at h
    · rename_i hpage
      cases List.mem_singleton.mp h
      exact ⟨_, _, hpage⟩
    · obtain ⟨a, -, ha⟩ := List.mem_map.mp h
      cases ha

/-- An error that a scan delivers is that of a page. -/
theorem page_of_error {scan : Scan} {ledgers : List Ledger} {e : LedgerError}
    (h : .error e ∈ (scan.run ledgers).1) :
    ∃ l ∈ ledgers, ∃ after limit, l.page after limit = .error e := by
  induction ledgers generalizing scan with
  | nil => cases h
  | cons l rest ih =>
    rcases List.mem_append.mp h with h | h
    · obtain ⟨after, limit, hpage⟩ := page_of_nextPage h
      exact ⟨l, List.mem_cons_self, after, limit, hpage⟩
    · obtain ⟨l', hl', hpage⟩ := ih h
      exact ⟨l', List.mem_cons_of_mem l hl', hpage⟩

end Scan

end CardHolds

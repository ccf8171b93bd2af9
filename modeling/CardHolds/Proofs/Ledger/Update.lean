import CardHolds.Proofs.Ledger.Failure

/-!
# Updates of accounts that were read

An update made from an account as the ledger shows it is carried out, if it expects the version that
was shown, its quantities can be stored and there is a next version (`Ledger.updateBalance_of_read`).
Afterwards the ledger shows the new account in the place of the old one and is otherwise the same
(`Ledger.Replaces`).  A quantity that is too large is refused, and nothing has changed
(`Ledger.updateBalance_tooLarge`).
-/

namespace CardHolds

theorem Int64.toInt_add_one {n : Int64} (h : n.toInt + 1 < 2 ^ 63) : (n + 1).toInt = n.toInt + 1 := by
  have hlow := n.le_toInt
  rw [Int64.toInt_add]
  exact Int.bmod_eq_of_le (by simp; omega) (by simp; omega)

theorem RowVersion.next_counted {n : Int64} (h : n.toInt + 1 < 2 ^ 63) :
    (RowVersion.counted n).next = .counted (n + 1) := by
  refine if_neg fun hmax => ?_
  rw [hmax] at h
  exact absurd h (by decide)

/-- The account after its quantities were written. -/
def Account.write (a : Account) (balance blocked : Amount) : Account :=
  { a with balance := balance, blocked := blocked, version := a.version + 1 }

@[simp] theorem Account.id_write (a : Account) (balance blocked : Amount) :
    (a.write balance blocked).id = a.id := rfl

namespace BalanceUpdate
variable (u : BalanceUpdate) (held : Delta)

/-- An update leaves the quantities that it writes, and otherwise those that there were. -/
theorem add_change_fst : (held + u.change held).1 = u.balance.elim held.1 fun b => b.units :=
  add_sub_cancel _ _

theorem add_change_snd : (held + u.change held).2 = u.blocked.elim held.2 fun b => b.units :=
  add_sub_cancel _ _

theorem add_change (balance blocked : Amount) (version : Option Int64) (held : Delta) :
    held + change ⟨some balance, some blocked, version⟩ held = (↑balance.units, ↑blocked.units) :=
  Prod.ext (add_change_fst _ held) (add_change_snd _ held)

theorem add_change_held (a : Account) : a.held + u.change a.held =
    (↑(u.balance.getD a.balance).units, ↑(u.blocked.getD a.blocked).units) := by
  refine Prod.ext ((u.add_change_fst a.held).trans ?_) ((u.add_change_snd a.held).trans ?_)
  · cases u.balance <;> rfl
  · cases u.blocked <;> rfl

end BalanceUpdate

theorem LedgerStore.readRow_of_entries_eq {s s' : LedgerStore} (h : s'.entries = s.entries)
    (row : AccountRow) : s'.readRow row = s.readRow row := by
  rw [readRow, statement, h, readRow, statement]

theorem readQuantity_of_toInt {a : Amount} {n : Int64} (h : n.toInt = a.units) :
    readQuantity n = .ok a := by
  rw [readQuantity, Amount.ofStored_eq_ok_iff.mpr h]
  rfl

/-- What is written to a row that reads is what it reads as. -/
theorem AccountRow.read_write {row : AccountRow} {statement : List PaymentId} {a : Account}
    (h : row.read statement = .ok a) {b k : Option Int64} {balance blocked : Amount}
    (hheld : (row.write b k).held = ((balance.units : ℤ), (blocked.units : ℤ)))
    (hv : a.version.toInt + 1 < 2 ^ 63) :
    (row.write b k).read statement = .ok (a.write balance blocked) := by
  have hcounted := (read_spec h).2.1
  obtain ⟨hbalance, hblocked⟩ := Prod.mk.inj hheld
  unfold read at h
  obtain ⟨version, hversion, h⟩ := ok_of_bind h
  obtain ⟨_, -, h⟩ := ok_of_bind h
  obtain ⟨_, -, h⟩ := ok_of_bind h
  cases h
  have hnext : (row.write b k).version = .counted (version + 1) :=
    (congrArg RowVersion.next hcounted).trans (RowVersion.next_counted hv)
  simp only [read, hnext, RowVersion.read, readQuantity_of_toInt hbalance,
    readQuantity_of_toInt hblocked]
  rfl

namespace Ledger
variable {l l' : Ledger} {id : AccountId} {a : Account}

/-- The ledger `l'` shows `a` and is otherwise the same as `l`. -/
structure Replaces (l : Ledger) (a : Account) (l' : Ledger) : Prop where
  account : ∀ id, l'.account id = if id = a.id then .ok a else l.account id
  entries : l'.store.entries = l.store.entries
  closed : l'.closed = l.closed

theorem Replaces.account_self {a' : Account} (h : l.Replaces a l') (hid : a'.id = a.id) :
    l'.account a'.id = .ok a :=
  (h.account _).trans (if_pos hid)

theorem Replaces.account_of_ne (h : l.Replaces a l') (hid : id ≠ a.id) :
    l'.account id = l.account id :=
  (h.account id).trans (if_neg hid)

theorem Replaces.trans {l'' : Ledger} {b : Account} (h : l.Replaces a l') (h' : l'.Replaces b l'')
    (hid : a.id = b.id) : l.Replaces b l'' where
  account id := by
    rw [h'.account, h.account, hid]
    split <;> rfl
  entries := h'.entries.trans h.entries
  closed := h'.closed.trans h.closed

/-- **An update of an account as it was read is carried out**, and what it does not write stays. -/
theorem updateBalance_of_read (h : l.account id = .ok a) {u : BalanceUpdate} (storable : u.Storable)
    (expected : ∀ v, u.expectedVersion = some v → v = a.version) (hv : a.version.toInt + 1 < 2 ^ 63) :
    ∃ l', l.updateBalance id u =
        (.ok (a.write (u.balance.getD a.balance) (u.blocked.getD a.blocked)), l') ∧
      l.Replaces (a.write (u.balance.getD a.balance) (u.blocked.getD a.blocked)) l' := by
  have hopen := open_of_account h
  obtain ⟨row, hrow, hread⟩ := exists_row_of_account h
  obtain ⟨hid, hversion, hrowHeld⟩ := AccountRow.read_spec hread
  have haid : a.id = id := hid.trans (Table.key_of_find? hrow)
  have hexpects : LedgerStore.expects u.expectedVersion row = true := by
    cases hv : u.expectedVersion with
    | none => rfl
    | some v => exact decide_eq_true (expected v hv ▸ hversion)
  have haccepts : l.store.Accepts id u row := by
    refine ⟨storable, hrow, hexpects, ?_⟩
    rw [hrowHeld, BalanceUpdate.add_change_held]
    exact ⟨Int.natCast_nonneg _, Int.natCast_nonneg _⟩
  obtain ⟨b, k, s', hheld, hentries, haccounts, heq⟩ := haccepts.updateBalance_eq
  rw [hrowHeld, BalanceUpdate.add_change_held] at hheld
  have hread' : s'.readRow (row.write b k) =
      .ok (a.write (u.balance.getD a.balance) (u.blocked.getD a.blocked)) := by
    rw [LedgerStore.readRow_of_entries_eq hentries]
    exact AccountRow.read_write hread hheld hv
  refine ⟨{ l with store := s' }, ?_, fun x => ?_, hentries, rfl⟩
  · rw [updateBalance, change, hopen, if_neg Bool.false_ne_true, heq, hread']
  · have hfind : s'.accounts.find? x =
        if x = id then (l.store.accounts.find? x).map (·.write b k) else l.store.accounts.find? x := by
      rw [haccounts]
      exact Table.find?_modify
    rw [account_eq (l := { l with store := s' }) hopen, account_eq hopen, Account.id_write, haid, hfind]
    by_cases hx : x = id
    · rw [if_pos hx, if_pos hx, hx, hrow]
      exact hread'
    · rw [if_neg hx, if_neg hx]
      cases l.store.accounts.find? x with
      | none => rfl
      | some other => exact LedgerStore.readRow_of_entries_eq hentries other

/-- An update of both quantities of an account as it was read is carried out. -/
theorem updateBalance_of_account (h : l.account id = .ok a) {balance blocked : Amount}
    (hbalance : balance.units < 2 ^ 63) (hblocked : blocked.units < 2 ^ 63)
    (hv : a.version.toInt + 1 < 2 ^ 63) : ∃ l',
    l.updateBalance id ⟨some balance, some blocked, some a.version⟩ =
        (.ok (a.write balance blocked), l') ∧ l.Replaces (a.write balance blocked) l' := by
  refine updateBalance_of_read h (u := ⟨some balance, some blocked, some a.version⟩)
    ⟨fun b hb => ?_, fun k hk => ?_⟩ (fun v hv => (Option.some.inj hv).symm) hv
  · cases hb
    exact hbalance
  · cases hk
    exact hblocked

/-- The first quantity of an update that cannot be stored. -/
theorem updateBalance_tooLarge (hopen : l.closed = false) {balance blocked a : Amount}
    (h : 2 ^ 63 ≤ balance.units ∧ a = balance ∨
      balance.units < 2 ^ 63 ∧ 2 ^ 63 ≤ blocked.units ∧ a = blocked)
    (id : AccountId) (version : Option Int64) :
    l.updateBalance id ⟨some balance, some blocked, version⟩ =
      (.error (.conversion (.quantity (.tooLarge a))), l) := by
  have hstore : l.store.updateBalance id ⟨some balance, some blocked, version⟩ =
      (.error (.conversion (.quantity (.tooLarge a))), l.store) := by
    unfold LedgerStore.updateBalance
    rcases h with ⟨hbalance, rfl⟩ | ⟨hbalance, hblocked, rfl⟩
    · simp only [Option.mapM_some, storeQuantity_eq, if_neg (Nat.not_lt.mpr hbalance)]
      rfl
    · simp only [Option.mapM_some, storeQuantity_eq, if_pos hbalance,
        if_neg (Nat.not_lt.mpr hblocked)]
      rfl
  have hclosed : ¬ l.closed = true := Bool.eq_false_iff.mp hopen
  rw [updateBalance, change, if_neg hclosed, hstore]

end Ledger

end CardHolds

import CardHolds.Ledger.Basic
import Mathlib.Algebra.Group.Pi.Lemmas
import Mathlib.Algebra.Group.Prod
import Mathlib.Algebra.Ring.Int.Defs
import Mathlib.Algebra.Ring.Nat

/-!
# What the accounts hold

A `Delta` is a change to the balance and to the blocked money of an account, as two integers.
`holdings` maps every account of a store to its two quantities, and an unknown one to nothing; it
does not ask whether the account can be read.

The operations of the store are described by what they do to the row of one account.  Only
`updateBalance` and `deposit` touch what an account holds, and `updateBalance_cases` says how: an
update leaves the store alone or adds the change that it makes on the quantities of the row.
-/

namespace CardHolds

/-- A step of a computation that succeeds has succeeded before. -/
theorem ok_of_bind {ε α β : Type} {x : Except ε α} {f : α → Except ε β} {b : β}
    (h : x >>= f = .ok b) : ∃ a, x = .ok a ∧ f a = .ok b := by
  cases x with
  | error e => cases h
  | ok a => exact ⟨a, rfl, h⟩

theorem ok_of_mapError {ε ε' α : Type} {x : Except ε α} {f : ε → ε'} {a : α}
    (h : x.mapError f = .ok a) : x = .ok a := by
  cases x with
  | error e => cases h
  | ok a' => cases h; rfl

theorem isOk_map {ε α β : Type} (f : α → β) (x : Except ε α) : (x.map f).isOk = x.isOk := by
  cases x <;> rfl

/-- What is computed from the values of a list of computations that all succeed. -/
theorem map_eq_map_of_ok {ε α β γ : Type} {xs : List α} {ys : List β} {f : α → Except ε β}
    {g : β → γ} {k : α → γ} (h : xs.map f = ys.map .ok) (hg : ∀ x y, f x = .ok y → g y = k x) :
    ys.map g = xs.map k := by
  induction xs generalizing ys with
  | nil =>
    rw [List.map_nil, eq_comm, List.map_eq_nil_iff] at h
    rw [h]
    rfl
  | cons x rest ih =>
    cases ys with
    | nil => cases h
    | cons y ys =>
      obtain ⟨hx, hrest⟩ := List.cons.inj h
      rw [List.map_cons, List.map_cons, hg x y hx, ih hrest]

/-- A change to the balance (first) and to the blocked money (second) of an account. -/
abbrev Delta := ℤ × ℤ

/-- Both quantities of an account. -/
def Account.held (a : Account) : Delta := (a.balance.units, a.blocked.units)

/-- The version of an account, and the quantities seen under it. -/
structure Reading where
  version : Int64
  held : Delta

/-- What is read off an account. -/
def Account.reading (a : Account) : Reading := ⟨a.version, a.held⟩

/-- What an update changes on an account that holds the given quantities. -/
def BalanceUpdate.change (u : BalanceUpdate) (held : Delta) : Delta :=
  ((u.balance.elim held.1 fun a => a.units) - held.1,
    (u.blocked.elim held.2 fun a => a.units) - held.2)

theorem readQuantity_eq_ok {n : Int64} {a : Amount} (h : readQuantity n = .ok a) :
    n.toInt = a.units :=
  Amount.ofStored_eq_ok_iff.mp (ok_of_mapError h)

/-- A quantity that is written, or kept where there is none to write. -/
theorem toInt_getD_of_mapM {q : Option Amount} {stored : Option Int64} {n : Int64}
    (h : q.mapM storeQuantity = .ok stored) :
    (stored.getD n).toInt = q.elim n.toInt fun a => (a.units : ℤ) := by
  cases q with
  | none =>
    cases h
    rfl
  | some a =>
    rw [Option.mapM_some] at h
    obtain ⟨m, hm, h⟩ := ok_of_bind h
    cases h
    exact Amount.toStored_eq_ok_iff.mp (ok_of_mapError hm)

theorem RowVersion.eq_counted_of_read {v : RowVersion} {n : Int64} (h : v.read = .ok n) :
    v = .counted n := by
  cases v with
  | outgrown => cases h
  | counted m =>
    cases h
    rfl

namespace AccountRow
variable {row : AccountRow}

/-- Both quantities of a row. -/
def held (row : AccountRow) : Delta := (row.balance.toInt, row.blocked.toInt)

@[simp] theorem held_opened (id : AccountId) (now : Timestamp) (details : NewAccount) :
    (opened id now details).held = 0 := rfl

/-- Writing the quantities of an update adds its change. -/
theorem held_write {u : BalanceUpdate} {balance blocked : Option Int64}
    (hb : u.balance.mapM storeQuantity = .ok balance)
    (hk : u.blocked.mapM storeQuantity = .ok blocked) :
    (row.write balance blocked).held = row.held + u.change row.held := by
  refine Prod.ext ?_ ?_
  · exact (toInt_getD_of_mapM hb).trans (add_sub_cancel _ _).symm
  · exact (toInt_getD_of_mapM hk).trans (add_sub_cancel _ _).symm

/-- What reading a row shows. -/
theorem read_spec {statement : List PaymentId} {a : Account} (h : row.read statement = .ok a) :
    a.id = row.id ∧ row.version = .counted a.version ∧ row.held = a.held := by
  unfold read at h
  obtain ⟨version, hversion, h⟩ := ok_of_bind h
  obtain ⟨balance, hbalance, h⟩ := ok_of_bind h
  obtain ⟨blocked, hblocked, h⟩ := ok_of_bind h
  cases h
  exact ⟨rfl, RowVersion.eq_counted_of_read hversion,
    Prod.ext (readQuantity_eq_ok hbalance) (readQuantity_eq_ok hblocked)⟩

/-- What a reading shows besides version and quantities. -/
theorem shown_of_read {statement : List PaymentId} {a : Account} (h : row.read statement = .ok a) :
    a.card = row.card ∧ a.openedAt = row.openedAt ∧ a.statement = statement := by
  unfold read at h
  obtain ⟨_, -, h⟩ := ok_of_bind h
  obtain ⟨_, -, h⟩ := ok_of_bind h
  obtain ⟨_, -, h⟩ := ok_of_bind h
  cases h
  exact ⟨rfl, rfl, rfl⟩

theorem nonneg_of_belowZero? (h : row.belowZero? = none) : 0 ≤ row.held.1 ∧ 0 ≤ row.held.2 := by
  unfold belowZero? at h
  split at h
  · cases h
  split at h
  · cases h
  rename_i hbalance hblocked
  exact ⟨Int.not_lt.mp hbalance, Int.not_lt.mp hblocked⟩

/-- A row that holds nothing below zero can be read as long as its version can. -/
theorem isOk_read_iff {statement : List PaymentId} (h : row.belowZero? = none) :
    (row.read statement).isOk = true ↔ ∃ n, row.version = .counted n := by
  have hquantity : ∀ q : Int64, 0 ≤ q.toInt → ∃ a, readQuantity q = .ok a := fun q hq => by
    unfold readQuantity Amount.ofStored
    rw [if_pos hq]
    exact ⟨_, rfl⟩
  obtain ⟨hbalance, hblocked⟩ := nonneg_of_belowZero? h
  obtain ⟨balance, hbalance⟩ := hquantity row.balance hbalance
  obtain ⟨blocked, hblocked⟩ := hquantity row.blocked hblocked
  unfold read
  rw [hbalance, hblocked]
  cases hv : row.version with
  | counted n => exact iff_of_true rfl ⟨n, rfl⟩
  | outgrown => exact iff_of_false Bool.false_ne_true fun ⟨n, hn⟩ => by cases hn

end AccountRow

namespace LedgerStore
variable {s : LedgerStore} {id x : AccountId}

/-- What every account holds; an unknown account holds nothing. -/
def holdings (s : LedgerStore) (id : AccountId) : Delta :=
  (s.accounts.find? id).elim 0 AccountRow.held

theorem holdings_of_find? {row : AccountRow} (h : s.accounts.find? id = some row) :
    s.holdings id = row.held := by
  rw [holdings, h, Option.elim_some]

/-! ## Operations, row by row -/

/-- An account is opened only while its name is free. -/
theorem find?_insert (s : LedgerStore) (id : AccountId) (now : Timestamp) (details : NewAccount)
    (x : AccountId) :
    (s.insert id now details).2.accounts.find? x =
      if x = id then some ((s.accounts.find? id).getD (.opened id now details))
      else s.accounts.find? x := by
  cases hins : s.accounts.insert? (.opened id now details) with
  | none =>
    obtain ⟨row, hrow⟩ := Table.find?_of_insert?_eq_none hins
    have hrow : s.accounts.find? id = some row := hrow
    simp only [insert, hins]
    split
    · rename_i hx
      rw [hx, hrow, Option.getD_some]
    · rfl
  | some accounts =>
    have hnone : s.accounts.find? id = none := Table.find?_of_insert?_eq_some hins
    simp only [insert, hins]
    rw [hnone, Option.getD_none]
    exact Table.find?_insert? hins

theorem find?_amend (s : LedgerStore) (id : AccountId) (update : AccountUpdate) (x : AccountId) :
    (s.amend id update).2.accounts.find? x =
      if x = id ∧ ¬ update.isEmpty then (s.accounts.find? x).map (·.amend update)
      else s.accounts.find? x := by
  unfold amend
  by_cases h : update.isEmpty = true
  · simp [h]
  · simp only [h, if_false, Bool.false_eq_true, not_false_eq_true, and_true]
    exact Table.find?_modify

theorem find?_delete (s : LedgerStore) (id x : AccountId) :
    (s.delete id).2.accounts.find? x = if x = id then none else s.accounts.find? x :=
  Table.find?_erase

@[simp] theorem find?_append (s : LedgerStore) (id : AccountId) (payment : PaymentId)
    (x : AccountId) : (s.append id payment).2.accounts.find? x = s.accounts.find? x := by
  unfold append
  split <;> rfl

/-- An update that was written: the row it met, the row it left, and how the two compare. -/
structure Written (s : LedgerStore) (id : AccountId) (u : BalanceUpdate) (row row' : AccountRow) :
    Prop where
  found : s.accounts.find? id = some row
  expected : expects u.expectedVersion row = true
  version : row'.version = row.version.next
  held : row'.held = row.held + u.change row.held
  balance_nonneg : 0 ≤ row'.held.1
  blocked_nonneg : 0 ≤ row'.held.2
  stored : ∀ x, (s.updateBalance id u).2.accounts.find? x =
    if x = id then some row' else s.accounts.find? x
  answered : (s.updateBalance id u).1.isOk = true ↔ ∃ n, row'.version = .counted n
  account : ∀ a, (s.updateBalance id u).1 = .ok a → a.id = id

section Update
variable {u : BalanceUpdate} {balance blocked : Option Int64} {row : AccountRow}

theorem updateBalance_unexpected (hb : u.balance.mapM storeQuantity = .ok balance)
    (hk : u.blocked.mapM storeQuantity = .ok blocked) (hrow : s.accounts.find? id = some row)
    (hexp : expects u.expectedVersion row = false) : ∃ e, s.updateBalance id u = (.error e, s) := by
  simp only [updateBalance, hb, hk, hrow, hexp, Bool.false_eq_true, if_false]
  split <;> exact ⟨_, rfl⟩

/-- What is written can be read again as long as the version can. -/
theorem written (hb : u.balance.mapM storeQuantity = .ok balance)
    (hk : u.blocked.mapM storeQuantity = .ok blocked) (hrow : s.accounts.find? id = some row)
    (hexp : expects u.expectedVersion row = true)
    (hq : (row.write balance blocked).belowZero? = none) :
    s.Written id u row (row.write balance blocked) := by
  have hstore : (s.updateBalance id u).2.accounts =
      s.accounts.modify id (·.write balance blocked) fun _ => rfl := by
    simp only [updateBalance, hb, hk, hrow, hexp, hq, if_true]
  have hanswer : ∃ statement,
      (s.updateBalance id u).1 = (row.write balance blocked).read statement := by
    simp only [updateBalance, hb, hk, hrow, hexp, hq, if_true]
    exact ⟨_, rfl⟩
  obtain ⟨hbalance, hblocked⟩ := AccountRow.nonneg_of_belowZero? hq
  refine ⟨hrow, hexp, rfl, AccountRow.held_write hb hk, hbalance, hblocked, fun x => ?_, ?_,
    fun a ha => ?_⟩
  · rw [hstore]
    refine Table.find?_modify.trans ?_
    split
    · rename_i hx
      rw [hx, hrow, Option.map_some]
    · rfl
  · obtain ⟨statement, hanswer⟩ := hanswer
    rw [hanswer]
    exact AccountRow.isOk_read_iff hq
  · obtain ⟨statement, hanswer⟩ := hanswer
    have hid : a.id = row.id := (AccountRow.read_spec (hanswer.symm.trans ha)).1
    exact hid.trans (Table.key_of_find? hrow)

end Update

/-- **An update is refused or written.**  If it is written it is answered with the account, unless
the version can no longer be read. -/
theorem updateBalance_cases (s : LedgerStore) (id : AccountId) (u : BalanceUpdate) :
    (∃ e, s.updateBalance id u = (.error e, s)) ∨ ∃ row row', s.Written id u row row' := by
  cases hb : u.balance.mapM storeQuantity with
  | error e => exact Or.inl ⟨e, by unfold updateBalance; rw [hb]⟩
  | ok balance =>
    cases hk : u.blocked.mapM storeQuantity with
    | error e => exact Or.inl ⟨e, by unfold updateBalance; rw [hb, hk]⟩
    | ok blocked =>
      cases hrow : s.accounts.find? id with
      | none => exact Or.inl ⟨_, by unfold updateBalance; rw [hb, hk, hrow]⟩
      | some row =>
        cases hexp : expects u.expectedVersion row with
        | false => exact Or.inl (updateBalance_unexpected hb hk hrow hexp)
        | true =>
          cases hq : (row.write balance blocked).belowZero? with
          | some q =>
            exact Or.inl ⟨.database (.belowZero q), by
              simp only [updateBalance, hb, hk, hrow, hexp, hq, if_true]⟩
          | none => exact Or.inr ⟨row, _, written hb hk hrow hexp hq⟩

namespace Written
variable {u : BalanceUpdate} {row row' : AccountRow}

/-- **A written update adds its change** to what its account holds, and nothing to any other. -/
theorem holdings_eq (h : s.Written id u row row') :
    (s.updateBalance id u).2.holdings = s.holdings + Pi.single id (u.change row.held) := by
  funext x
  by_cases hx : x = id
  · rw [hx, Pi.add_apply, Pi.single_eq_same, holdings_of_find? h.found, ← h.held]
    exact holdings_of_find? ((h.stored id).trans (if_pos rfl))
  · rw [Pi.add_apply, Pi.single_eq_of_ne hx, add_zero, holdings, holdings, h.stored x, if_neg hx]

end Written

/-! ## Deposits in two steps -/

/-- What a deposit goes on with once it has read the holder of the card. -/
structure DepositPlan where
  account : AccountId
  reading : Reading
  update : BalanceUpdate

/-- The first step of a deposit: reads the holder of a card and computes its new balance. -/
def planDeposit (s : LedgerStore) (cardNumber : String) (amount : Amount) :
    Except LedgerError (Option DepositPlan) :=
  match s.holder? cardNumber with
  | none => .ok none
  | some row =>
    match row.version.read, readQuantity row.balance with
    | .error e, _ => .error e
    | .ok _, .error e => .error e
    | .ok version, .ok current =>
      match current.add? amount with
      | none => .error (.conversion (.depositTooLarge amount row.id))
      | some balance =>
        .ok (some ⟨row.id, ⟨version, row.held⟩,
          { balance := some balance, expectedVersion := some version }⟩)

/-- A deposit is its two steps in a row. -/
theorem deposit_eq (s : LedgerStore) (cardNumber : String) (amount : Amount) :
    s.deposit cardNumber amount =
      match s.planDeposit cardNumber amount with
      | .error e => (.error e, s)
      | .ok none => (.ok none, s)
      | .ok (some plan) =>
        ((s.updateBalance plan.account plan.update).1.map some,
          (s.updateBalance plan.account plan.update).2) := by
  unfold deposit planDeposit
  cases s.holder? cardNumber with
  | none => rfl
  | some row =>
    simp only
    cases row.version.read with
    | error e => rfl
    | ok version =>
      cases readQuantity row.balance with
      | error e => rfl
      | ok current =>
        simp only
        cases current.add? amount <;> rfl

theorem mem_of_oldest? {rows : List AccountRow} {row : AccountRow} (h : oldest? rows = some row) :
    row ∈ rows := by
  induction rows with
  | nil => cases h
  | cons first rest ih =>
    unfold oldest? at h
    split at h
    · cases h
      exact List.mem_cons_self
    · rename_i other hother
      split at h
      · cases h
        exact List.mem_cons_self
      · cases h
        exact List.mem_cons_of_mem _ (ih hother)

theorem find?_of_holder? {cardNumber : String} {row : AccountRow}
    (h : s.holder? cardNumber = some row) : s.accounts.find? row.id = some row :=
  Table.find?_key (List.mem_filter.mp (mem_of_oldest? h)).1

/-- **A deposit plans to credit its amount** to an account of the store, under the version that it
read. -/
theorem planDeposit_spec {cardNumber : String} {amount : Amount} {plan : DepositPlan}
    (h : s.planDeposit cardNumber amount = .ok (some plan)) :
    ∃ row, s.accounts.find? plan.account = some row ∧
      row.version = .counted plan.reading.version ∧ row.held = plan.reading.held ∧
      plan.update.expectedVersion = some plan.reading.version ∧
      plan.update.change plan.reading.held = ((amount.units : ℤ), 0) := by
  unfold planDeposit at h
  cases hholder : s.holder? cardNumber with
  | none => rw [hholder] at h; cases h
  | some row =>
    rw [hholder] at h
    simp only at h
    cases hversion : row.version with
    | outgrown => rw [hversion] at h; cases h
    | counted version =>
      cases hcurrent : readQuantity row.balance with
      | error e => rw [hversion, hcurrent] at h; cases h
      | ok current =>
        rw [hversion, hcurrent] at h
        simp only [RowVersion.read] at h
        split at h
        · cases h
        · rename_i balance hbalance
          cases h
          refine ⟨row, find?_of_holder? hholder, hversion, rfl, rfl, Prod.ext ?_ (sub_self _)⟩
          have hsum : balance.units = current.units + amount.units :=
            Amount.add?_eq_some_iff.mp hbalance
          have hread : row.balance.toInt = current.units := readQuantity_eq_ok hcurrent
          show (balance.units : ℤ) - row.balance.toInt = amount.units
          omega

end LedgerStore

namespace Ledger

/-- An account that is read is a row of the store. -/
theorem account_spec {l : Ledger} {id : AccountId} {a : Account} (h : l.account id = .ok a) :
    ∃ row, l.store.accounts.find? id = some row ∧ a.id = id ∧ row.version = .counted a.version ∧
      row.held = a.held := by
  unfold account read at h
  split at h
  · cases h
  simp only [LedgerStore.fetch] at h
  cases hrow : l.store.accounts.find? id with
  | none => rw [hrow] at h; cases h
  | some row =>
    rw [hrow] at h
    cases hread : l.store.readRow row with
    | error e => simp only [hread] at h; cases h
    | ok account =>
      simp only [hread] at h
      cases h
      obtain ⟨hid, hversion, hheld⟩ := AccountRow.read_spec hread
      exact ⟨row, rfl, hid.trans (Table.key_of_find? hrow), hversion, hheld⟩

theorem open_of_account {l : Ledger} {id : AccountId} {a : Account} (h : l.account id = .ok a) :
    l.closed = false := by
  cases hclosed : l.closed with
  | false => rfl
  | true =>
    unfold account read at h
    rw [hclosed] at h
    cases h

/-- What an open ledger shows for an account. -/
theorem account_eq {l : Ledger} (hopen : l.closed = false) (id : AccountId) :
    l.account id = match l.store.accounts.find? id with
      | none => .error (.accountNotFound id)
      | some row => l.store.readRow row := by
  simp only [account, read, hopen, Bool.false_eq_true, if_false, LedgerStore.fetch]
  cases l.store.accounts.find? id with
  | none => rfl
  | some row =>
    simp only
    cases l.store.readRow row <;> rfl

theorem exists_row_of_account {l : Ledger} {id : AccountId} {a : Account}
    (h : l.account id = .ok a) : ∃ row,
      l.store.accounts.find? id = some row ∧ l.store.readRow row = .ok a := by
  obtain ⟨row, hrow, -⟩ := account_spec h
  rw [account_eq (open_of_account h), hrow] at h
  exact ⟨row, hrow, h⟩

/-- An operation is carried out on the store or not at all. -/
theorem store_change {α : Type} (l : Ledger)
    (operation : LedgerStore → Except LedgerError α × LedgerStore) :
    (l.change operation).2.store = l.store ∨
      (l.change operation).2.store = (operation l.store).2 := by
  unfold change
  split
  · exact Or.inl rfl
  · exact Or.inr rfl

/-- A deposit to the ledger is its two steps in a row. -/
theorem deposit_eq (l : Ledger) (cardNumber : String) (amount : Amount) :
    l.deposit cardNumber amount =
      match l.read fun s => s.planDeposit cardNumber amount with
      | .error error => (.error error, l)
      | .ok none => (.error .cardNotFound, l)
      | .ok (some plan) => l.updateBalance plan.account plan.update := by
  obtain ⟨store, closed⟩ := l
  unfold deposit updateBalance change read
  cases closed with
  | true => rfl
  | false =>
    simp only [Bool.false_eq_true, if_false, LedgerStore.deposit_eq]
    cases store.planDeposit cardNumber amount with
    | error error => rfl
    | ok plan =>
      cases plan with
      | none => rfl
      | some plan =>
        simp only
        cases (store.updateBalance plan.account plan.update).1 <;> rfl

/-- An update of the ledger is refused or written to its store. -/
theorem updateBalance_cases (l : Ledger) (id : AccountId) (u : BalanceUpdate) :
    (∃ e, l.updateBalance id u = (.error e, l)) ∨
      (∃ row row', l.store.Written id u row row') ∧
        (l.updateBalance id u).1 = (l.store.updateBalance id u).1 ∧
        (l.updateBalance id u).2.store = (l.store.updateBalance id u).2 := by
  unfold updateBalance change
  split
  · exact Or.inl ⟨_, rfl⟩
  · rcases l.store.updateBalance_cases id u with ⟨e, he⟩ | hwritten
    · exact Or.inl ⟨e, by simp only [he]⟩
    · exact Or.inr ⟨hwritten, rfl, rfl⟩

end Ledger

/-! ## A sample -/

namespace Sample

def card : Card := ⟨"4111111111111111", "01", "30", ⟨"123"⟩⟩

/-- The details of somebody who holds the card. -/
def details (firstName : String) : NewAccount := ⟨firstName, "Lind", card⟩

def units (n : Nat) : Amount := (Amount.ofNat? n).getD .zero

/-- An account as a ledger shows it. -/
def shown (l : Ledger) (id : AccountId) : Account := (l.account id).toOption.getD default

end Sample

end CardHolds

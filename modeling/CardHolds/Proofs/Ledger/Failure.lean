import CardHolds.Proofs.Ledger.Conversion
import CardHolds.Proofs.Ledger.Entries
import CardHolds.Proofs.Ledger.Versions

/-!
# What a failed operation leaves

Most operations of the ledger check first and write afterwards, and a failure leaves the store as it
was.  Some write first: an identity update, an update of quantities and a deposit read the account
back after the write, and fail if its row does not read; the deletion of an account removes the
entries of its statement before it looks for the account.  `LedgerStore.FailsAfterWriting` lists what
such an operation meets when it writes and then fails.

Main statement (`Ledger.failed_operation`): an operation that fails has changed the ledger just if it
is one of these, and even then all statements and all other accounts are as before.
-/

namespace CardHolds

/-- A table is the same after a row was changed just if the row is. -/
theorem Table.modify_eq_self_iff {κ ρ : Type} {key : ρ → κ} [DecidableEq κ] {t : Table key} {k : κ}
    {f : ρ → ρ} {key_eq : ∀ r, key (f r) = key r} :
    t.modify k f key_eq = t ↔ ∀ r, t.find? k = some r → f r = r := by
  constructor
  · intro h r hr
    have hfind : (t.modify k f key_eq).find? k = _ := find?_modify
    rw [h, if_pos rfl, hr, Option.map_some] at hfind
    exact (Option.some.inj hfind).symm
  · intro h
    refine Table.ext ((List.map_congr_left fun r hr => ?_).trans (List.map_id t.rows))
    by_cases hk : key r = k
    · rw [if_pos hk, h r (hk ▸ find?_key hr), id_eq]
    · rw [if_neg hk, id_eq]

namespace AccountRow
variable {row : AccountRow}

/-- The row does not read: its version has outgrown the numbers, or it holds something below zero. -/
def Unreadable (row : AccountRow) : Prop := row.version = .outgrown ∨ row.belowZero? ≠ none

instance : Decidable row.Unreadable := inferInstanceAs (Decidable (_ ∨ _))

theorem unreadable_iff (statement : List PaymentId) :
    row.Unreadable ↔ ∃ e, row.read statement = .error e := by
  constructor
  · intro h
    cases hread : row.read statement with
    | error e => exact ⟨e, rfl⟩
    | ok a =>
      rcases h with hversion | hbelow
      · have hcounted := (read_spec hread).2.1
        rw [hversion] at hcounted
        cases hcounted
      · exact absurd (belowZero?_of_read hread) hbelow
  · rintro ⟨e, he⟩
    by_cases hbelow : row.belowZero? = none
    · refine Or.inl ?_
      cases hversion : row.version with
      | outgrown => rfl
      | counted n =>
        have hok : (row.read statement).isOk = true := (isOk_read_iff hbelow).mpr ⟨n, hversion⟩
        rw [he] at hok
        cases hok
    · exact Or.inr hbelow

/-- Writing leaves a row as it is just if it changes no quantity and cannot count the version up. -/
theorem write_eq_self_iff {balance blocked : Option Int64} :
    row.write balance blocked = row ↔
      (row.write balance blocked).held = row.held ∧ row.version.next = row.version := by
  constructor
  · intro h
    exact ⟨congrArg held h, congrArg version h⟩
  · rintro ⟨hheld, hversion⟩
    obtain ⟨hbalance, hblocked⟩ := Prod.mk.inj hheld
    have hbalance : balance.getD row.balance = row.balance := Int64.toInt_inj.mp hbalance
    have hblocked : blocked.getD row.blocked = row.blocked := Int64.toInt_inj.mp hblocked
    rw [write, hbalance, hblocked, hversion]

end AccountRow

theorem RowVersion.next_eq_outgrown_iff {v : RowVersion} :
    v.next = .outgrown ↔ v = .counted Int64.maxValue ∨ v = .outgrown := by
  cases v with
  | outgrown => exact iff_of_true rfl (Or.inr rfl)
  | counted n =>
    by_cases hn : n = Int64.maxValue
    · rw [hn]
      exact iff_of_true rfl (Or.inl rfl)
    · refine iff_of_false (fun h => ?_) (fun h => ?_)
      · rw [show (counted n).next = counted (n + 1) from if_neg hn] at h
        cases h
      · rcases h with h | h
        · exact hn (RowVersion.counted.inj h)
        · cases h

/-- What was stored did fit. -/
theorem units_lt_of_mapM_storeQuantity {q : Option Amount} {stored : Option Int64}
    (h : q.mapM storeQuantity = .ok stored) (a : Amount) (ha : q = some a) : a.units < 2 ^ 63 := by
  by_contra hlarge
  rw [ha, Option.mapM_some, storeQuantity_eq, if_neg hlarge] at h
  cases h

theorem exists_readQuantity {n : Int64} (h : 0 ≤ n.toInt) : ∃ a, readQuantity n = .ok a := by
  rw [readQuantity, Amount.ofStored, if_pos h]
  exact ⟨_, rfl⟩

namespace LedgerStore
variable {s : LedgerStore} {id : AccountId} {u : BalanceUpdate} {row : AccountRow} {e : LedgerError}

/-! ## Updates of quantities -/

/-- An update is carried out: its quantities fit the store, it meets a row of the version that it
expects, and leaves nothing below zero. -/
structure Accepts (s : LedgerStore) (id : AccountId) (u : BalanceUpdate) (row : AccountRow) : Prop where
  storable : u.Storable
  found : s.accounts.find? id = some row
  expected : expects u.expectedVersion row = true
  nonneg : 0 ≤ row.held + u.change row.held

/-- An update that is carried out writes the row and reads it back. -/
theorem Accepts.updateBalance_eq (h : s.Accepts id u row) : ∃ balance blocked s',
    (row.write balance blocked).held = row.held + u.change row.held ∧
      s'.entries = s.entries ∧
      s'.accounts = s.accounts.modify id (·.write balance blocked) (fun _ => rfl) ∧
      s.updateBalance id u = (s'.readRow (row.write balance blocked), s') := by
  obtain ⟨balance, hb⟩ := exists_mapM_storeQuantity h.storable.1
  obtain ⟨blocked, hk⟩ := exists_mapM_storeQuantity h.storable.2
  have hheld : (row.write balance blocked).held = row.held + u.change row.held :=
    AccountRow.held_write hb hk
  have hbelow : (row.write balance blocked).belowZero? = none := by
    have hnonneg := h.nonneg
    rw [← hheld] at hnonneg
    exact AccountRow.belowZero?_of_nonneg hnonneg.1 hnonneg.2
  refine ⟨balance, blocked, ⟨s.accounts.modify id (·.write balance blocked) fun _ => rfl, s.entries⟩,
    hheld, rfl, rfl, ?_⟩
  simp only [updateBalance, hb, hk, h.found, h.expected, hbelow, if_true]

/-- Any other update is refused. -/
theorem updateBalance_of_not_accepts (h : ∀ row, ¬ s.Accepts id u row) :
    ∃ e, s.updateBalance id u = (.error e, s) := by
  cases hb : u.balance.mapM storeQuantity with
  | error e => exact ⟨e, by rw [updateBalance, hb]⟩
  | ok balance =>
    cases hk : u.blocked.mapM storeQuantity with
    | error e => exact ⟨e, by rw [updateBalance, hb, hk]⟩
    | ok blocked =>
      cases hrow : s.accounts.find? id with
      | none => exact ⟨_, by rw [updateBalance, hb, hk, hrow]⟩
      | some row =>
        cases hexp : expects u.expectedVersion row with
        | false => exact updateBalance_unexpected hb hk hrow hexp
        | true =>
          cases hbelow : (row.write balance blocked).belowZero? with
          | some q =>
            exact ⟨.database (.belowZero q), by
              simp only [updateBalance, hb, hk, hrow, hexp, hbelow, if_true]⟩
          | none =>
            have hnonneg : 0 ≤ row.held + u.change row.held := by
              rw [← AccountRow.held_write hb hk]
              exact AccountRow.nonneg_of_belowZero? hbelow
            exact absurd ⟨⟨units_lt_of_mapM_storeQuantity hb, units_lt_of_mapM_storeQuantity hk⟩, hrow,
              hexp, hnonneg⟩ (h row)

theorem find?_updateBalance_of_ne {x : AccountId} (hx : x ≠ id) (u : BalanceUpdate) :
    (s.updateBalance id u).2.accounts.find? x = s.accounts.find? x := by
  rcases s.updateBalance_cases id u with ⟨e, he⟩ | ⟨row, row', hwritten⟩
  · rw [he]
  · rw [hwritten.stored, if_neg hx]

/-! ## Operations on the store -/

/-- Every entry of a statement belongs to an account, as the store demands of it. -/
def Linked (s : LedgerStore) : Prop :=
  ∀ entry ∈ s.entries, s.accounts.contains entry.account = true

/-- What an operation meets when it takes effect and fails all the same.  An amendment, an update and a
deposit write a row that does not read; the deletion of an unknown account removes entries that stand
under its name, of which there are none in a store that is linked. -/
def FailsAfterWriting (s : LedgerStore) : Ledger.Command → Prop
  | .amend id update =>
    update ≠ {} ∧ ∃ row, s.accounts.find? id = some row ∧ (row.amend update).Unreadable ∧
      row.amend update ≠ row
  | .updateBalance id u =>
    ∃ row, s.Accepts id u row ∧ row.version.next = .outgrown ∧
      (row.version = .outgrown → u.change row.held ≠ 0)
  | .deposit cardNumber amount =>
    ∃ row, s.holder? cardNumber = some row ∧ row.version = .counted Int64.maxValue ∧ 0 ≤ row.held ∧
      row.balance.toInt + amount.units < 2 ^ 63
  | .delete id => s.accounts.find? id = none ∧ ∃ entry ∈ s.entries, entry.account = id
  | .create _ | .account _ | .statement _ | .append _ _ => False

theorem eq_iff_of_entries_eq {s' : LedgerStore} (hentries : s'.entries = s.entries) :
    s' = s ↔ s'.accounts = s.accounts := by
  obtain ⟨accounts, entries⟩ := s
  obtain ⟨accounts', entries'⟩ := s'
  cases hentries
  exact ⟨fun h => congrArg LedgerStore.accounts h, fun h => by cases h; rfl⟩

/-- An amendment that meets a row and fails has written one that does not read. -/
theorem unreadable_of_amend_failed {update : AccountUpdate} {missing : LedgerError}
    (hempty : ¬ update.isEmpty = true) (hrow : s.accounts.find? id = some row)
    (he : Ledger.require missing (s.amend id update).1 = .error e) : (row.amend update).Unreadable := by
  have hfetch : (s.amend id update).1 = (s.amend id update).2.fetch id := by
    rw [amend, if_neg hempty]
  have hfind : (s.amend id update).2.accounts.find? id = some (row.amend update) := by
    rw [find?_amend, if_pos ⟨rfl, hempty⟩, hrow, Option.map_some]
  rw [hfetch, fetch, hfind] at he
  cases hread : (s.amend id update).2.readRow (row.amend update) with
  | error e' => exact (AccountRow.unreadable_iff _).mpr ⟨e', hread⟩
  | ok a =>
    simp only [hread] at he
    cases he

/-- An amendment that fails has changed something just if it wrote a row that does not read. -/
theorem amend_failed {update : AccountUpdate} {missing : LedgerError}
    (he : Ledger.require missing (s.amend id update).1 = .error e) :
    (s.amend id update).2 = s ↔ ¬ s.FailsAfterWriting (.amend id update) := by
  by_cases hempty : update.isEmpty = true
  · rw [amend, if_pos hempty]
    exact iff_of_true rfl fun h => h.1 (AccountUpdate.isEmpty_iff.mp hempty)
  · have haccounts : (s.amend id update).2.accounts =
        s.accounts.modify id (·.amend update) fun _ => rfl := by rw [amend, if_neg hempty]
    rw [eq_iff_of_entries_eq (entries_amend s id update), haccounts]
    refine Table.modify_eq_self_iff.trans ?_
    constructor
    · rintro hsame ⟨-, row, hrow, -, hne⟩
      exact hne (hsame row hrow)
    · intro hnot row hrow
      by_contra hne
      exact hnot ⟨fun h => hempty (AccountUpdate.isEmpty_iff.mpr h), row, hrow,
        unreadable_of_amend_failed hempty hrow he, hne⟩

/-- An update that fails has changed something just if it wrote a version that does not read. -/
theorem updateBalance_failed (he : (s.updateBalance id u).1 = .error e) :
    (s.updateBalance id u).2 = s ↔ ¬ s.FailsAfterWriting (.updateBalance id u) := by
  by_cases haccepts : ∃ row, s.Accepts id u row
  · obtain ⟨row, h⟩ := haccepts
    obtain ⟨balance, blocked, s', hheld, hentries, haccounts, heq⟩ := h.updateBalance_eq
    rw [heq] at he ⊢
    -- nothing is below zero, so it is the version that does not read
    have hnext : row.version.next = .outgrown := by
      rcases (AccountRow.unreadable_iff _).mpr ⟨e, he⟩ with hversion | hbelow
      · exact hversion
      · have hnonneg := h.nonneg
        rw [← hheld] at hnonneg
        exact absurd (AccountRow.belowZero?_of_nonneg hnonneg.1 hnonneg.2) hbelow
    have hsame : s' = s ↔ u.change row.held = 0 ∧ row.version = .outgrown := by
      rw [eq_iff_of_entries_eq hentries, haccounts]
      refine Table.modify_eq_self_iff.trans ?_
      simp only [h.found, Option.some.injEq, forall_eq', AccountRow.write_eq_self_iff, hheld, hnext,
        add_eq_left]
      exact and_congr_right fun _ => eq_comm
    rw [hsame]
    constructor
    · rintro ⟨hchange, hversion⟩ ⟨row', h', -, hne⟩
      cases h.found.symm.trans h'.found
      exact hne hversion hchange
    · intro hnot
      by_contra hne
      exact hnot ⟨row, h, hnext, fun hversion hchange => hne ⟨hchange, hversion⟩⟩
  · have hnone := not_exists.mp haccepts
    obtain ⟨e', he'⟩ := updateBalance_of_not_accepts hnone
    rw [he']
    refine iff_of_true rfl ?_
    rintro ⟨row, h, -⟩
    exact hnone row h

/-! ## Deposits -/

section Deposit
variable {cardNumber : String} {amount : Amount} {plan : DepositPlan}

/-- A deposit that is to write and fail has come as far as its update. -/
theorem exists_plan_of_failsAfterWriting (h : s.FailsAfterWriting (.deposit cardNumber amount)) :
    ∃ plan, s.planDeposit cardNumber amount = .ok (some plan) := by
  obtain ⟨row, hholder, hversion, hnonneg, hlt⟩ := h
  obtain ⟨current, hcurrent⟩ := exists_readQuantity hnonneg.1
  have hread : row.balance.toInt = current.units := readQuantity_eq_ok hcurrent
  unfold planDeposit
  rw [hholder]
  simp only [hversion, RowVersion.read, hcurrent]
  cases hsum : current.add? amount with
  | some balance => exact ⟨_, rfl⟩
  | none =>
    have hlarge := Amount.add?_eq_none_iff.mp hsum
    omega

/-- The plan of a deposit is made from the row that holds the card. -/
theorem exists_holder_of_planDeposit (h : s.planDeposit cardNumber amount = .ok (some plan)) :
    ∃ row version balance, s.holder? cardNumber = some row ∧ row.version = .counted version ∧
      0 ≤ row.balance.toInt ∧ (balance.units : ℤ) = row.balance.toInt + amount.units ∧
      plan = ⟨row.id, ⟨version, row.held⟩,
        { balance := some balance, expectedVersion := some version }⟩ := by
  unfold planDeposit at h
  split at h
  · cases h
  · rename_i row hholder
    split at h
    · cases h
    · cases h
    · rename_i version current hversion hcurrent
      split at h
      · cases h
      · rename_i balance hbalance
        cases h
        have hread : row.balance.toInt = current.units := readQuantity_eq_ok hcurrent
        have hsum : balance.units = current.units + amount.units :=
          Amount.add?_eq_some_iff.mp hbalance
        refine ⟨row, version, balance, hholder, RowVersion.eq_counted_of_read hversion, ?_, ?_, rfl⟩
        · omega
        · omega

/-- A deposit writes and fails just if the update that it plans does. -/
theorem failsAfterWriting_plan (h : s.planDeposit cardNumber amount = .ok (some plan)) :
    s.FailsAfterWriting (.deposit cardNumber amount) ↔
      s.FailsAfterWriting (.updateBalance plan.account plan.update) := by
  obtain ⟨row, version, balance, hholder, hversion, hread, hsum, rfl⟩ := exists_holder_of_planDeposit h
  have hfound := find?_of_holder? hholder
  have hcounted : row.version ≠ .outgrown := by
    rw [hversion]
    exact RowVersion.noConfusion
  constructor
  · rintro ⟨row', hrow', hlast, hnonneg, hlt⟩
    cases hholder.symm.trans hrow'
    have hblocked : 0 ≤ row.held.2 := hnonneg.2
    refine ⟨row, ⟨⟨fun a ha => ?_, fun a ha => by cases ha⟩, hfound, decide_eq_true hversion, ?_, ?_⟩,
      RowVersion.next_eq_outgrown_iff.mpr (Or.inl hlast), fun hout => absurd hout hcounted⟩
    · cases ha
      omega
    · show 0 ≤ row.held.1 + ((balance.units : ℤ) - row.held.1)
      omega
    · show 0 ≤ row.held.2 + (row.held.2 - row.held.2)
      omega
  · rintro ⟨row', haccepts, hnext, -⟩
    cases hfound.symm.trans haccepts.found
    have hblocked : 0 ≤ row.held.2 + (row.held.2 - row.held.2) := haccepts.nonneg.2
    have hfits : balance.units < 2 ^ 63 := haccepts.storable.1 balance rfl
    have hlast := (RowVersion.next_eq_outgrown_iff.mp hnext).resolve_right hcounted
    refine ⟨row, hholder, hlast, ⟨hread, ?_⟩, by omega⟩
    show 0 ≤ row.held.2
    omega

/-- A deposit that fails has changed something just if it wrote a version that does not read. -/
theorem deposit_failed {missing : LedgerError}
    (he : Ledger.require missing (s.deposit cardNumber amount).1 = .error e) :
    (s.deposit cardNumber amount).2 = s ↔ ¬ s.FailsAfterWriting (.deposit cardNumber amount) := by
  rw [deposit_eq] at he ⊢
  cases hplan : s.planDeposit cardNumber amount with
  | error e' =>
    refine iff_of_true rfl fun h => ?_
    obtain ⟨plan, hplan'⟩ := exists_plan_of_failsAfterWriting h
    rw [hplan] at hplan'
    cases hplan'
  | ok planned =>
    cases planned with
    | none =>
      refine iff_of_true rfl fun h => ?_
      obtain ⟨plan, hplan'⟩ := exists_plan_of_failsAfterWriting h
      rw [hplan] at hplan'
      cases hplan'
    | some plan =>
      rw [hplan] at he
      rw [failsAfterWriting_plan hplan]
      simp only at he ⊢
      cases hupdate : (s.updateBalance plan.account plan.update).1 with
      | error e' => exact updateBalance_failed hupdate
      | ok a =>
        rw [hupdate] at he
        cases he

end Deposit

/-! ## Deletions -/

/-- A deletion that fails has removed entries just if some stand under the name of the unknown
account. -/
theorem delete_failed (h : (s.delete id).1 = false) :
    (s.delete id).2 = s ↔ ¬ s.FailsAfterWriting (.delete id) := by
  have hunknown : s.accounts.find? id = none :=
    Table.find?_eq_none_iff.mpr (Table.contains_eq_false_iff.mp h)
  have haccounts : (s.delete id).2.accounts = s.accounts := by
    refine Table.ext (List.filter_eq_self.mpr fun row hrow => decide_eq_true fun hid => ?_)
    rw [← hid, Table.find?_key hrow] at hunknown
    cases hunknown
  have hentries : (s.delete id).2.entries = s.entries ↔ ∀ entry ∈ s.entries, entry.account ≠ id := by
    refine List.filter_eq_self.trans ?_
    simp only [decide_eq_true_iff]
  have hsame : (s.delete id).2 = s ↔ (s.delete id).2.entries = s.entries := by
    constructor
    · intro heq
      rw [heq]
    · intro heq
      exact (eq_iff_of_entries_eq heq).mpr haccounts
  rw [hsame, hentries]
  constructor
  · rintro hne ⟨-, entry, hentry, hid⟩
    exact hne entry hentry hid
  · intro hnot entry hentry hid
    exact hnot ⟨hunknown, entry, hentry, hid⟩

/-! ## Linked stores -/

theorem Linked.of_contains {s' : LedgerStore} (h : s.Linked) (hentries : s'.entries = s.entries)
    (hfind : ∀ x, s.accounts.contains x = true → s'.accounts.contains x = true) : s'.Linked := by
  intro entry hentry
  rw [hentries] at hentry
  exact hfind _ (h entry hentry)

theorem Linked.insert (h : s.Linked) (id : AccountId) (now : Timestamp) (details : NewAccount) :
    (s.insert id now details).2.Linked := by
  refine h.of_contains (entries_insert s id now details) fun x hx => ?_
  rw [Table.contains, find?_insert]
  split
  · rfl
  · exact hx

theorem Linked.amend (h : s.Linked) (id : AccountId) (update : AccountUpdate) :
    (s.amend id update).2.Linked := by
  refine h.of_contains (entries_amend s id update) fun x hx => ?_
  rw [Table.contains, find?_amend]
  split
  · rw [Option.isSome_map]
    exact hx
  · exact hx

theorem Linked.delete (h : s.Linked) (id : AccountId) : (s.delete id).2.Linked := by
  intro entry hentry
  obtain ⟨hentry, hne⟩ := List.mem_filter.mp hentry
  rw [Table.contains, find?_delete, if_neg (of_decide_eq_true hne)]
  exact h entry hentry

theorem Linked.updateBalance (h : s.Linked) (id : AccountId) (u : BalanceUpdate) :
    (s.updateBalance id u).2.Linked := by
  refine h.of_contains (entries_updateBalance s id u) fun x hx => ?_
  rcases s.updateBalance_cases id u with ⟨e, he⟩ | ⟨row, row', hwritten⟩
  · rw [he]
    exact hx
  · rw [Table.contains, hwritten.stored]
    split
    · rfl
    · exact hx

theorem Linked.deposit (h : s.Linked) (cardNumber : String) (amount : Amount) :
    (s.deposit cardNumber amount).2.Linked := by
  rw [deposit_eq]
  split
  · exact h
  · exact h
  · exact h.updateBalance _ _

theorem Linked.append (h : s.Linked) (id : AccountId) (payment : PaymentId) :
    (s.append id payment).2.Linked := by
  unfold LedgerStore.append
  split
  · rename_i hcontains
    intro entry hentry
    rcases List.mem_append.mp hentry with hentry | hentry
    · exact h entry hentry
    · rw [List.mem_singleton.mp hentry]
      exact hcontains
  · exact h

end LedgerStore

/-! ## Operations on the ledger -/

namespace Ledger
variable {l : Ledger} {fresh : AccountId} {now : Timestamp} {command : Command} {α : Type}
  {operation : LedgerStore → Except LedgerError α × LedgerStore} {e : LedgerError}

theorem linked_change (h : l.store.Linked) (hoperation : (operation l.store).2.Linked) :
    (l.change operation).2.store.Linked := by
  rcases l.store_change operation with hstore | hstore
  · rwa [hstore]
  · rwa [hstore]

/-- **No operation leaves an entry without its account.** -/
theorem linked_perform (h : l.store.Linked) (fresh : AccountId) (now : Timestamp)
    (command : Command) : (l.perform fresh now command).2.store.Linked := by
  cases command with
  | create details => exact linked_change h (h.insert fresh now details)
  | account id => exact h
  | statement id => exact h
  | amend id update => exact linked_change h (h.amend id update)
  | delete id => exact linked_change h (h.delete id)
  | deposit card amount => exact linked_change h (h.deposit card amount)
  | updateBalance id u => exact linked_change h (h.updateBalance id u)
  | append id payment => exact linked_change h (h.append id payment)

/-- An operation that fails on an open ledger has failed on its store. -/
theorem change_failed {changes : Prop} (he : (l.change operation).1 = .error e)
    (h : ∀ e', (operation l.store).1 = .error e' →
      ((operation l.store).2 = l.store ↔ ¬ changes)) :
    (l.change operation).2 = l ↔ l.closed = true ∨ ¬ changes := by
  unfold change at he ⊢
  by_cases hclosed : l.closed = true
  · rw [if_pos hclosed]
    exact iff_of_true rfl (Or.inl hclosed)
  · rw [if_neg hclosed] at he ⊢
    rw [or_iff_right hclosed, ← h e he]
    obtain ⟨store, closed⟩ := l
    exact ⟨fun heq => congrArg Ledger.store heq, fun heq => by rw [heq]⟩

/-- An operation that fails has changed something just if it fails after it has written. -/
theorem perform_failed (he : (l.perform fresh now command).1 = .error e) :
    (l.perform fresh now command).2 = l ↔
      l.closed = true ∨ ¬ l.store.FailsAfterWriting command := by
  have unchanged : ∀ {c : Command} {l' : Ledger}, l' = l → (l.store.FailsAfterWriting c ↔ False) →
      (l' = l ↔ l.closed = true ∨ ¬ l.store.FailsAfterWriting c) := fun hl hfalse =>
    iff_of_true hl (Or.inr (not_iff_not.mpr hfalse |>.mpr not_false))
  cases command with
  | create details =>
    refine change_failed (error_of_map he) fun e' he' => iff_of_true ?_ not_false
    exact LedgerStore.insert_of_not_isOk (by rw [he']; rfl)
  | account id => exact unchanged rfl Iff.rfl
  | statement id => exact unchanged rfl Iff.rfl
  | amend id update =>
    exact change_failed (error_of_map he) fun e' he' => LedgerStore.amend_failed he'
  | delete id =>
    refine change_failed (error_of_map he) fun e' he' => LedgerStore.delete_failed ?_
    cases hdelete : (l.store.delete id).1 with
    | false => rfl
    | true =>
      simp only [hdelete, if_true] at he'
      cases he'
  | deposit card amount =>
    exact change_failed (error_of_map he) fun e' he' => LedgerStore.deposit_failed he'
  | updateBalance id u =>
    exact change_failed (error_of_map he) fun e' he' => LedgerStore.updateBalance_failed he'
  | append id payment =>
    refine change_failed (error_of_map he) fun e' he' => iff_of_true ?_ not_false
    unfold LedgerStore.append at he' ⊢
    split at he'
    · cases he'
    · rename_i hcontains
      rw [if_neg hcontains]

theorem find?_change {x : AccountId}
    (h : (operation l.store).2.accounts.find? x = l.store.accounts.find? x) :
    (l.change operation).2.store.accounts.find? x = l.store.accounts.find? x := by
  rcases l.store_change operation with hstore | hstore
  · rw [hstore]
  · rw [hstore, h]

/-- An operation touches one account at most. -/
theorem exists_touched (l : Ledger) (fresh : AccountId) (now : Timestamp) (command : Command) :
    ∃ id, ∀ x, x ≠ id →
      (l.perform fresh now command).2.store.accounts.find? x = l.store.accounts.find? x := by
  cases command with
  | create details =>
    exact ⟨fresh, fun x hx => find?_change
      ((LedgerStore.find?_insert l.store fresh now details x).trans (if_neg hx))⟩
  | account id => exact ⟨id, fun _ _ => rfl⟩
  | statement id => exact ⟨id, fun _ _ => rfl⟩
  | amend id update =>
    exact ⟨id, fun x hx => find?_change
      ((LedgerStore.find?_amend l.store id update x).trans (if_neg fun h => hx h.1))⟩
  | delete id =>
    exact ⟨id, fun x hx => find?_change ((LedgerStore.find?_delete l.store id x).trans (if_neg hx))⟩
  | deposit card amount =>
    have hdeposit : ∃ id, ∀ x, x ≠ id →
        (l.store.deposit card amount).2.accounts.find? x = l.store.accounts.find? x := by
      rw [LedgerStore.deposit_eq]
      split
      · exact ⟨fresh, fun _ _ => rfl⟩
      · exact ⟨fresh, fun _ _ => rfl⟩
      · exact ⟨_, fun x hx => LedgerStore.find?_updateBalance_of_ne hx _⟩
    obtain ⟨id, hid⟩ := hdeposit
    exact ⟨id, fun x hx => find?_change (hid x hx)⟩
  | updateBalance id u =>
    exact ⟨id, fun x hx => find?_change (LedgerStore.find?_updateBalance_of_ne hx u)⟩
  | append id payment => exact ⟨id, fun x _ => find?_change (LedgerStore.find?_append _ id payment x)⟩

/-- **An operation that fails has changed nothing, unless it fails after it has written.**  If it has
written, then to one account alone, and never to a statement, as long as every entry belongs to an
account. -/
theorem failed_operation (linked : l.store.Linked)
    (failed : (l.perform fresh now command).1 = .error e) :
    ((l.perform fresh now command).2 = l ↔
        l.closed = true ∨ ¬ l.store.FailsAfterWriting command) ∧
      (l.perform fresh now command).2.store.entries = l.store.entries ∧
      ∃ id, ∀ x, x ≠ id →
        (l.perform fresh now command).2.store.accounts.find? x = l.store.accounts.find? x := by
  have hiff := perform_failed failed
  refine ⟨hiff, ?_, l.exists_touched fresh now command⟩
  cases command with
  | create _ | account _ | statement _ | amend _ _ | deposit _ _ | updateBalance _ _ =>
    exact entries_perform l fresh now rfl
  | append id payment => rw [hiff.mpr (Or.inr not_false)]
  | delete id =>
    -- nothing stands under the name of an account that does not exist
    have hnot : ¬ l.store.FailsAfterWriting (.delete id) := by
      rintro ⟨hunknown, entry, hentry, rfl⟩
      have hcontains := linked entry hentry
      rw [Table.contains, hunknown] at hcontains
      cases hcontains
    rw [hiff.mpr (Or.inr hnot)]

end Ledger

/-! ## An account in the red -/

namespace NegativeBalance

open Sample

def row : AccountRow := { AccountRow.opened ⟨"a"⟩ default (details "Cora") with balance := -5 }

def ledger : Ledger := { store := ⟨⟨[row], List.pairwise_singleton _ _⟩, []⟩ }

/-- The customer is to be called Clara from now on. -/
def rename : Ledger.Command := .amend row.id { firstName := some "Clara" }

/-- The row of an account with a balance below zero is renamed, and the operation fails. -/
theorem failed_operation_rename :
    ledger.store.Linked ∧
      (ledger.perform ⟨"b"⟩ default rename).1 = .error (.conversion (.quantity (.negative (-5)))) ∧
      (ledger.perform ⟨"b"⟩ default rename).2.store.accounts.rows =
        [{ row with firstName := "Clara", version := .counted 1 }] ∧
      (ledger.perform ⟨"b"⟩ default rename).2 ≠ ledger ∧ ledger.store.FailsAfterWriting rename ∧
      (ledger.perform ⟨"b"⟩ default rename).2.store.entries = ledger.store.entries := by
  have linked : ledger.store.Linked := fun entry hentry => by cases hentry
  have failed : (ledger.perform ⟨"b"⟩ default rename).1 =
      .error (.conversion (.quantity (.negative (-5)))) := by decide +kernel
  obtain ⟨hiff, hentries, -⟩ := Ledger.failed_operation linked failed
  have hne : (ledger.perform ⟨"b"⟩ default rename).2 ≠ ledger := by decide +kernel
  refine ⟨linked, failed, by decide +kernel, hne, ?_, hentries⟩
  by_contra hnot
  exact hne (hiff.mpr (Or.inr hnot))

end NegativeBalance

end CardHolds

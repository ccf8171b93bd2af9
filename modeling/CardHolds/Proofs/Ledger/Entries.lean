import CardHolds.Proofs.Ledger.Holdings
import CardHolds.Statement.Server

/-!
# Statement entries

Two operations touch the statement entries: an append adds one at the end, and the deletion of an
account removes those of its statement.  All others leave them as they are
(`Ledger.entries_perform`).
-/

namespace CardHolds

namespace LedgerStore
variable (s : LedgerStore)

@[simp] theorem entries_insert (id : AccountId) (now : Timestamp) (details : NewAccount) :
    (s.insert id now details).2.entries = s.entries := by
  simp only [insert]
  split <;> rfl

@[simp] theorem entries_amend (id : AccountId) (update : AccountUpdate) :
    (s.amend id update).2.entries = s.entries := by
  unfold amend
  split <;> rfl

@[simp] theorem entries_updateBalance (id : AccountId) (update : BalanceUpdate) :
    (s.updateBalance id update).2.entries = s.entries := by
  simp only [updateBalance]
  repeat' split
  all_goals rfl

@[simp] theorem entries_deposit (cardNumber : String) (amount : Amount) :
    (s.deposit cardNumber amount).2.entries = s.entries := by
  rw [deposit_eq]
  split
  · rfl
  · rfl
  · exact s.entries_updateBalance _ _

/-- An entry is appended at the end, or the append is refused. -/
theorem append_cases (id : AccountId) (payment : PaymentId) :
    (∃ e, s.append id payment = (.error e, s)) ∨
      (s.append id payment).2.entries = s.entries ++ [⟨id, payment⟩] := by
  unfold append
  split
  · exact Or.inr rfl
  · exact Or.inl ⟨_, rfl⟩

/-- The payments of the entries, account by account. -/
theorem statement_of_entries {s s' : LedgerStore} {new : List StatementEntry}
    (h : s'.entries = s.entries ++ new) (x : AccountId) :
    s'.statement x =
      s.statement x ++ (new.filter fun e => decide (e.account = x)).map StatementEntry.payment := by
  rw [statement, statement, h, List.filter_append, List.map_append]

end LedgerStore

namespace Ledger

/-- The operation leaves the statement entries as they are. -/
def Command.keepsStatements : Command → Bool
  | .delete _ => false
  | .append _ _ => false
  | _ => true

theorem entries_change {α : Type} (l : Ledger)
    {operation : LedgerStore → Except LedgerError α × LedgerStore}
    (h : (operation l.store).2.entries = l.store.entries) :
    (l.change operation).2.store.entries = l.store.entries := by
  rcases l.store_change operation with hstore | hstore
  · rw [hstore]
  · rw [hstore, h]

theorem entries_updateBalance (l : Ledger) (id : AccountId) (u : BalanceUpdate) :
    (l.updateBalance id u).2.store.entries = l.store.entries :=
  l.entries_change (l.store.entries_updateBalance id u)

theorem entries_perform (l : Ledger) (fresh : AccountId) (now : Timestamp) {command : Command}
    (h : command.keepsStatements = true) :
    (l.perform fresh now command).2.store.entries = l.store.entries := by
  cases command with
  | create details => exact l.entries_change (l.store.entries_insert fresh now details)
  | account id => rfl
  | statement id => rfl
  | amend id update => exact l.entries_change (l.store.entries_amend id update)
  | delete id => cases h
  | deposit cardNumber amount => exact l.entries_change (l.store.entries_deposit cardNumber amount)
  | updateBalance id update => exact l.entries_updateBalance id update
  | append id payment => cases h

theorem append_cases (l : Ledger) (id : AccountId) (payment : PaymentId) :
    (∃ e, l.append id payment = (.error e, l)) ∨
      (l.append id payment).2.store.entries = l.store.entries ++ [⟨id, payment⟩] := by
  unfold append change
  split
  · exact Or.inl ⟨_, rfl⟩
  · rcases l.store.append_cases id payment with ⟨e, he⟩ | hentries
    · exact Or.inl ⟨e, by simp only [he]⟩
    · exact Or.inr hentries

/-- An account that can be read gets its entry. -/
theorem append_of_account {l : Ledger} {id : AccountId} {a : Account}
    (h : l.account id = .ok a) (payment : PaymentId) :
    ∃ n l', l.append id payment = (.ok n, l') ∧ l'.store.accounts = l.store.accounts ∧
      l'.store.entries = l.store.entries ++ [⟨id, payment⟩] := by
  obtain ⟨row, hrow, -⟩ := account_spec h
  have hcontains : l.store.accounts.contains id = true := by
    rw [Table.contains, hrow]
    rfl
  have hopen : l.closed = false := by
    cases hclosed : l.closed with
    | false => rfl
    | true =>
      unfold account read at h
      rw [hclosed] at h
      cases h
  unfold append change LedgerStore.append
  simp only [hopen, hcontains]
  exact ⟨_, _, rfl, rfl, rfl⟩

/-- A request is refused, or its entry is appended. -/
theorem handle_cases (l : Ledger) (request : StatementRequest) :
    ((Server.handle l request).1.isOk = false ∧
        (Server.handle l request).2.store.entries = l.store.entries) ∨
      (Server.handle l request).2.store.entries =
        l.store.entries ++ [⟨request.account, request.payment⟩] := by
  unfold Server.handle
  split
  · rename_i length l' h
    rcases l.append_cases request.account request.payment with ⟨e, he⟩ | hentries
    · rw [he] at h
      cases h
    · rw [h] at hentries
      exact Or.inr hentries
  · rename_i error l' h
    rcases l.append_cases request.account request.payment with ⟨e, he⟩ | hentries
    · rw [he] at h
      cases h
      exact Or.inl ⟨rfl, rfl⟩
    · rw [h] at hentries
      exact Or.inr hentries

end Ledger

end CardHolds

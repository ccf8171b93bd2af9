import CardHolds.Proofs.Ledger.Contents
import CardHolds.Proofs.Ledger.Scanning
import CardHolds.Proofs.Ledger.Update

/-!
# What a successful operation changes

Every operation is about one account.  `Ledger.SparesOthers` says that all others are as before, with
their statements, and `Ledger.Effect` says, operation by operation, what has become of the account
itself: which fields of its row were written, with what, and what has happened to its statement.

In a ledger that has come from an empty one every entry belongs to an account, and the statement of an
account says the same wherever it is read (`Ledger.Consistent`).

Main statement (`Ledger.touches_only_named`): a successful operation has its effect on the account that
it names and spares all others, and the three ways to read a statement agree.
-/

namespace CardHolds

/-! ## Rows -/

namespace AccountRow

/-- The version of the second row is the next one. -/
def Raised (row row' : AccountRow) : Prop :=
  ∃ v, row.version = .counted v ∧ row'.version = .counted (v + 1) ∧ (v + 1).toInt = v.toInt + 1

/-- A write that can be read has raised the version. -/
theorem raised_of_next {row row' : AccountRow} {n : Int64} (hnext : row'.version = row.version.next)
    (hread : row'.version = .counted n) : row.Raised row' := by
  cases hv : row.version with
  | outgrown =>
    rw [hnext, hv] at hread
    cases hread
  | counted v =>
    by_cases hmax : v = Int64.maxValue
    · rw [hnext, hv, hmax] at hread
      cases hread
    · have hcounted : (RowVersion.counted v).next = .counted (v + 1) := if_neg hmax
      refine ⟨v, hv, by rw [hnext, hv, hcounted], Int64.toInt_add_one ?_⟩
      have hlt := RowVersion.toInt_lt_add_one hmax
      have hlast := (v + 1).toInt_lt
      omega

end AccountRow

namespace Ledger
variable {l l' : Ledger} {x : AccountId} {α : Type}

/-- All accounts but one are as before, with their statements. -/
structure SparesOthers (l : Ledger) (x : AccountId) (l' : Ledger) : Prop where
  rows : ∀ y, y ≠ x → l'.store.accounts.find? y = l.store.accounts.find? y
  statements : ∀ y, y ≠ x → l'.store.statement y = l.store.statement y
  shown : ∀ y, y ≠ x → l'.account y = l.account y

/-- What a successful operation makes of the account that it is about. -/
inductive Effect (l l' : Ledger) (fresh : AccountId) (now : Timestamp) :
    AccountId → Command → Answer → Prop
  /-- A new account holds nothing, has version 0 and the empty statement: no entry stands under a
  fresh name, as long as entries belong to accounts. -/
  | create {details : NewAccount} {a : Account} (absent : l.store.accounts.find? fresh = none)
      (opened : a = ⟨fresh, details.firstName, details.lastName, details.card, .zero, .zero,
        l.store.statement fresh, 0, now⟩)
      (shown : l'.account fresh = .ok a) (entries : l'.store.entries = l.store.entries)
      (empty : l.store.Linked → a.statement = []) :
      Effect l l' fresh now fresh (.create details) (.account a)
  | account {x : AccountId} {a : Account} (shown : l.account x = .ok a) (same : l' = l) :
      Effect l l' fresh now x (.account x) (.account a)
  | statement {x : AccountId} {a : Account} (shown : l.account x = .ok a) (same : l' = l) :
      Effect l l' fresh now x (.statement x) (.statement a.statement)
  /-- An empty update changes nothing; any other writes what is present, and the next version. -/
  | amend {x : AccountId} {update : AccountUpdate} {row row' : AccountRow} {a : Account}
      (before : l.store.accounts.find? x = some row) (after : l'.store.accounts.find? x = some row')
      (written : row' = { row with
        firstName := update.firstName.getD row.firstName
        lastName := update.lastName.getD row.lastName
        card :=
          { number := update.cardNumber.getD row.card.number
            expiryMonth := update.expiryMonth.getD row.card.expiryMonth
            expiryYear := update.expiryYear.getD row.card.expiryYear
            securityCode := update.securityCode.getD row.card.securityCode }
        version := row'.version })
      (version : update = {} ∧ l' = l ∨ update ≠ {} ∧ row.Raised row')
      (entries : l'.store.entries = l.store.entries) (shown : l'.account x = .ok a) :
      Effect l l' fresh now x (.amend x update) (.account a)
  /-- Account and statement are gone, and no other entry is. -/
  | delete {x : AccountId} (exists_before : l.store.accounts.contains x = true)
      (after : l'.store.accounts.find? x = none)
      (entries : l'.store.entries = l.store.entries.filter fun entry => decide (entry.account ≠ x)) :
      Effect l l' fresh now x (.delete x) .deleted
  /-- The holder of the card has its balance raised by the amount, and the next version. -/
  | deposit {cardNumber : String} {amount : Amount} {row row' : AccountRow} {a : Account}
      (holder : l.store.holder? cardNumber = some row)
      (before : l.store.accounts.find? row.id = some row)
      (after : l'.store.accounts.find? row.id = some row')
      (written : row' = { row with balance := row'.balance, version := row'.version })
      (balance : row'.balance.toInt = row.balance.toInt + amount.units) (version : row.Raised row')
      (entries : l'.store.entries = l.store.entries) (shown : l'.account row.id = .ok a) :
      Effect l l' fresh now row.id (.deposit cardNumber amount) (.account a)
  /-- The quantities that are present are written, zero as well, and the next version. -/
  | updateBalance {x : AccountId} {u : BalanceUpdate} {row row' : AccountRow} {a : Account}
      (before : l.store.accounts.find? x = some row) (after : l'.store.accounts.find? x = some row')
      (written : row' = { row with
        balance := row'.balance, blocked := row'.blocked, version := row'.version })
      (balance : row'.balance.toInt = u.balance.elim row.balance.toInt fun b => b.units)
      (blocked : row'.blocked.toInt = u.blocked.elim row.blocked.toInt fun b => b.units)
      (version : row.Raised row')
      (entries : l'.store.entries = l.store.entries) (shown : l'.account x = .ok a) :
      Effect l l' fresh now x (.updateBalance x u) (.account a)
  /-- The payment is the last one of the statement, and nothing else is new. -/
  | append {x : AccountId} {payment : PaymentId} (exists_before : l.store.accounts.contains x = true)
      (row : l'.store.accounts.find? x = l.store.accounts.find? x)
      (entries : l'.store.entries = l.store.entries ++ [⟨x, payment⟩])
      (statement : l'.store.statement x = l.store.statement x ++ [payment]) :
      Effect l l' fresh now x (.append x payment) (.length (l'.store.statement x).length)

/-! ## Operations that succeed -/

section Operations
variable {fresh : AccountId} {now : Timestamp} {a : Account}

theorem SparesOthers.refl (l : Ledger) (x : AccountId) : l.SparesOthers x l :=
  ⟨fun _ _ => rfl, fun _ _ => rfl, fun _ _ => rfl⟩

/-- What is read of an account depends on its row and its statement alone. -/
theorem account_congr (hopen : l.closed = false) (hopen' : l'.closed = false)
    (hrow : l'.store.accounts.find? x = l.store.accounts.find? x)
    (hstatement : l'.store.statement x = l.store.statement x) : l'.account x = l.account x := by
  rw [account_eq hopen, account_eq hopen', hrow]
  cases hfound : l.store.accounts.find? x with
  | none => rfl
  | some row =>
    have hid : row.id = x := Table.key_of_find? hfound
    show row.read (l'.store.statement row.id) = row.read (l.store.statement row.id)
    rw [hid, hstatement]

theorem sparesOthers_of (hopen : l.closed = false) (hopen' : l'.closed = false)
    (hrows : ∀ y, y ≠ x → l'.store.accounts.find? y = l.store.accounts.find? y)
    (hstatements : ∀ y, y ≠ x → l'.store.statement y = l.store.statement y) : l.SparesOthers x l' :=
  ⟨hrows, hstatements, fun y hy => account_congr hopen hopen' (hrows y hy) (hstatements y hy)⟩

theorem statement_congr (h : l'.store.entries = l.store.entries) (y : AccountId) :
    l'.store.statement y = l.store.statement y := by
  rw [LedgerStore.statement, h, LedgerStore.statement]

/-- An operation that succeeds has met an open ledger. -/
theorem change_ok {operation : LedgerStore → Except LedgerError α × LedgerStore} {v : α}
    (h : l.change operation = (.ok v, l')) :
    l.closed = false ∧ operation l.store = (.ok v, l'.store) ∧ l'.closed = false := by
  unfold change at h
  split at h
  · cases h
  · rename_i hclosed
    have hopen := eq_false_of_ne_true hclosed
    obtain ⟨hanswer, rfl⟩ := Prod.mk.inj h
    exact ⟨hopen, Prod.ext hanswer rfl, hopen⟩

theorem require_ok {missing : LedgerError} {result : Except LedgerError (Option α)} {v : α}
    (h : require missing result = .ok v) : result = .ok (some v) := by
  unfold require at h
  split at h
  · cases h
    rfl
  · cases h
  · cases h

theorem fetch_ok {s : LedgerStore} (h : s.fetch x = .ok (some a)) :
    ∃ row, s.accounts.find? x = some row ∧ s.readRow row = .ok a := by
  unfold LedgerStore.fetch at h
  split at h
  · rename_i row hrow
    refine ⟨row, hrow, ?_⟩
    cases hread : s.readRow row with
    | error e => rw [hread] at h; cases h
    | ok b => rw [hread] at h; cases h; rfl
  · cases h

theorem account_of_row (hopen : l.closed = false) {row : AccountRow}
    (hrow : l.store.accounts.find? x = some row) (hread : l.store.readRow row = .ok a) :
    l.account x = .ok a := by
  rw [account_eq hopen, hrow]
  exact hread

theorem create_effect {details : NewAccount} (h : l.create fresh now details = (.ok a, l')) :
    l.SparesOthers fresh l' ∧ l.Effect l' fresh now fresh (.create details) (.account a) := by
  obtain ⟨hopen, hinsert, hopen'⟩ := change_ok h
  have hentries : l'.store.entries = l.store.entries := by
    have hentries := l.store.entries_insert fresh now details
    rwa [hinsert] at hentries
  have hfind := l.store.find?_insert fresh now details
  rw [hinsert] at hfind
  simp only at hfind
  cases hins : l.store.accounts.insert? (.opened fresh now details) with
  | none =>
    simp only [LedgerStore.insert, hins] at hinsert
    cases hinsert
  | some accounts =>
    have habsent : l.store.accounts.find? fresh = none := Table.find?_of_insert?_eq_some hins
    have hfound : l'.store.accounts.find? fresh = some (.opened fresh now details) := by
      rw [hfind, if_pos rfl, habsent, Option.getD_none]
    have hread : l'.store.readRow (.opened fresh now details) = .ok a := by
      simp only [LedgerStore.insert, hins] at hinsert
      obtain ⟨hread, hstore⟩ := Prod.mk.inj hinsert
      rw [← hread, ← hstore]
    have ha : a = ⟨fresh, details.firstName, details.lastName, details.card, .zero, .zero,
        l.store.statement fresh, 0, now⟩ := by
      rw [← statement_congr hentries]
      exact (Except.ok.inj hread).symm
    refine ⟨sparesOthers_of hopen hopen' (fun y hy => (hfind y).trans (if_neg hy))
      fun y _ => statement_congr hentries y, .create habsent ha
      (account_of_row hopen' hfound hread) hentries fun linked => ?_⟩
    rw [ha]
    refine List.map_eq_nil_iff.mpr (List.filter_eq_nil_iff.mpr fun entry hentry heq => ?_)
    have hcontains := linked entry hentry
    rw [of_decide_eq_true heq, Table.contains, habsent] at hcontains
    cases hcontains

theorem amend_effect {update : AccountUpdate} (h : l.amend x update = (.ok a, l')) :
    l.SparesOthers x l' ∧ l.Effect l' fresh now x (.amend x update) (.account a) := by
  obtain ⟨hopen, hamend, hopen'⟩ := change_ok h
  obtain ⟨hanswer, hstore⟩ := Prod.mk.inj hamend
  replace hanswer := require_ok hanswer
  have hentries : l'.store.entries = l.store.entries := by
    rw [← hstore]
    exact l.store.entries_amend x update
  have hfind := l.store.find?_amend x update
  rw [hstore] at hfind
  have hspares : l.SparesOthers x l' := sparesOthers_of hopen hopen'
    (fun y hy => (hfind y).trans (if_neg fun h => hy h.1)) fun y _ => statement_congr hentries y
  refine ⟨hspares, ?_⟩
  by_cases hempty : update.isEmpty = true
  · have hsame : l' = l := by
      rw [LedgerStore.amend, if_pos hempty] at hstore
      obtain ⟨store, closed⟩ := l
      obtain ⟨store', closed'⟩ := l'
      cases hstore
      cases hopen
      cases hopen'
      rfl
    rw [LedgerStore.amend, if_pos hempty] at hanswer
    obtain ⟨row, hrow, hread⟩ := fetch_ok hanswer
    cases AccountUpdate.isEmpty_iff.mp hempty
    rw [hsame]
    exact .amend hrow hrow rfl (Or.inl ⟨rfl, rfl⟩) rfl (account_of_row hopen hrow hread)
  · rw [LedgerStore.amend, if_neg hempty] at hanswer hstore
    simp only at hanswer hstore
    rw [hstore] at hanswer
    obtain ⟨row', hrow', hread⟩ := fetch_ok hanswer
    have hafter := hrow'
    rw [hfind, if_pos ⟨rfl, hempty⟩] at hafter
    obtain ⟨row, hrow, rfl⟩ := Option.map_eq_some_iff.mp hafter
    exact .amend hrow hrow' rfl
      (Or.inr ⟨fun h => hempty (AccountUpdate.isEmpty_iff.mpr h),
        AccountRow.raised_of_next rfl (AccountRow.read_spec hread).2.1⟩)
      hentries (account_of_row hopen' hrow' hread)

theorem delete_effect (h : l.delete x = (.ok (), l')) :
    l.SparesOthers x l' ∧ l.Effect l' fresh now x (.delete x) .deleted := by
  obtain ⟨hopen, hdelete, hopen'⟩ := change_ok h
  obtain ⟨hanswer, hstore⟩ := Prod.mk.inj hdelete
  have hfind := l.store.find?_delete x
  rw [hstore] at hfind
  have hentries : l'.store.entries =
      l.store.entries.filter fun entry => decide (entry.account ≠ x) := by
    rw [← hstore]
    rfl
  have hexists : l.store.accounts.contains x = true := by
    cases hcontains : l.store.accounts.contains x with
    | true => rfl
    | false =>
      have hdeleted : (l.store.delete x).1 = false := hcontains
      rw [hdeleted, if_neg Bool.false_ne_true] at hanswer
      cases hanswer
  refine ⟨sparesOthers_of hopen hopen' (fun y hy => (hfind y).trans (if_neg hy)) fun y hy => ?_,
    .delete hexists ((hfind x).trans (if_pos rfl)) hentries⟩
  rw [LedgerStore.statement, hentries, List.filter_filter, LedgerStore.statement]
  refine congrArg (List.map StatementEntry.payment) (List.filter_congr fun entry _ => ?_)
  by_cases hentry : entry.account = y
  · simp [hentry, hy]
  · simp [hentry]

/-- An update that is answered has written the quantities that are present, and the next version. -/
theorem written_of_updateBalance {u : BalanceUpdate} (h : l.updateBalance x u = (.ok a, l')) :
    l.SparesOthers x l' ∧ l'.store.entries = l.store.entries ∧ l'.account x = .ok a ∧
      ∃ row row', l.store.accounts.find? x = some row ∧ l'.store.accounts.find? x = some row' ∧
        row' = { row with
          balance := row'.balance, blocked := row'.blocked, version := row'.version } ∧
        row'.held = row.held + u.change row.held ∧ row.Raised row' := by
  obtain ⟨hopen, hupdate, hopen'⟩ := change_ok h
  by_cases haccepts : ∃ row, l.store.Accepts x u row
  · obtain ⟨row, haccepts⟩ := haccepts
    obtain ⟨balance, blocked, s', hheld, hentries, haccounts, heq⟩ := haccepts.updateBalance_eq
    obtain ⟨hread, hstore⟩ := Prod.mk.inj (heq.symm.trans hupdate)
    rw [hstore] at hread hentries haccounts
    have hfind : ∀ y, l'.store.accounts.find? y =
        if y = x then (l.store.accounts.find? y).map (·.write balance blocked)
        else l.store.accounts.find? y := fun y => by
      rw [haccounts]
      exact Table.find?_modify
    have hafter : l'.store.accounts.find? x = some (row.write balance blocked) := by
      rw [hfind, if_pos rfl, haccepts.found, Option.map_some]
    exact ⟨sparesOthers_of hopen hopen' (fun y hy => (hfind y).trans (if_neg hy))
      fun y _ => statement_congr hentries y, hentries, account_of_row hopen' hafter hread, row, _,
      haccepts.found, hafter, rfl, hheld,
      AccountRow.raised_of_next rfl (AccountRow.read_spec hread).2.1⟩
  · obtain ⟨e, he⟩ := LedgerStore.updateBalance_of_not_accepts (not_exists.mp haccepts)
    cases he.symm.trans hupdate

theorem updateBalance_effect {u : BalanceUpdate} (h : l.updateBalance x u = (.ok a, l')) :
    l.SparesOthers x l' ∧ l.Effect l' fresh now x (.updateBalance x u) (.account a) := by
  obtain ⟨hspares, hentries, hshown, row, row', hrow, hrow', hwritten, hheld, hraised⟩ :=
    written_of_updateBalance h
  exact ⟨hspares, .updateBalance hrow hrow' hwritten
    ((congrArg Prod.fst hheld).trans (u.add_change_fst row.held))
    ((congrArg Prod.snd hheld).trans (u.add_change_snd row.held)) hraised hentries hshown⟩

theorem deposit_effect {cardNumber : String} {amount : Amount}
    (h : l.deposit cardNumber amount = (.ok a, l')) :
    ∃ x, l.SparesOthers x l' ∧ l.Effect l' fresh now x (.deposit cardNumber amount) (.account a) := by
  rw [deposit_eq] at h
  split at h
  · cases h
  · cases h
  · rename_i plan hplan
    unfold Ledger.read at hplan
    split at hplan
    · cases hplan
    · obtain ⟨row, version, balance, hholder, -, -, hsum, rfl⟩ :=
        LedgerStore.exists_holder_of_planDeposit hplan
      obtain ⟨hspares, hentries, hshown, row₁, row', hrow, hrow', hwritten, hheld, hraised⟩ :=
        written_of_updateBalance h
      cases (LedgerStore.find?_of_holder? hholder).symm.trans hrow
      have hbalance : row'.balance.toInt = balance.units :=
        (congrArg Prod.fst hheld).trans (BalanceUpdate.add_change_fst _ row.held)
      have hblocked : row'.blocked = row.blocked :=
        Int64.toInt_inj.mp ((congrArg Prod.snd hheld).trans (BalanceUpdate.add_change_snd _ row.held))
      refine ⟨row.id, hspares, .deposit hholder hrow hrow' ?_ (hbalance.trans hsum) hraised hentries
        hshown⟩
      rw [hblocked] at hwritten
      exact hwritten

theorem append_effect {payment : PaymentId} {n : Nat} (h : l.append x payment = (.ok n, l')) :
    l.SparesOthers x l' ∧ l.Effect l' fresh now x (.append x payment) (.length n) := by
  obtain ⟨hopen, happend, hopen'⟩ := change_ok h
  have hfind := l.store.find?_append x payment
  rw [happend] at hfind
  unfold LedgerStore.append at happend
  split at happend
  · rename_i hexists
    obtain ⟨hlength, hstore⟩ := Prod.mk.inj happend
    have hentries : l'.store.entries = l.store.entries ++ [⟨x, payment⟩] := by
      rw [← hstore]
    have hstatement := LedgerStore.statement_of_entries hentries
    have hself : l'.store.statement x = l.store.statement x ++ [payment] := by
      rw [hstatement x]
      simp
    have hn : n = (l'.store.statement x).length := by
      rw [← hstore]
      exact (Except.ok.inj hlength).symm
    rw [hn]
    refine ⟨sparesOthers_of hopen hopen' (fun y _ => hfind y) fun y hy => ?_,
      .append hexists (hfind x) hentries hself⟩
    rw [hstatement y, List.filter_cons_of_neg (by simp [Ne.symm hy])]
    exact List.append_nil _
  · cases happend

theorem map_eq_ok {ε β : Type} {f : α → β} {result : Except ε α} {b : β}
    (h : result.map f = .ok b) : ∃ v, result = .ok v ∧ f v = b := by
  cases result with
  | error e => cases h
  | ok v => exact ⟨v, rfl, Except.ok.inj h⟩

/-- **A successful operation has its effect on one account and spares all others.** -/
theorem perform_effect {command : Command} {answer : Answer}
    (h : l.perform fresh now command = (.ok answer, l')) :
    ∃ x, l.SparesOthers x l' ∧ l.Effect l' fresh now x command answer := by
  obtain ⟨hanswer, hledger⟩ := Prod.mk.inj h
  cases command with
  | create details =>
    obtain ⟨a, ha, rfl⟩ := map_eq_ok hanswer
    exact ⟨fresh, create_effect (Prod.ext ha hledger)⟩
  | account id =>
    obtain ⟨a, ha, rfl⟩ := map_eq_ok hanswer
    cases hledger
    exact ⟨id, .refl l id, .account ha rfl⟩
  | statement id =>
    obtain ⟨payments, hpayments, rfl⟩ := map_eq_ok hanswer
    obtain ⟨a, ha, rfl⟩ := map_eq_ok hpayments
    cases hledger
    exact ⟨id, .refl l id, .statement ha rfl⟩
  | amend id update =>
    obtain ⟨a, ha, rfl⟩ := map_eq_ok hanswer
    exact ⟨id, amend_effect (Prod.ext ha hledger)⟩
  | delete id =>
    obtain ⟨_, hdone, rfl⟩ := map_eq_ok hanswer
    exact ⟨id, delete_effect (Prod.ext hdone hledger)⟩
  | deposit cardNumber amount =>
    obtain ⟨a, ha, rfl⟩ := map_eq_ok hanswer
    exact deposit_effect (Prod.ext ha hledger)
  | updateBalance id u =>
    obtain ⟨a, ha, rfl⟩ := map_eq_ok hanswer
    exact ⟨id, updateBalance_effect (Prod.ext ha hledger)⟩
  | append id payment =>
    obtain ⟨n, hn, rfl⟩ := map_eq_ok hanswer
    exact ⟨id, append_effect (Prod.ext hn hledger)⟩

end Operations

/-! ## Statements, wherever they are read -/

/-- Every entry of a statement belongs to an account, and all readings show the same statement of it:
the payments of its entries, in the order in which they were appended. -/
structure Consistent (l : Ledger) : Prop where
  linked : l.store.Linked
  account : ∀ y a, l.account y = .ok a → a.statement = l.store.statement y
  statement : ∀ y, l.statement y = (l.account y).map fun _ => l.store.statement y
  paged : ∀ after limit page, l.page after limit = .ok page →
    ∀ a ∈ page, l.account a.id = .ok a ∧ a.statement = l.store.statement a.id
  /-- An account is on the page that it comes to, unless others before it fill this page. -/
  complete : ∀ after limit page, l.page after limit = .ok page →
    ∀ y a, l.account y = .ok a → Ahead after y →
      a ∈ page ∨ page.length = limit ∧ ∀ z, page.getLast? = some z → z.id < y

theorem statement_of_account {y : AccountId} {a : Account} (h : l.account y = .ok a) :
    a.statement = l.store.statement y := by
  obtain ⟨row, hrow, hread⟩ := exists_row_of_account h
  rw [(AccountRow.shown_of_read hread).2.2, show row.id = y from Table.key_of_find? hrow]

theorem account_of_page {after : Option AccountId} {limit : Nat} {page : List Account}
    (h : l.page after limit = .ok page) {a : Account} (ha : a ∈ page) : l.account a.id = .ok a := by
  have hmem : (.ok a : Except LedgerError Account) ∈ page.map .ok := List.mem_map_of_mem ha
  rw [(page_eq_ok_iff.mp h).2] at hmem
  obtain ⟨row, -, hrow⟩ := List.mem_map.mp hmem
  rwa [id_of_account hrow]

theorem consistent_of_linked (linked : l.store.Linked) : l.Consistent where
  linked := linked
  account y a h := statement_of_account h
  statement y := by
    unfold Ledger.statement
    cases h : l.account y with
    | error e => rfl
    | ok a => exact congrArg Except.ok (statement_of_account h)
  paged after limit page h a ha :=
    ⟨account_of_page h ha, statement_of_account (account_of_page h ha)⟩
  complete after limit page h y a hy hahead := by
    obtain ⟨row, hrow, -⟩ := exists_row_of_account hy
    have hexists : l.store.accounts.contains y = true := Option.isSome_iff_exists.mpr ⟨row, hrow⟩
    refine (Scan.page_complete h hexists hahead).imp_left ?_
    rintro ⟨b, hb, rfl⟩
    cases hy.symm.trans (account_of_page h hb)
    exact hb

theorem linked_performAll (linked : l.store.Linked) (run : List Stamped) :
    (l.performAll run).store.Linked := by
  induction run generalizing l with
  | nil => exact linked
  | cons op run ih => exact ih (linked_perform linked op.fresh op.now op.command)

/-- **Operations touch only what they name.**  An operation that succeeds on a ledger, whatever is in
it, has its effect on one account and spares all others; and whatever is done to an empty ledger, no
entry of a statement is left without its account, and all readings of a statement agree. -/
theorem touches_only_named (l l' : Ledger) (fresh : AccountId) (now : Timestamp) (command : Command)
    (answer : Answer) (run : List Stamped) :
    (l.perform fresh now command = (.ok answer, l') →
      ∃ x, l.SparesOthers x l' ∧ l.Effect l' fresh now x command answer) ∧
    (({} : Ledger).performAll run).Consistent :=
  ⟨perform_effect, consistent_of_linked (linked_performAll (fun _ h => by cases h) run)⟩

end Ledger

/-! ## Two accounts with statements -/

namespace NeighbouringStatements

open Sample

/-- Two accounts whose entries alternate. -/
def run : List Ledger.Stamped :=
  [⟨⟨"a"⟩, default, .create (details "Ada")⟩, ⟨⟨"b"⟩, default, .create (details "Bea")⟩,
    ⟨default, default, .append ⟨"a"⟩ ⟨"p"⟩⟩, ⟨default, default, .append ⟨"b"⟩ ⟨"p"⟩⟩,
    ⟨default, default, .append ⟨"a"⟩ ⟨"q"⟩⟩, ⟨default, default, .append ⟨"b"⟩ ⟨"r"⟩⟩]

def ledger : Ledger := ({} : Ledger).performAll run

/-- With the first account its entries go, and not those of the second one. -/
theorem touches_only_named_delete :
    let l' := (ledger.delete ⟨"a"⟩).2
    ledger.perform default default (.delete ⟨"a"⟩) = (.ok .deleted, l') ∧
      ledger.statement ⟨"a"⟩ = .ok [⟨"p"⟩, ⟨"q"⟩] ∧ ledger.Consistent ∧
      l'.store.entries = [⟨⟨"b"⟩, ⟨"p"⟩⟩, ⟨⟨"b"⟩, ⟨"r"⟩⟩] ∧
      l'.statement ⟨"b"⟩ = .ok [⟨"p"⟩, ⟨"r"⟩] ∧
      ∃ x, ledger.SparesOthers x l' ∧ ledger.Effect l' default default x (.delete ⟨"a"⟩) .deleted := by
  have hdone : ledger.perform default default (.delete ⟨"a"⟩) =
      (.ok .deleted, (ledger.delete ⟨"a"⟩).2) := by decide +kernel
  obtain ⟨heffect, hconsistent⟩ := Ledger.touches_only_named ledger (ledger.delete ⟨"a"⟩).2
    default default (.delete ⟨"a"⟩) .deleted run
  exact ⟨hdone, by decide +kernel, hconsistent, by decide +kernel, by decide +kernel, heffect hdone⟩

end NeighbouringStatements

end CardHolds

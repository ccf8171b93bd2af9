import CardHolds.Ledger.Scan

/-!
# Other security codes

`recode` replaces every security code by another one, in a ledger, in what it is told to do and in what
it answers.  The ledger keeps the codes and never looks at them: every operation of a recoded ledger
answers with the recoded answer (`Ledger.perform_recode`, `Ledger.page_recode`), and whatever is shown
of a card is shown of the recoded one (`Card.describe_recode`).
-/

namespace CardHolds

/-! ## Tables -/

namespace Table
variable {κ ρ : Type} {key : ρ → κ}

/-- Every row replaced by one of the same key. -/
def relabel (t : Table key) (f : ρ → ρ) (key_eq : ∀ r, key (f r) = key r) : Table key where
  rows := t.rows.map f
  nodup_keys := by
    have h : key ∘ f = key := funext key_eq
    rw [List.map_map, h]
    exact t.nodup_keys

variable [DecidableEq κ] {t : Table key} {f : ρ → ρ} (key_eq : ∀ r, key (f r) = key r)

theorem find?_relabel (k : κ) : (t.relabel f key_eq).find? k = (t.find? k).map f := by
  unfold find? relabel
  simp only [List.find?_map, Function.comp_def, key_eq]

theorem contains_relabel (k : κ) : (t.relabel f key_eq).contains k = t.contains k := by
  rw [contains, contains, find?_relabel, Option.isSome_map]

theorem insert?_relabel (r : ρ) :
    (t.relabel f key_eq).insert? (f r) = (t.insert? r).map fun u => u.relabel f key_eq := by
  have hkeys : (t.relabel f key_eq).rows.map key = t.rows.map key := by
    simp only [relabel, List.map_map, Function.comp_def, key_eq]
  unfold insert?
  simp only [hkeys, key_eq]
  split
  · rfl
  · refine congrArg some (ext ?_)
    show t.rows.map f ++ [f r] = (t.rows ++ [r]).map f
    rw [List.map_append]
    rfl

theorem modify_relabel (k : κ) {g g' : ρ → ρ} {hg : ∀ r, key (g r) = key r}
    {hg' : ∀ r, key (g' r) = key r} (h : ∀ r, g' (f r) = f (g r)) :
    (t.relabel f key_eq).modify k g' hg' = (t.modify k g hg).relabel f key_eq := by
  refine ext ?_
  simp only [relabel, modify, List.map_map]
  refine List.map_congr_left fun r _ => ?_
  simp only [Function.comp_apply, key_eq, h]
  exact (apply_ite f _ _ _).symm

theorem erase_relabel (k : κ) :
    (t.relabel f key_eq).erase k = (t.erase k).relabel f key_eq := by
  refine ext ?_
  simp only [relabel, erase, List.filter_map, Function.comp_def, key_eq]

end Table

/-! ## What has a security code -/

section
variable (ρ : Secret → Secret)

def Card.recode (c : Card) : Card := { c with securityCode := ρ c.securityCode }

def Account.recode (a : Account) : Account := { a with card := a.card.recode ρ }

def NewAccount.recode (details : NewAccount) : NewAccount :=
  { details with card := details.card.recode ρ }

def AccountUpdate.recode (u : AccountUpdate) : AccountUpdate :=
  { u with securityCode := u.securityCode.map ρ }

def AccountRow.recode (row : AccountRow) : AccountRow := { row with card := row.card.recode ρ }

theorem AccountRow.id_recode (row : AccountRow) : (row.recode ρ).id = row.id := rfl

def LedgerStore.recode (s : LedgerStore) : LedgerStore :=
  { s with accounts := s.accounts.relabel (AccountRow.recode ρ) (AccountRow.id_recode ρ) }

def Ledger.recode (l : Ledger) : Ledger := { l with store := l.store.recode ρ }

/-- Only new accounts and identity updates come with security codes. -/
def Ledger.Command.recode : Command → Command
  | create details => create (details.recode ρ)
  | account id => account id
  | statement id => statement id
  | amend id update => amend id (update.recode ρ)
  | delete id => delete id
  | deposit cardNumber amount => deposit cardNumber amount
  | updateBalance id update => updateBalance id update
  | append id payment => append id payment

def Ledger.Answer.recode : Answer → Answer
  | account a => account (a.recode ρ)
  | statement payments => statement payments
  | deleted => deleted
  | length entries => length entries

end

section
variable {ρ : Secret → Secret}

/-- A card is shown without its security code, on payments and in messages. -/
theorem Card.describe_eq {c c' : Card} (h : c.snapshot = c'.snapshot) : c.describe = c'.describe := by
  obtain ⟨number, month, year, _⟩ := c
  cases h
  rfl

theorem Card.describe_recode (c : Card) : (c.recode ρ).describe = c.describe := describe_eq rfl

theorem Card.recode_inj (hρ : Function.Injective ρ) {c c' : Card} :
    c.recode ρ = c'.recode ρ ↔ c = c' := by
  simp only [Card.ext_iff, recode, hρ.eq_iff]

theorem AccountUpdate.isEmpty_recode (u : AccountUpdate) : (u.recode ρ).isEmpty = u.isEmpty := by
  simp only [isEmpty, recode, Option.isNone_map]

theorem AccountRow.amend_recode (row : AccountRow) (u : AccountUpdate) :
    (row.recode ρ).amend (u.recode ρ) = (row.amend u).recode ρ := by
  unfold amend recode AccountUpdate.recode AccountUpdate.applyToCard Card.recode
  cases u.securityCode <;> rfl

theorem AccountRow.read_recode (row : AccountRow) (statement : List PaymentId) :
    (row.recode ρ).read statement = (row.read statement).map (Account.recode ρ) := by
  unfold read
  simp only [recode, bind, Except.bind]
  cases row.version.read with
  | error e => rfl
  | ok version =>
    cases readQuantity row.balance with
    | error e => rfl
    | ok balance => cases readQuantity row.blocked <;> rfl

/-! ## The store -/

namespace LedgerStore
variable {s : LedgerStore}

theorem readRow_recode (row : AccountRow) :
    (s.recode ρ).readRow (row.recode ρ) = (s.readRow row).map (Account.recode ρ) :=
  row.read_recode _

theorem find?_recode (id : AccountId) :
    (s.recode ρ).accounts.find? id = (s.accounts.find? id).map (AccountRow.recode ρ) :=
  Table.find?_relabel (AccountRow.id_recode ρ) id

theorem fetch_recode (id : AccountId) :
    (s.recode ρ).fetch id = (s.fetch id).map (Option.map (Account.recode ρ)) := by
  unfold fetch
  rw [find?_recode]
  cases s.accounts.find? id with
  | none => rfl
  | some row =>
    show ((s.recode ρ).readRow (row.recode ρ)).map some = ((s.readRow row).map some).map _
    rw [readRow_recode]
    cases s.readRow row <;> rfl

theorem insert_recode (id : AccountId) (now : Timestamp) (details : NewAccount) :
    (s.recode ρ).insert id now (details.recode ρ) =
      ((s.insert id now details).1.map (Account.recode ρ), (s.insert id now details).2.recode ρ) := by
  have hinsert : (s.recode ρ).accounts.insert? ((AccountRow.opened id now details).recode ρ) = _ :=
    Table.insert?_relabel (AccountRow.id_recode ρ) (AccountRow.opened id now details)
  have hopened : AccountRow.opened id now (details.recode ρ) =
    (AccountRow.opened id now details).recode ρ := rfl
  unfold insert
  simp only [hopened, hinsert]
  cases s.accounts.insert? (AccountRow.opened id now details) with
  | none => rfl
  | some accounts => exact congrArg (Prod.mk · _) (AccountRow.read_recode _ _)

theorem amend_recode (id : AccountId) (u : AccountUpdate) :
    (s.recode ρ).amend id (u.recode ρ) =
      ((s.amend id u).1.map (Option.map (Account.recode ρ)), (s.amend id u).2.recode ρ) := by
  have hmodify : (s.recode ρ).accounts.modify id (·.amend (u.recode ρ)) (fun _ => rfl) =
      (s.accounts.modify id (·.amend u) fun _ => rfl).relabel (AccountRow.recode ρ)
        (AccountRow.id_recode ρ) :=
    Table.modify_relabel (AccountRow.id_recode ρ) id fun row => row.amend_recode u
  unfold amend
  rw [u.isEmpty_recode]
  split
  · exact congrArg (Prod.mk · _) (fetch_recode id)
  · simp only [hmodify]
    exact congrArg (Prod.mk · _)
      (fetch_recode (s := ⟨s.accounts.modify id (·.amend u) fun _ => rfl, s.entries⟩) id)

theorem delete_recode (id : AccountId) :
    (s.recode ρ).delete id = ((s.delete id).1, (s.delete id).2.recode ρ) := by
  have hcontains : (s.recode ρ).accounts.contains id = s.accounts.contains id :=
    Table.contains_relabel (AccountRow.id_recode ρ) id
  have herase : (s.recode ρ).accounts.erase id =
      (s.accounts.erase id).relabel (AccountRow.recode ρ) (AccountRow.id_recode ρ) :=
    Table.erase_relabel (AccountRow.id_recode ρ) id
  unfold delete
  rw [hcontains, herase]
  rfl

theorem append_recode (id : AccountId) (payment : PaymentId) :
    (s.recode ρ).append id payment = ((s.append id payment).1, (s.append id payment).2.recode ρ) := by
  have hcontains : (s.recode ρ).accounts.contains id = s.accounts.contains id :=
    Table.contains_relabel (AccountRow.id_recode ρ) id
  unfold append
  rw [hcontains]
  split <;> rfl

theorem updateBalance_recode (id : AccountId) (u : BalanceUpdate) :
    (s.recode ρ).updateBalance id u =
      ((s.updateBalance id u).1.map (Account.recode ρ), (s.updateBalance id u).2.recode ρ) := by
  unfold updateBalance
  rw [find?_recode]
  cases u.balance.mapM storeQuantity with
  | error e => rfl
  | ok balance =>
    cases u.blocked.mapM storeQuantity with
    | error e => rfl
    | ok blocked =>
      cases s.accounts.find? id with
      | none => rfl
      | some row =>
        have hexpects : expects u.expectedVersion (row.recode ρ) = expects u.expectedVersion row := rfl
        have hbelow : ((row.recode ρ).write balance blocked).belowZero? =
          (row.write balance blocked).belowZero? := rfl
        have hmodify : (s.recode ρ).accounts.modify id (·.write balance blocked) (fun _ => rfl) =
            (s.accounts.modify id (·.write balance blocked) fun _ => rfl).relabel
              (AccountRow.recode ρ) (AccountRow.id_recode ρ) :=
          Table.modify_relabel (AccountRow.id_recode ρ) id fun _ => rfl
        simp only [Option.map_some, hexpects, hbelow, hmodify]
        split
        · cases (row.write balance blocked).belowZero? with
          | some quantity => rfl
          | none => exact congrArg (Prod.mk · _) ((row.write balance blocked).read_recode _)
        · have hread : (row.recode ρ).version.read = row.version.read := rfl
          rw [hread]
          cases row.version.read with
          | error e => rfl
          | ok actual => cases u.expectedVersion <;> rfl

theorem oldest?_recode (rows : List AccountRow) :
    oldest? (rows.map (AccountRow.recode ρ)) = (oldest? rows).map (AccountRow.recode ρ) := by
  induction rows with
  | nil => rfl
  | cons row rest ih =>
    rw [List.map_cons, oldest?, oldest?, ih]
    cases oldest? rest with
    | none => rfl
    | some other =>
      show (if row.openedAt ≤ other.openedAt then _ else _) = _
      split
      · rename_i h
        simp only [if_pos h]
        rfl
      · rename_i h
        simp only [if_neg h]
        rfl

theorem holder?_recode (cardNumber : String) :
    (s.recode ρ).holder? cardNumber = (s.holder? cardNumber).map (AccountRow.recode ρ) := by
  unfold holder?
  rw [← oldest?_recode]
  exact congrArg oldest? List.filter_map

theorem deposit_recode (cardNumber : String) (amount : Amount) :
    (s.recode ρ).deposit cardNumber amount =
      ((s.deposit cardNumber amount).1.map (Option.map (Account.recode ρ)),
        (s.deposit cardNumber amount).2.recode ρ) := by
  unfold deposit
  rw [holder?_recode]
  cases s.holder? cardNumber with
  | none => rfl
  | some row =>
    have hversion : (row.recode ρ).version.read = row.version.read := rfl
    have hbalance : (row.recode ρ).balance = row.balance := rfl
    have hid : (row.recode ρ).id = row.id := rfl
    -- all that a deposit looks at in the row is kept
    simp only [Option.map_some, hversion, hbalance, hid]
    cases row.version.read with
    | error e => rfl
    | ok version =>
      cases readQuantity row.balance with
      | error e => rfl
      | ok current =>
        dsimp only
        cases current.add? amount with
        | none => rfl
        | some balance =>
          simp only [updateBalance_recode]
          cases (s.updateBalance row.id
            { balance := some balance, expectedVersion := some version }).1 <;> rfl

theorem sortedRows_recode : (s.recode ρ).sortedRows = s.sortedRows.map (AccountRow.recode ρ) :=
  (List.map_mergeSort (f := AccountRow.recode ρ) fun _ _ _ _ => rfl).symm

theorem pageRows_recode (after : Option AccountId) (limit : Nat) :
    (s.recode ρ).pageRows after limit = (s.pageRows after limit).map (AccountRow.recode ρ) := by
  unfold pageRows
  cases after with
  | none => simp only [sortedRows_recode, List.map_take]
  | some id =>
    simp only [sortedRows_recode, List.map_take, List.filter_map]
    rfl

theorem page_recode (after : Option AccountId) (limit : Nat) :
    (s.recode ρ).page after limit = (s.page after limit).map (List.map (Account.recode ρ)) := by
  have hversions : ∀ rows : List AccountRow,
      (rows.map (AccountRow.recode ρ)).mapM (fun row => row.version.read) =
        rows.mapM fun row => row.version.read := fun rows => by rw [List.mapM_map]; rfl
  have haccounts : ∀ rows : List AccountRow,
      (rows.map (AccountRow.recode ρ)).mapM (s.recode ρ).readRow =
        (rows.mapM s.readRow).map (List.map (Account.recode ρ)) := by
    intro rows
    induction rows with
    | nil => rfl
    | cons row rest ih =>
      rw [List.map_cons, List.mapM_cons, List.mapM_cons, ih, readRow_recode]
      cases s.readRow row with
      | error e => rfl
      | ok a => cases rest.mapM s.readRow <;> rfl
  unfold page
  simp only [pageRows_recode, hversions, haccounts]
  cases (s.pageRows after limit).mapM (fun row => row.version.read) <;> rfl

end LedgerStore

/-! ## The ledger -/

namespace Ledger
variable {α : Type} {l : Ledger}

theorem require_map (e : LedgerError) (f : α → α) (r : Except LedgerError (Option α)) :
    require e (r.map (Option.map f)) = (require e r).map f := by
  match r with
  | .error _ => rfl
  | .ok none => rfl
  | .ok (some _) => rfl

theorem read_recode {query : LedgerStore → Except LedgerError α} {f : α → α}
    (h : ∀ s : LedgerStore, query (s.recode ρ) = (query s).map f) :
    (l.recode ρ).read query = (l.read query).map f := by
  show (if l.closed then _ else query (l.store.recode ρ)) = (if l.closed then _ else _ : Except _ _).map f
  split
  · rfl
  · exact h l.store

theorem change_recode {operation operation' : LedgerStore → Except LedgerError α × LedgerStore}
    {f : α → α} (h : ∀ s : LedgerStore, operation' (s.recode ρ) =
      ((operation s).1.map f, (operation s).2.recode ρ)) :
    (l.recode ρ).change operation' = ((l.change operation).1.map f, (l.change operation).2.recode ρ) := by
  have hclosed : (l.recode ρ).closed = l.closed := rfl
  have hstore : (l.recode ρ).store = l.store.recode ρ := rfl
  unfold change
  rw [hclosed, hstore, h]
  split <;> rfl

theorem account_recode (id : AccountId) :
    (l.recode ρ).account id = (l.account id).map (Account.recode ρ) :=
  read_recode fun s => by rw [s.fetch_recode, require_map]

theorem page_recode (after : Option AccountId) (limit : Nat) :
    (l.recode ρ).page after limit = (l.page after limit).map (List.map (Account.recode ρ)) :=
  read_recode fun s => s.page_recode after limit

theorem updateBalance_recode (id : AccountId) (u : BalanceUpdate) :
    (l.recode ρ).updateBalance id u =
      ((l.updateBalance id u).1.map (Account.recode ρ), (l.updateBalance id u).2.recode ρ) :=
  change_recode fun s => s.updateBalance_recode id u

theorem change_recode_same {operation operation' : LedgerStore → Except LedgerError α × LedgerStore}
    (h : ∀ s : LedgerStore, operation' (s.recode ρ) = ((operation s).1, (operation s).2.recode ρ)) :
    (l.recode ρ).change operation' = ((l.change operation).1, (l.change operation).2.recode ρ) := by
  have hsame : ∀ r : Except LedgerError α, r.map (fun a => a) = r := fun r => by cases r <;> rfl
  have hchange : (l.recode ρ).change operation' =
      ((l.change operation).1.map fun a => a, (l.change operation).2.recode ρ) :=
    change_recode fun s => by rw [h, hsame]
  rw [hchange, hsame]

theorem create_recode (fresh : AccountId) (now : Timestamp) (details : NewAccount) :
    (l.recode ρ).create fresh now (details.recode ρ) =
      ((l.create fresh now details).1.map (Account.recode ρ),
        (l.create fresh now details).2.recode ρ) :=
  change_recode fun s => s.insert_recode fresh now details

theorem statement_recode (id : AccountId) : (l.recode ρ).statement id = l.statement id := by
  unfold statement
  rw [account_recode]
  cases l.account id <;> rfl

theorem amend_recode (id : AccountId) (u : AccountUpdate) :
    (l.recode ρ).amend id (u.recode ρ) =
      ((l.amend id u).1.map (Account.recode ρ), (l.amend id u).2.recode ρ) :=
  change_recode fun s => by rw [s.amend_recode, require_map]

theorem delete_recode (id : AccountId) :
    (l.recode ρ).delete id = ((l.delete id).1, (l.delete id).2.recode ρ) :=
  change_recode_same fun s => by rw [s.delete_recode]

theorem deposit_recode (cardNumber : String) (amount : Amount) :
    (l.recode ρ).deposit cardNumber amount =
      ((l.deposit cardNumber amount).1.map (Account.recode ρ),
        (l.deposit cardNumber amount).2.recode ρ) :=
  change_recode fun s => by rw [s.deposit_recode, require_map]

theorem append_recode (id : AccountId) (payment : PaymentId) :
    (l.recode ρ).append id payment = ((l.append id payment).1, (l.append id payment).2.recode ρ) :=
  change_recode_same fun s => s.append_recode id payment

/-- **Every operation of a recoded ledger** answers with the recoded answer. -/
theorem perform_recode (fresh : AccountId) (now : Timestamp) (c : Command) :
    (l.recode ρ).perform fresh now (c.recode ρ) =
      ((l.perform fresh now c).1.map (Answer.recode ρ), (l.perform fresh now c).2.recode ρ) := by
  have haccount : ∀ r : Except LedgerError Account,
      (r.map (Account.recode ρ)).map Answer.account = (r.map Answer.account).map (Answer.recode ρ) :=
    fun r => by cases r <;> rfl
  have hstatement : ∀ r : Except LedgerError (List PaymentId),
      r.map Answer.statement = (r.map Answer.statement).map (Answer.recode ρ) :=
    fun r => by cases r <;> rfl
  have hdeleted : ∀ r : Except LedgerError Unit,
      r.map (fun _ => Answer.deleted) = (r.map fun _ => Answer.deleted).map (Answer.recode ρ) :=
    fun r => by cases r <;> rfl
  have hlength : ∀ r : Except LedgerError Nat,
      r.map Answer.length = (r.map Answer.length).map (Answer.recode ρ) :=
    fun r => by cases r <;> rfl
  cases c with
  | create details => simp only [Command.recode, perform, create_recode, haccount]
  | account id => simp only [Command.recode, perform, account_recode, haccount]
  | statement id => simp only [Command.recode, perform, statement_recode, ← hstatement]
  | amend id u => simp only [Command.recode, perform, amend_recode, haccount]
  | delete id => simp only [Command.recode, perform, delete_recode, ← hdeleted]
  | deposit cardNumber amount => simp only [Command.recode, perform, deposit_recode, haccount]
  | updateBalance id u => simp only [Command.recode, perform, updateBalance_recode, haccount]
  | append id payment => simp only [Command.recode, perform, append_recode, ← hlength]

end Ledger

/-! ## Scans -/

namespace Scan

theorem nextPage_recode (scan : Scan) (l : Ledger) :
    scan.nextPage (l.recode ρ) =
      ((scan.nextPage l).1.map (Except.map (Account.recode ρ)), (scan.nextPage l).2) := by
  have hlast : ∀ accounts : List Account,
      (accounts.map (Account.recode ρ)).getLast?.map Account.id = accounts.getLast?.map Account.id := by
    intro accounts
    rw [List.getLast?_map, Option.map_map]
    rfl
  have hempty : ∀ accounts : List Account,
      (accounts.map (Account.recode ρ)).isEmpty = accounts.isEmpty := fun accounts => by
    cases accounts <;> rfl
  unfold nextPage
  split
  · rfl
  · rw [l.page_recode]
    cases l.page scan.after scan.pageSize with
    | error e => rfl
    | ok accounts =>
      show (((accounts.map (Account.recode ρ)).map Except.ok, _) : _ × Scan) =
        ((accounts.map Except.ok).map _, _)
      rw [hlast, hempty, List.length_map, List.map_map, List.map_map]
      rfl

theorem run_recode (scan : Scan) (ledgers : List Ledger) :
    scan.run (ledgers.map (Ledger.recode ρ)) =
      ((scan.run ledgers).1.map (Except.map (Account.recode ρ)), (scan.run ledgers).2) := by
  induction ledgers generalizing scan with
  | nil => rfl
  | cons l rest ih =>
    simp only [List.map_cons, run, nextPage_recode, ih, List.map_append]

/-- **A scan delivers the recoded accounts**, in pages of the same lengths. -/
theorem complete_recode (l : Ledger) (pageSize : Nat) :
    complete (l.recode ρ) pageSize =
      ((complete l pageSize).1.map (Except.map (Account.recode ρ)), (complete l pageSize).2) := by
  have hlength : (l.recode ρ).store.accounts.rows.length = l.store.accounts.rows.length :=
    List.length_map _
  unfold complete
  rw [hlength, ← List.map_replicate, run_recode]

end Scan

end

end CardHolds

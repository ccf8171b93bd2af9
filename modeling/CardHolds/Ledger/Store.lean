import CardHolds.Ledger.Error
import CardHolds.Store.Table

/-!
# The store of the ledger

Accounts are kept as rows of signed quantities, statements as one list of entries in the order in
which they were appended.  An account is *read* by converting its row: the version first, then the
balance, then the blocked money, and the first value that does not convert is reported.

Every operation answers with a result and the store after it.  A write is not undone when the
account cannot be read back after it: an identity update of a row with a negative quantity takes
effect and then fails, and so does an update that carries the version beyond the signed 64 bit
numbers.  All other failures leave the store as it was.
-/

namespace CardHolds

/-- The version of an account as it is stored. -/
inductive RowVersion where
  | counted (n : Int64)
  /-- One more than the largest signed 64 bit number; adding to it changes nothing. -/
  | outgrown
deriving DecidableEq

namespace RowVersion

/-- The version after one more write. -/
def next : RowVersion → RowVersion
  | counted n => if n = Int64.maxValue then outgrown else counted (n + 1)
  | outgrown => outgrown

/-- The version as a number; an outgrown version has none. -/
def read : RowVersion → Except LedgerError Int64
  | counted n => .ok n
  | outgrown => .error (.database .versionOutgrown)

end RowVersion

/-- An account as it is stored. -/
structure AccountRow where
  id : AccountId
  firstName : String
  lastName : String
  card : Card
  balance : Int64
  blocked : Int64
  version : RowVersion
  openedAt : Timestamp
deriving DecidableEq

/-- One entry of a statement. -/
structure StatementEntry where
  account : AccountId
  payment : PaymentId
deriving DecidableEq

/-- The quantity that a stored number stands for. -/
def readQuantity (n : Int64) : Except LedgerError Amount :=
  (Amount.ofStored n).mapError fun e => .conversion (.quantity e)

/-- The number that stores a quantity. -/
def storeQuantity (a : Amount) : Except LedgerError Int64 :=
  a.toStored.mapError fun e => .conversion (.quantity e)

namespace AccountRow

/-- The account that a row and its statement stand for. -/
def read (row : AccountRow) (statement : List PaymentId) : Except LedgerError Account := do
  let version ← row.version.read
  let balance ← readQuantity row.balance
  let blocked ← readQuantity row.blocked
  return {
    id := row.id
    firstName := row.firstName
    lastName := row.lastName
    card := row.card
    balance := balance
    blocked := blocked
    statement := statement
    version := version
    openedAt := row.openedAt }

/-- The row of a new account: no money, version zero. -/
def opened (id : AccountId) (now : Timestamp) (details : NewAccount) : AccountRow where
  id := id
  firstName := details.firstName
  lastName := details.lastName
  card := details.card
  balance := 0
  blocked := 0
  version := .counted 0
  openedAt := now

/-- The row after an identity update. -/
def amend (row : AccountRow) (update : AccountUpdate) : AccountRow :=
  { row with
    firstName := update.firstName.getD row.firstName
    lastName := update.lastName.getD row.lastName
    card := update.applyToCard row.card
    version := row.version.next }

/-- The row after its quantities were written. -/
def write (row : AccountRow) (balance blocked : Option Int64) : AccountRow :=
  { row with
    balance := balance.getD row.balance
    blocked := blocked.getD row.blocked
    version := row.version.next }

/-- The quantity of a row that is below zero, the balance before the blocked money. -/
def belowZero? (row : AccountRow) : Option Quantity :=
  if row.balance.toInt < 0 then some .balance
  else if row.blocked.toInt < 0 then some .blocked
  else none

end AccountRow

/-- All accounts and all statements. -/
structure LedgerStore where
  accounts : Table AccountRow.id
  entries : List StatementEntry
deriving DecidableEq

namespace LedgerStore

/-- The store without accounts. -/
def empty : LedgerStore := ⟨.empty, []⟩

instance : Inhabited LedgerStore := ⟨empty⟩

/-- The payments on the statement of an account, oldest first; an unknown account has none. -/
def statement (s : LedgerStore) (id : AccountId) : List PaymentId :=
  (s.entries.filter fun e => decide (e.account = id)).map StatementEntry.payment

/-- The account that a row of the store stands for. -/
def readRow (s : LedgerStore) (row : AccountRow) : Except LedgerError Account :=
  row.read (s.statement row.id)

/-- The account with the given name, if there is one. -/
def fetch (s : LedgerStore) (id : AccountId) : Except LedgerError (Option Account) :=
  match s.accounts.find? id with
  | some row => (s.readRow row).map some
  | none => .ok none

/-- The rows in the order of their names. -/
def sortedRows (s : LedgerStore) : List AccountRow :=
  s.accounts.rows.mergeSort fun a b => decide (a.id.text ≤ b.id.text)

/-- The rows of one page: the first `limit` names after the given one. -/
def pageRows (s : LedgerStore) (after : Option AccountId) (limit : Nat) : List AccountRow :=
  let rest := match after with
    | some id => s.sortedRows.filter fun (row : AccountRow) => decide (id < row.id)
    | none => s.sortedRows
  rest.take limit

/-- The accounts of one page.  The versions of all its rows are read before their quantities. -/
def page (s : LedgerStore) (after : Option AccountId) (limit : Nat) :
    Except LedgerError (List Account) := do
  let rows := s.pageRows after limit
  let _ ← rows.mapM fun row => row.version.read
  rows.mapM s.readRow

/-- Opens an account under a fresh name. -/
def insert (s : LedgerStore) (id : AccountId) (now : Timestamp) (details : NewAccount) :
    Except LedgerError Account × LedgerStore :=
  let row := AccountRow.opened id now details
  match s.accounts.insert? row with
  | some accounts =>
    let s' := { s with accounts := accounts }
    (s'.readRow row, s')
  | none => (.error (.database .accountTaken), s)

/-- Changes identity and card of an account.  An update without content writes nothing. -/
def amend (s : LedgerStore) (id : AccountId) (update : AccountUpdate) :
    Except LedgerError (Option Account) × LedgerStore :=
  if update.isEmpty then
    (s.fetch id, s)
  else
    let s' := { s with accounts := s.accounts.modify id (·.amend update) fun _ => rfl }
    (s'.fetch id, s')

/-- Removes every entry from the statement of an account and tells how many there were. -/
def deleteStatement (s : LedgerStore) (id : AccountId) : Nat × LedgerStore :=
  ((s.statement id).length,
    { s with entries := s.entries.filter fun e => decide (e.account ≠ id) })

/-- Removes an account with its statement and tells whether there was such an account. -/
def delete (s : LedgerStore) (id : AccountId) : Bool × LedgerStore :=
  let s' := (s.deleteStatement id).2
  (s.accounts.contains id, { s' with accounts := s.accounts.erase id })

/-- Whether a row carries the version that an update expects. -/
def expects (expected : Option Int64) (row : AccountRow) : Bool :=
  match expected with
  | some n => decide (row.version = .counted n)
  | none => true

/-- Writes the present quantities of an update and counts the version up.  What is to be written
has to fit the store, the account has to carry the expected version, and neither quantity may be
below zero afterwards. -/
def updateBalance (s : LedgerStore) (id : AccountId) (update : BalanceUpdate) :
    Except LedgerError Account × LedgerStore :=
  match update.balance.mapM storeQuantity, update.blocked.mapM storeQuantity with
  | .error e, _ => (.error e, s)
  | .ok _, .error e => (.error e, s)
  | .ok balance, .ok blocked =>
    match s.accounts.find? id with
    | none => (.error (.accountNotFound id), s)
    | some row =>
      if expects update.expectedVersion row then
        let row' := row.write balance blocked
        match row'.belowZero? with
        | some quantity => (.error (.database (.belowZero quantity)), s)
        | none =>
          let s' := { s with accounts := s.accounts.modify id (·.write balance blocked) fun _ => rfl }
          (s'.readRow row', s')
      else
        match row.version.read, update.expectedVersion with
        | .error e, _ => (.error e, s)
        | .ok actual, some expected => (.error (.versionConflict id expected actual), s)
        | .ok _, none => (.error (.accountNotFound id), s)

/-- The first row of a list with the least opening time, in the order of the stored texts. -/
def oldest? : List AccountRow → Option AccountRow
  | [] => none
  | row :: rest =>
    match oldest? rest with
    | none => some row
    | some other => if row.openedAt ≤ other.openedAt then some row else some other

/-- The account that a deposit to a card goes to: the one opened first among those that hold it. -/
def holder? (s : LedgerStore) (cardNumber : String) : Option AccountRow :=
  oldest? (s.accounts.rows.filter fun row => decide (row.card.number = cardNumber))

/-- Credits the holder of a card, if there is one. -/
def deposit (s : LedgerStore) (cardNumber : String) (amount : Amount) :
    Except LedgerError (Option Account) × LedgerStore :=
  match s.holder? cardNumber with
  | none => (.ok none, s)
  | some row =>
    match row.version.read, readQuantity row.balance with
    | .error e, _ => (.error e, s)
    | .ok _, .error e => (.error e, s)
    | .ok version, .ok current =>
      match current.add? amount with
      | none => (.error (.conversion (.depositTooLarge amount row.id)), s)
      | some balance =>
        let (result, s') := s.updateBalance row.id
          { balance := some balance, expectedVersion := some version }
        (result.map some, s')

/-- Appends a payment to the statement of an account and answers with the new length. -/
def append (s : LedgerStore) (id : AccountId) (payment : PaymentId) :
    Except LedgerError Nat × LedgerStore :=
  if s.accounts.contains id then
    let s' := { s with entries := s.entries ++ [⟨id, payment⟩] }
    (.ok (s'.statement id).length, s')
  else
    (.error (.accountNotFound id), s)

/-- Puts a row into the store as it is, unless its name is taken. -/
def seed (s : LedgerStore) (row : AccountRow) : Option LedgerStore :=
  (s.accounts.insert? row).map fun accounts => { s with accounts := accounts }

end LedgerStore

end CardHolds

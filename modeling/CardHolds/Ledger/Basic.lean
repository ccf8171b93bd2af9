import CardHolds.Ledger.Store

/-!
# The ledger

The ledger owns the accounts.  It knows nothing about payments: quantities change only through
`updateBalance` and `deposit`, and no operation is tried a second time.  An operation that names an
account which does not exist fails with `accountNotFound`; once the ledger is closed every operation
fails and changes nothing.

`Command` lists the operations as data, so that a sequence of them can be given to `perform`.
-/

namespace CardHolds

/-- The accounts, and whether they can still be reached. -/
structure Ledger where
  store : LedgerStore := .empty
  closed : Bool := false
deriving DecidableEq, Inhabited

namespace Ledger

variable {α : Type}

/-- Reads the store of an open ledger. -/
def read (l : Ledger) (query : LedgerStore → Except LedgerError α) : Except LedgerError α :=
  if l.closed then .error (.database .closed) else query l.store

/-- Changes the store of an open ledger. -/
def change (l : Ledger) (operation : LedgerStore → Except LedgerError α × LedgerStore) :
    Except LedgerError α × Ledger :=
  if l.closed then
    (.error (.database .closed), l)
  else
    ((operation l.store).1, { l with store := (operation l.store).2 })

/-- Turns "there is none" into an error. -/
def require (error : LedgerError) : Except LedgerError (Option α) → Except LedgerError α
  | .ok (some a) => .ok a
  | .ok none => .error error
  | .error e => .error e

/-- The account with the given name. -/
def account (l : Ledger) (id : AccountId) : Except LedgerError Account :=
  l.read fun s => require (.accountNotFound id) (s.fetch id)

/-- The statement of an account, oldest payment first. -/
def statement (l : Ledger) (id : AccountId) : Except LedgerError (List PaymentId) :=
  (l.account id).map Account.statement

/-- Up to `limit` accounts in the order of their names, from after the given name on. -/
def page (l : Ledger) (after : Option AccountId) (limit : Nat) : Except LedgerError (List Account) :=
  l.read fun s => s.page after limit

/-- Opens an account: no money, an empty statement. -/
def create (l : Ledger) (id : AccountId) (now : Timestamp) (details : NewAccount) :
    Except LedgerError Account × Ledger :=
  l.change fun s => s.insert id now details

/-- Changes the identity or the card of an account. -/
def amend (l : Ledger) (id : AccountId) (update : AccountUpdate) :
    Except LedgerError Account × Ledger :=
  l.change fun s => (require (.accountNotFound id) (s.amend id update).1, (s.amend id update).2)

/-- Removes an account together with its statement. -/
def delete (l : Ledger) (id : AccountId) : Except LedgerError Unit × Ledger :=
  l.change fun s =>
    (if (s.delete id).1 then .ok () else .error (.accountNotFound id), (s.delete id).2)

/-- Credits the account that holds a card; of several, the one opened first. -/
def deposit (l : Ledger) (cardNumber : String) (amount : Amount) :
    Except LedgerError Account × Ledger :=
  l.change fun s => (require .cardNotFound (s.deposit cardNumber amount).1,
    (s.deposit cardNumber amount).2)

/-- Writes the present quantities of an update. -/
def updateBalance (l : Ledger) (id : AccountId) (update : BalanceUpdate) :
    Except LedgerError Account × Ledger :=
  l.change fun s => s.updateBalance id update

/-- Appends a payment to the statement of an account and answers with its new length. -/
def append (l : Ledger) (id : AccountId) (payment : PaymentId) : Except LedgerError Nat × Ledger :=
  l.change fun s => s.append id payment

/-- Starts a transaction on an open ledger: a copy of the store that nobody else sees. -/
def begin (l : Ledger) : Except LedgerError LedgerStore :=
  l.read .ok

/-- Ends a transaction and keeps what was done in it. -/
def commit (l : Ledger) (s : LedgerStore) : Ledger :=
  { l with store := s }

/-- An operation of the ledger. -/
inductive Command where
  | create (details : NewAccount)
  | account (id : AccountId)
  | statement (id : AccountId)
  | amend (id : AccountId) (update : AccountUpdate)
  | delete (id : AccountId)
  | deposit (cardNumber : String) (amount : Amount)
  | updateBalance (id : AccountId) (update : BalanceUpdate)
  | append (id : AccountId) (payment : PaymentId)
deriving DecidableEq

/-- What an operation answers when it succeeds. -/
inductive Answer where
  | account (account : Account)
  | statement (payments : List PaymentId)
  | deleted
  | length (entries : Nat)
deriving DecidableEq

/-- Carries out an operation; `fresh` and `now` name and date the account that it may open. -/
def perform (l : Ledger) (fresh : AccountId) (now : Timestamp) :
    Command → Except LedgerError Answer × Ledger
  | .create details => ((l.create fresh now details).1.map .account, (l.create fresh now details).2)
  | .account id => ((l.account id).map .account, l)
  | .statement id => ((l.statement id).map .statement, l)
  | .amend id update => ((l.amend id update).1.map .account, (l.amend id update).2)
  | .delete id => ((l.delete id).1.map fun _ => .deleted, (l.delete id).2)
  | .deposit card amount => ((l.deposit card amount).1.map .account, (l.deposit card amount).2)
  | .updateBalance id update =>
    ((l.updateBalance id update).1.map .account, (l.updateBalance id update).2)
  | .append id payment => ((l.append id payment).1.map .length, (l.append id payment).2)

/-- Whether an operation opens an account when it succeeds. -/
def Command.opens : Command → Bool
  | .create _ => true
  | _ => false

end Ledger

end CardHolds

import CardHolds.Ledger.Error
import CardHolds.PaymentLog.Error
import CardHolds.Statement.Message

/-!
# Errors of a lifecycle call

Outcomes such as "Insufficient funds" are no errors; they are the status of a recorded payment.
-/

namespace CardHolds

/-- Why a planned change to a quantity is impossible. -/
inductive MoveError where
  | underflow (account : AccountId) (quantity : Quantity) (amount : Amount)
  | overflow (account : AccountId) (quantity : Quantity) (amount : Amount)
deriving DecidableEq

/-- Why a lifecycle call failed. -/
inductive FlowError where
  | accountNotFound (account : AccountId)
  | paymentNotFound (payment : PaymentId)
  | merchantIsCustomer (account : AccountId)
  | ledger (error : LedgerError)
  /-- The payment log failed. -/
  | database (cause : StoreFault)
  | statements (error : StreamError)
  | move (error : MoveError)
  /-- The call failed, and on these accounts its balance moves are still in place. -/
  | compensationFailed (cause : String) (accounts : List AccountId)
  /-- Every attempt lost against other writers. -/
  | retriesExhausted (attempts : Nat)
deriving DecidableEq

namespace MoveError

/-- The words for an impossible move. -/
def message : MoveError → String
  | underflow account quantity amount =>
    s!"Moving {amount} would take the {quantity.text} of account {account} below zero"
  | overflow account quantity amount =>
    s!"Moving {amount} would overflow the {quantity.text} of account {account}"

end MoveError

namespace FlowError

/-- Accounts listed in a message. -/
def listAccounts (accounts : List AccountId) : String :=
  "[" ++ String.intercalate ", " (accounts.map fun a => "AccountId(" ++ Text.quoted a.text ++ ")") ++ "]"

/-- The words for a failed lifecycle call. -/
def message : FlowError → String
  | accountNotFound account => s!"Account {account} does not exist"
  | paymentNotFound payment => s!"Payment {payment} does not exist"
  | merchantIsCustomer account => s!"Account {account} cannot pay itself"
  | ledger error => s!"Ledger error: {error.message}"
  | database cause => s!"Payment database error: {cause.message}"
  | statements error => s!"Statement propagation failed: {error.message}"
  | move error => error.message
  | compensationFailed cause accounts =>
    cause ++ ". The balance moves on " ++ listAccounts accounts ++
      " could not be undone and need manual attention"
  | retriesExhausted attempts =>
    s!"The balances kept changing underneath the payment. Gave up after {attempts} attempts"

/-- Whether an attempt lost against another writer, so that a new one may succeed. -/
def isBalanceConflict : FlowError → Bool
  | ledger error => error.isVersionConflict
  | _ => false

/-- A missing account is told as such; any other error of the ledger is passed on. -/
def ofLedger : LedgerError → FlowError
  | .accountNotFound account => .accountNotFound account
  | error => .ledger error

/-- A missing payment is told as such; of any other error of the log only the cause is passed on. -/
def ofLog : LogError → FlowError
  | .paymentNotFound payment => .paymentNotFound payment
  | .database cause => .database cause
  | .conversion cause => .database cause

end FlowError

end CardHolds

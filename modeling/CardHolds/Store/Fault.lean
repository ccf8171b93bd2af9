import CardHolds.Account
import CardHolds.Payment

/-!
# Faults of a store

Why a store could not answer, or could not make sense of what it holds.  The ledger and the payment
log report these causes inside their own errors, which also say whether the store failed or a stored
value could not be converted.
-/

namespace CardHolds

/-- The cause of a failed access to a store. -/
inductive StoreFault where
  /-- The store has been closed. -/
  | closed
  /-- A write would leave a quantity of an account below zero. -/
  | belowZero (quantity : Quantity)
  /-- The version of an account has outgrown the signed 64 bit numbers and cannot be read. -/
  | versionOutgrown
  /-- The name of a new account is taken. -/
  | accountTaken
  /-- The name of a new payment row is taken. -/
  | paymentTaken
  /-- A stored quantity that is no amount, or an amount that is no stored quantity. -/
  | quantity (error : AmountError)
  /-- A stored word that names no operation or status. -/
  | word (error : UnknownWord)
  /-- A deposit would carry the balance beyond the amounts. -/
  | depositTooLarge (amount : Amount) (account : AccountId)
  /-- Any other cause, told in its own words. -/
  | other (text : String)
deriving DecidableEq

namespace StoreFault

/-- The column that holds a quantity. -/
def column : Quantity → String
  | .balance => "balance"
  | .blocked => "blocked_money"

/-- The words for a cause, without those of the error it is reported in. -/
def message : StoreFault → String
  | closed => "attempted to acquire a connection on a closed pool"
  | belowZero q =>
    s!"error returned from database: (code: 275) CHECK constraint failed: {column q} >= 0"
  | versionOutgrown =>
    "error occurred while decoding column \"version\": mismatched types; " ++
      "Rust type `i64` (as SQL type `INTEGER`) is not compatible with SQL type `REAL`"
  | accountTaken => "error returned from database: (code: 1555) UNIQUE constraint failed: accounts.id"
  | paymentTaken =>
    "error returned from database: (code: 1555) UNIQUE constraint failed: payments.payment_id"
  | quantity error => error.message
  | word error => error.message
  | depositTooLarge amount account => s!"Depositing {amount} into {account} overflows the balance"
  | other text => text

end StoreFault

end CardHolds

import CardHolds.Store.Fault

/-!
# Errors of the ledger

What can go wrong in an operation on accounts, and the words in which it is told.
-/

namespace CardHolds

/-- Why the ledger refused or failed an operation. -/
inductive LedgerError where
  | accountNotFound (account : AccountId)
  /-- No account holds the card of a deposit. -/
  | cardNotFound
  /-- A versioned update met an account that had been written in the meantime. -/
  | versionConflict (account : AccountId) (expected actual : Int64)
  /-- The connection to the ledger ended. -/
  | streamClosed (reason : String)
  /-- The store failed. -/
  | database (cause : StoreFault)
  /-- A stored value, or one to be stored, could not be converted. -/
  | conversion (cause : StoreFault)
deriving DecidableEq

namespace LedgerError

/-- The words for an error of the ledger. -/
def message : LedgerError → String
  | accountNotFound account => s!"Account {account} does not exist"
  | cardNotFound => "No account holds the given card"
  | versionConflict account expected actual =>
    s!"Account {account} has version {actual.toInt}, but the update expected version {expected.toInt}"
  | streamClosed reason => s!"The ledger stream was closed: {reason}"
  | database cause => s!"Database error: {cause.message}"
  | conversion cause => s!"Could not convert a stored value: {cause.message}"

/-- Whether a versioned update lost against another writer. -/
def isVersionConflict : LedgerError → Bool
  | versionConflict .. => true
  | _ => false

end LedgerError

end CardHolds

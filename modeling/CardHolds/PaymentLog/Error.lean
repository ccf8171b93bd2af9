import CardHolds.Store.Fault

/-!
# Errors of the payment log
-/

namespace CardHolds

/-- Why the payment log failed an operation. -/
inductive LogError where
  | paymentNotFound (payment : PaymentId)
  /-- The store failed. -/
  | database (cause : StoreFault)
  /-- A stored value, or one to be stored, could not be converted. -/
  | conversion (cause : StoreFault)
deriving DecidableEq

namespace LogError

/-- The words for an error of the log. -/
def message : LogError → String
  | paymentNotFound payment => s!"Payment {payment} does not exist"
  | database cause => s!"Database error: {cause.message}"
  | conversion cause => s!"Could not convert a stored value: {cause.message}"

end LogError

end CardHolds

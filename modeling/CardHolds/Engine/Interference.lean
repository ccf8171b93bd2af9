import CardHolds.Engine.Basic

/-!
# Interference

While a lifecycle call runs, other writers may change the ledger between any two of its calls to the
environment, and every one of these calls may fail, with or without having taken effect.  An
`Interruption` says what happens around one call; an `Interference` decides it from the calls made
before, so it describes every behaviour of the environment towards one lifecycle call.
-/

namespace CardHolds

/-- What happens around one call that is answered with an error of type `ε` or a value. -/
structure Interruption (ε : Type) where
  /-- What other writers do before the call. -/
  before : List Ledger.Command := []
  /-- The error that takes the place of the call. -/
  instead : Option ε := none
  /-- What other writers do after the call. -/
  after : List Ledger.Command := []
  /-- The error that takes the place of the answer; the effect of the call stays. -/
  replacing : Option ε := none

/-- What happens around the handling of a statement request on the ledger side.  Any error reply ends
the stream. -/
structure AppendInterruption extends Interruption StreamError where
  /-- The stream ends before anything is appended. -/
  hangUp : Bool := false
  /-- The stream ends after the reply. -/
  hangUpAfter : Bool := false
  /-- The account that the acknowledgement names in the place of the right one. -/
  ackAccount : Option AccountId := none
  /-- The payment that the acknowledgement names in the place of the right one. -/
  ackPayment : Option PaymentId := none

/-- What the ledger side still does once the caller has closed its send side. -/
structure EndInterruption where
  before : List Ledger.Command := []
  /-- An acknowledgement that nobody asked for. -/
  surplus : Option StatementAck := none
  /-- An error reply that belongs to no request. -/
  failure : Option StreamError := none
  after : List Ledger.Command := []

/-- One call to the environment, with the error it was answered with, if any. -/
inductive Occurrence where
  | ledger (call : LedgerCall) (error : Option LedgerError)
  | log (call : LogCall) (error : Option LogError)
  /-- A statement request reached the ledger side. -/
  | append (request : StatementRequest)
  /-- The ledger side learned that the caller has closed its send side. -/
  | streamEnd
deriving DecidableEq

/-- The behaviour of the environment, given what occurred so far. -/
structure Interference where
  ledger : List Occurrence → LedgerCall → Interruption LedgerError := fun _ _ => {}
  log : List Occurrence → LogCall → Interruption LogError := fun _ _ => {}
  append : List Occurrence → StatementRequest → AppendInterruption := fun _ _ => {}
  streamEnd : List Occurrence → EndInterruption := fun _ => {}

/-- Nobody else writes and nothing fails. -/
def Interference.undisturbed : Interference := {}

end CardHolds

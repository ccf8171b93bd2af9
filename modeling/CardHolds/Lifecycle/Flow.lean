import CardHolds.Lifecycle.Decision
import CardHolds.Lifecycle.Saga
import CardHolds.Statement.Propagator

/-!
# The flow of a lifecycle call

Every call that may move money goes the same way: read customer and merchant, decide, start a
transaction of the payment log, carry out the balance moves, insert the row, put the payment on the
statements, commit.  When a step after the start of the transaction fails, the transaction is rolled
back (a failed commit has done so itself) and the moves are undone; moves that stay in place turn the
error into `compensationFailed`.  Statement entries that were acknowledged stay.

An attempt that failed because another writer was faster is followed by a new one with fresh reads,
`retries + 1` attempts in all and at most 2 ^ 32 - 1.  Errors in reading the accounts and in deciding
end the call at once.  Observers are told of a recorded payment after the commit, and of each move
that stays in place.
-/

namespace CardHolds

/-- The number of attempts that a number of retries allows. -/
def attemptsFor (retries : Nat) : Nat :=
  min (retries + 1) ((1 <<< 32) - 1)

namespace Flow

/-- Inserts the row of a decision and puts it on the statements. -/
def record (decision : Decision) : Program lifecycleCalls (Except FlowError Payment) := do
  match ← Ask.insert decision.row with
  | .error e => return .error (.ofLog e)
  | .ok payment =>
    match ← Ask.openStream.onLedger with
    | .error e => return .error (.ofLedger e)
    | .ok () =>
      let requests := decision.statements.map fun account => ⟨account, payment.id⟩
      match ← (propagate requests).onStream with
      | .error e => return .error (.statements e)
      | .ok _ => return .ok payment

/-- Carries out the moves of a decision and records it. -/
def applyAndRecord (decision : Decision) :
    Program lifecycleCalls (Except FlowError Payment × Saga) := do
  match ← (({} : Saga).applyAll decision.moves).onLedger with
  | (.error e, saga) => return (.error (.ofLedger e), saga)
  | (.ok (), saga) => return (← record decision, saga)

/-- Tells the observers of moves that stay in place. -/
def publishFailures : List CompensationFailure → Program lifecycleCalls Unit
  | [] => .done ()
  | failure :: rest => do
    Ask.publish (.compensationFailed failure.event)
    publishFailures rest

/-- Undoes the moves of a saga after the given error, and the error to report. -/
def compensate (saga : Saga) (error : FlowError) : Program lifecycleCalls FlowError := do
  let failures ← saga.compensate.onLedger
  publishFailures failures
  if failures.isEmpty then
    return error
  else
    return .compensationFailed error.message (failures.map CompensationFailure.account)

/-- Ends the transaction: a recorded payment is committed, anything else is rolled back. -/
def finish : Except FlowError Payment → Program lifecycleCalls (Except FlowError Payment)
  | .ok payment => do
    match ← Ask.commit with
    | .ok () => return .ok payment
    | .error e => return .error (.ofLog e)
  | .error e => do
    let _ ← Ask.rollback
    return .error e

/-- Carries a decision out in a transaction of its own. -/
def execute (decision : Decision) : Program lifecycleCalls (Except FlowError Payment) := do
  match ← Ask.begin with
  | .error e => return .error (.ofLog e)
  | .ok () =>
    let (result, saga) ← applyAndRecord decision
    match ← finish result with
    | .ok payment => return .ok payment
    | .error e => return .error (← compensate saga e)

/-- What an attempt led to. -/
inductive Attempt where
  | recorded (payment : Payment)
  /-- The call ends with this error. -/
  | failed (error : FlowError)
  /-- Another writer was faster. -/
  | lost

/-- One attempt: read both accounts, decide, carry the decision out. -/
def attempt (customer merchant : AccountId)
    (decide : Account → Account → Except MoveError Decision) :
    Program lifecycleCalls Attempt := do
  match ← (Ask.account customer).onLedger with
  | .error e => return .failed (.ofLedger e)
  | .ok customerAccount =>
    match ← (Ask.account merchant).onLedger with
    | .error e => return .failed (.ofLedger e)
    | .ok merchantAccount =>
      match decide customerAccount merchantAccount with
      | .error e => return .failed (.move e)
      | .ok decision =>
        match ← execute decision with
        | .ok payment => return .recorded payment
        | .error e => return (if e.isBalanceConflict then .lost else .failed e)

/-- Attempts until one is not lost, but no more often than given; `total` is reported when all were
lost. -/
def attempts (customer merchant : AccountId)
    (decide : Account → Account → Except MoveError Decision) (total : Nat) :
    Nat → Program lifecycleCalls (Except FlowError Payment)
  | 0 => .done (.error (.retriesExhausted total))
  | left + 1 => do
    match ← attempt customer merchant decide with
    | .recorded payment =>
      Ask.publish (.paymentRecorded ⟨payment⟩)
      return .ok payment
    | .failed e => return .error e
    | .lost => attempts customer merchant decide total left

/-- Attempts as often as a number of retries allows. -/
def run (retries : Nat) (customer merchant : AccountId)
    (decide : Account → Account → Except MoveError Decision) :
    Program lifecycleCalls (Except FlowError Payment) :=
  attempts customer merchant decide (attemptsFor retries) (attemptsFor retries)

end Flow

/-- Authorizes a payment from a customer to a merchant. -/
def createPayment (retries : Nat) (request : PaymentRequest) :
    Program lifecycleCalls (Except FlowError PaymentOutcome) :=
  if request.merchant = request.customer then
    .done (.error (.merchantIsCustomer request.customer))
  else do
    match ← Flow.run retries request.customer request.merchant (decideAuthorization request) with
    | .ok payment => return .ok (.ofPayment payment)
    | .error e => return .error e

/-- The payment with the given name. -/
def paymentById (id : PaymentId) : Program lifecycleCalls (Except FlowError Payment) := do
  match ← Ask.find id with
  | .error e => return .error (.ofLog e)
  | .ok none => return .error (.paymentNotFound id)
  | .ok (some payment) => return .ok payment

/-- The payments that an account takes part in, oldest first. -/
def paymentsForAccount (account : AccountId) :
    Program lifecycleCalls (Except FlowError (List Payment)) := do
  match ← Ask.involving account with
  | .error e => return .error (.ofLog e)
  | .ok payments => return .ok payments

/-- Reacts to an earlier payment.  A payment that is in no state for it is left alone, and the
caller is told so. -/
def reactToPayment (retries : Nat) (reaction : Reaction) (id : PaymentId) (amount : Amount) :
    Program lifecycleCalls (Except FlowError PaymentOutcome) := do
  match ← paymentById id with
  | .error e => return .error e
  | .ok referenced =>
    if accepts referenced reaction.operation then
      match ← Flow.run retries referenced.customer referenced.merchant
          (fun customer merchant => reaction.decide referenced customer merchant amount) with
      | .ok payment => return .ok (.ofPayment payment)
      | .error e => return .error e
    else
      return .ok (.invalidTransaction id)

/-- Appends a batch of statement entries over a stream of its own. -/
def appendStatements (requests : List StatementRequest) :
    Program lifecycleCalls (Except LedgerError (Except StreamError (List StatementAck))) := do
  match ← Ask.openStream.onLedger with
  | .error e => return .error e
  | .ok () => return .ok (← (propagate requests).onStream)

end CardHolds

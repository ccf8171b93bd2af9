import CardHolds.PaymentLog.Error
import CardHolds.Store.Table

/-!
# The payment log

The log keeps payment rows in the order in which they were recorded and never changes or removes
one.  Rows are recorded through a `LogTransaction`: what it inserted becomes visible when it is
committed, all at once, and is forgotten otherwise.

Operations and statuses are stored as words and amounts as signed numbers.  A row is read by
converting its operation, its status and its amount, in this order.
-/

namespace CardHolds

/-- A payment as it is stored. -/
structure PaymentRow where
  id : PaymentId
  merchant : AccountId
  customer : AccountId
  card : CardSnapshot
  currency : String
  operation : String
  status : String
  amount : Int64
  recordedAt : Timestamp
deriving DecidableEq

namespace PaymentRow

/-- The payment that a row stands for. -/
def read (row : PaymentRow) : Except LogError Payment := do
  let operation ← (Operation.ofText row.operation).mapError fun e => .conversion (.word e)
  let status ← (PaymentStatus.ofText row.status).mapError fun e => .conversion (.word e)
  let amount ← (Amount.ofStored row.amount).mapError fun e => .conversion (.quantity e)
  return {
    id := row.id
    merchant := row.merchant
    customer := row.customer
    card := row.card
    currency := row.currency
    operation := operation
    status := status
    amount := amount
    recordedAt := row.recordedAt }

/-- The row that stores a payment, if its amount can be stored. -/
def ofPayment (payment : Payment) : Except LogError PaymentRow := do
  let amount ← payment.amount.toStored.mapError fun e => .conversion (.quantity e)
  return {
    id := payment.id
    merchant := payment.merchant
    customer := payment.customer
    card := payment.card
    currency := payment.currency
    operation := payment.operation.text
    status := payment.status.text
    amount := amount
    recordedAt := payment.recordedAt }

/-- Whether an account takes part in the payment. -/
def involves (row : PaymentRow) (account : AccountId) : Bool :=
  decide (row.merchant = account) || decide (row.customer = account)

end PaymentRow

/-- The payment with the given name in a table of rows, if there is one. -/
def findPayment (rows : Table PaymentRow.id) (id : PaymentId) : Except LogError (Option Payment) :=
  match rows.find? id with
  | some row => row.read.map some
  | none => .ok none

/-- The payments of an account, oldest first.  One row that cannot be read fails them all. -/
def paymentsInvolving (rows : Table PaymentRow.id) (account : AccountId) :
    Except LogError (List Payment) :=
  (rows.rows.filter fun row => row.involves account).mapM PaymentRow.read

/-- The rows inserted by a transaction that is not committed yet. -/
structure LogTransaction where
  inserted : List PaymentRow := []
deriving DecidableEq, Inhabited

/-- The committed rows, and whether they can still be reached. -/
structure PaymentLog where
  rows : Table PaymentRow.id := .empty
  closed : Bool := false
deriving DecidableEq, Inhabited

namespace PaymentLog

variable {α : Type}

/-- Reads the rows of an open log. -/
def query (log : PaymentLog) (f : Table PaymentRow.id → Except LogError α) : Except LogError α :=
  if log.closed then .error (.database .closed) else f log.rows

/-- The payment with the given name, if there is one. -/
def find (log : PaymentLog) (id : PaymentId) : Except LogError (Option Payment) :=
  log.query fun rows => findPayment rows id

/-- The payments of an account, oldest first. -/
def involving (log : PaymentLog) (account : AccountId) : Except LogError (List Payment) :=
  log.query fun rows => paymentsInvolving rows account

/-- Starts a transaction. -/
def begin (log : PaymentLog) : Except LogError LogTransaction :=
  log.query fun _ => .ok {}

/-- The rows as a transaction sees them: the committed ones and its own. -/
def view (log : PaymentLog) (tx : LogTransaction) : Option (Table PaymentRow.id) :=
  log.rows.insertAll? tx.inserted

/-- Inserts a row into a transaction, if its name is free. -/
def insertRow (log : PaymentLog) (tx : LogTransaction) (row : PaymentRow) :
    Except LogError LogTransaction :=
  match log.rows.insertAll? (tx.inserted ++ [row]) with
  | some _ => .ok { inserted := tx.inserted ++ [row] }
  | none => .error (.database .paymentTaken)

/-- Records a payment in a transaction under a fresh name. -/
def insert (log : PaymentLog) (tx : LogTransaction) (fresh : PaymentId) (now : Timestamp)
    (payment : NewPayment) : Except LogError Payment × LogTransaction :=
  let recorded := payment.recorded fresh now
  match PaymentRow.ofPayment recorded with
  | .error e => (.error e, tx)
  | .ok row =>
    match log.insertRow tx row with
    | .error e => (.error e, tx)
    | .ok tx' => (.ok recorded, tx')

/-- Makes what a transaction inserted part of the log. -/
def commit (log : PaymentLog) (tx : LogTransaction) : Except LogError PaymentLog :=
  match log.rows.insertAll? tx.inserted with
  | some rows => .ok { log with rows := rows }
  | none => .error (.database .paymentTaken)

/-- Puts a row into the log as it is, unless its name is taken. -/
def seed (log : PaymentLog) (row : PaymentRow) : Option PaymentLog :=
  (log.rows.insert? row).map fun rows => { log with rows := rows }

end PaymentLog

end CardHolds

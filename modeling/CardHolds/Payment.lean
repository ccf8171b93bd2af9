import CardHolds.Amount
import CardHolds.Card
import CardHolds.Identifier
import CardHolds.Timestamp

/-!
# Payments

Every step of a payment is a row of its own: an authorization, and each capture, cancel and refund
that follows it.  A row names its two accounts, keeps a snapshot of the card, and carries the
`Operation` and the `PaymentStatus` in which it ended.  The words for operations and statuses are
part of the stored and exchanged forms; `ofText?` reads exactly the words that `text` writes.
-/

namespace CardHolds

/-- What a payment row did. -/
inductive Operation where
  | authorization
  | capture
  | cancel
  | refund
deriving DecidableEq, Inhabited

/-- How a payment row ended. -/
inductive PaymentStatus where
  /-- The presented card is not the card of the customer. -/
  | wrongPaymentRequest
  | insufficientFunds
  | approved
  /-- More was asked for than the referenced payment was worth. -/
  | invalidAmount
  | successfulPayment
  | successfulCancel
  | successfulRefund
  /-- The referenced payment is in no state to be reacted to; told to callers, never stored. -/
  | invalidTransaction
deriving DecidableEq, Inhabited

/-- A word that names no operation or no status. -/
inductive UnknownWord where
  | operation (word : String)
  | status (word : String)
deriving DecidableEq

namespace UnknownWord

/-- The words for an unknown word. -/
def message : UnknownWord → String
  | operation word => s!"Unknown value: Invalid operation: {word}"
  | status word => s!"Unknown value: Invalid payment status: {word}"

end UnknownWord

namespace Operation

/-- The word for an operation. -/
def text : Operation → String
  | authorization => "Authorization"
  | capture => "Capture"
  | cancel => "Cancel"
  | refund => "Refund"

/-- All operations. -/
def all : List Operation := [authorization, capture, cancel, refund]

/-- The operation that a word names. -/
def ofText? (word : String) : Option Operation :=
  all.find? fun operation => operation.text == word

/-- The operation that a stored or exchanged word names. -/
def ofText (word : String) : Except UnknownWord Operation :=
  match ofText? word with
  | some operation => .ok operation
  | none => .error (.operation word)

theorem ofText?_eq_some_iff {word : String} {operation : Operation} :
    ofText? word = some operation ↔ operation.text = word := by
  constructor
  · intro h
    unfold ofText? at h
    simpa using List.find?_some h
  · rintro rfl
    cases operation <;> decide

end Operation

namespace PaymentStatus

/-- The words for a status. -/
def text : PaymentStatus → String
  | wrongPaymentRequest => "wrong payment request"
  | insufficientFunds => "Insufficient funds"
  | approved => "Approved"
  | invalidAmount => "Invalid amount"
  | successfulPayment => "Successful payment"
  | successfulCancel => "Successful cancel"
  | successfulRefund => "Successful refund"
  | invalidTransaction => "Invalid transaction"

/-- All statuses. -/
def all : List PaymentStatus :=
  [wrongPaymentRequest, insufficientFunds, approved, invalidAmount, successfulPayment,
    successfulCancel, successfulRefund, invalidTransaction]

/-- The status that the words name. -/
def ofText? (words : String) : Option PaymentStatus :=
  all.find? fun status => status.text == words

/-- The status that stored or exchanged words name. -/
def ofText (words : String) : Except UnknownWord PaymentStatus :=
  match ofText? words with
  | some status => .ok status
  | none => .error (.status words)

theorem ofText?_eq_some_iff {words : String} {status : PaymentStatus} :
    ofText? words = some status ↔ status.text = words := by
  constructor
  · intro h
    unfold ofText? at h
    simpa using List.find?_some h
  · rintro rfl
    cases status <;> decide

end PaymentStatus

/-- A row of the payment log. -/
structure Payment where
  id : PaymentId
  merchant : AccountId
  customer : AccountId
  card : CardSnapshot
  currency : String
  operation : Operation
  status : PaymentStatus
  amount : Amount
  recordedAt : Timestamp
deriving DecidableEq, Inhabited

/-- A payment row before it is recorded; its name and time are given on recording. -/
structure NewPayment where
  merchant : AccountId
  customer : AccountId
  card : CardSnapshot
  currency : String
  operation : Operation
  status : PaymentStatus
  amount : Amount
deriving DecidableEq, Inhabited

namespace NewPayment

/-- The row for a step that reacts to an earlier payment, from which it copies everything that
stays the same. -/
def reactingTo (referenced : Payment) (operation : Operation) (status : PaymentStatus)
    (amount : Amount) : NewPayment where
  merchant := referenced.merchant
  customer := referenced.customer
  card := referenced.card
  currency := referenced.currency
  operation := operation
  status := status
  amount := amount

/-- The recorded row. -/
def recorded (row : NewPayment) (id : PaymentId) (now : Timestamp) : Payment where
  id := id
  merchant := row.merchant
  customer := row.customer
  card := row.card
  currency := row.currency
  operation := row.operation
  status := row.status
  amount := row.amount
  recordedAt := now

end NewPayment

/-- A request to authorize an amount from a customer to a merchant. -/
structure PaymentRequest where
  merchant : AccountId
  customer : AccountId
  /-- The card as presented. -/
  card : Card
  currency : String
  amount : Amount
deriving DecidableEq, Inhabited

/-- What a caller is told: the row that was recorded and its status. -/
structure PaymentOutcome where
  paymentId : PaymentId
  status : PaymentStatus
deriving DecidableEq, Inhabited

namespace PaymentOutcome

/-- The outcome that a recorded row stands for. -/
def ofPayment (payment : Payment) : PaymentOutcome :=
  ⟨payment.id, payment.status⟩

/-- Nothing was recorded; the caller gets its own identifier back. -/
def invalidTransaction (id : PaymentId) : PaymentOutcome :=
  ⟨id, .invalidTransaction⟩

end PaymentOutcome

end CardHolds

import CardHolds.Lifecycle.Move
import CardHolds.Payment

/-!
# The rules of the payment lifecycle

    create              → authorization: wrong payment request, insufficient funds, approved
    approved            → capture: invalid amount, successful payment
    approved            → cancel: invalid amount, successful cancel
    successful payment  → refund: invalid amount, successful refund

A decision is made from the accounts as they were read and the request or the referenced payment.
It holds the row to record, the moves to carry out and the accounts whose statements record the
payment.  An outcome that moves no money is recorded on the statement of the merchant alone; one that
does is recorded for the customer and the merchant, in this order, as are their moves.
-/

namespace CardHolds

/-- What a step of a payment is to do. -/
structure Decision where
  row : NewPayment
  moves : List BalanceMove
  statements : List AccountId
deriving DecidableEq

namespace Decision

/-- An outcome that moves no money. -/
def merchantOnly (row : NewPayment) : Decision :=
  ⟨row, [], [row.merchant]⟩

/-- An outcome that moves money on both accounts. -/
def settled (row : NewPayment) (customer merchant : BalanceMove) : Decision :=
  ⟨row, [customer, merchant], [row.customer, row.merchant]⟩

end Decision

/-- The state that a payment has to be in to be reacted to by an operation. -/
def requiredPredecessor : Operation → Option (Operation × PaymentStatus)
  | .authorization => none
  | .capture => some (.authorization, .approved)
  | .cancel => some (.authorization, .approved)
  | .refund => some (.capture, .successfulPayment)

/-- Whether a payment can be reacted to by an operation. -/
def accepts (referenced : Payment) (operation : Operation) : Bool :=
  match requiredPredecessor operation with
  | some state => decide ((referenced.operation, referenced.status) = state)
  | none => false

/-- The row that an authorization with the given status records. -/
def authorizationRow (request : PaymentRequest) (customer merchant : Account)
    (status : PaymentStatus) : NewPayment where
  merchant := merchant.id
  customer := customer.id
  card := request.card.snapshot
  currency := request.currency
  operation := .authorization
  status := status
  amount := request.amount

/-- Blocks the amount on both accounts, taking it from the balance of the customer. -/
def decideAuthorization (request : PaymentRequest) (customer merchant : Account) :
    Except MoveError Decision :=
  let row := authorizationRow request customer merchant
  if customer.card ≠ request.card then
    .ok (.merchantOnly (row .wrongPaymentRequest))
  else if customer.balance < request.amount then
    .ok (.merchantOnly (row .insufficientFunds))
  else do
    let held ← (BalanceMove.on customer "customer hold").debitBalance request.amount
    let customerMove ← held.block request.amount
    let merchantMove ← (BalanceMove.on merchant "merchant hold").block request.amount
    return .settled (row .approved) customerMove merchantMove

/-- More was asked for than the referenced payment is worth. -/
def invalidAmount (referenced : Payment) (operation : Operation) (amount : Amount) : Decision :=
  .merchantOnly (.reactingTo referenced operation .invalidAmount amount)

/-- Pays the amount out of the blocked money into the balance of the merchant. -/
def decideCapture (referenced : Payment) (customer merchant : Account) (amount : Amount) :
    Except MoveError Decision :=
  if referenced.amount < amount then
    .ok (invalidAmount referenced .capture amount)
  else do
    let customerMove ← (BalanceMove.on customer "customer capture").release amount
    let credited ← (BalanceMove.on merchant "merchant capture").creditBalance amount
    let merchantMove ← credited.release amount
    return .settled (.reactingTo referenced .capture .successfulPayment amount) customerMove
      merchantMove

/-- Gives the amount out of the blocked money back to the customer. -/
def decideCancel (referenced : Payment) (customer merchant : Account) (amount : Amount) :
    Except MoveError Decision :=
  if referenced.amount < amount then
    .ok (invalidAmount referenced .cancel amount)
  else do
    let credited ← (BalanceMove.on customer "customer release").creditBalance amount
    let customerMove ← credited.release amount
    let merchantMove ← (BalanceMove.on merchant "merchant release").release amount
    return .settled (.reactingTo referenced .cancel .successfulCancel amount) customerMove
      merchantMove

/-- Pays the amount back from the balance of the merchant to that of the customer. -/
def decideRefund (referenced : Payment) (customer merchant : Account) (amount : Amount) :
    Except MoveError Decision :=
  if referenced.amount < amount then
    .ok (invalidAmount referenced .refund amount)
  else do
    let customerMove ← (BalanceMove.on customer "customer refund").creditBalance amount
    let merchantMove ← (BalanceMove.on merchant "merchant refund").debitBalance amount
    return .settled (.reactingTo referenced .refund .successfulRefund amount) customerMove
      merchantMove

/-- The steps that react to an earlier payment. -/
inductive Reaction where
  | capture
  | cancel
  | refund
deriving DecidableEq, Inhabited

namespace Reaction

/-- The operation that a reaction records. -/
def operation : Reaction → Operation
  | capture => .capture
  | cancel => .cancel
  | refund => .refund

/-- The rule for a reaction. -/
def decide (reaction : Reaction) (referenced : Payment) (customer merchant : Account)
    (amount : Amount) : Except MoveError Decision :=
  match reaction with
  | capture => decideCapture referenced customer merchant amount
  | cancel => decideCancel referenced customer merchant amount
  | refund => decideRefund referenced customer merchant amount

end Reaction

end CardHolds

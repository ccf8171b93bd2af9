import CardHolds.Identifier

/-!
# Statement messages

A `StatementRequest` asks the ledger to put a payment on the statement of an account; the ledger
replies with a `StatementAck` or with a `StreamError`.
-/

namespace CardHolds

/-- Asks for a payment to be appended to the statement of an account. -/
structure StatementRequest where
  account : AccountId
  payment : PaymentId
deriving DecidableEq, Inhabited

/-- The reply to a request whose entry has been appended. -/
structure StatementAck where
  account : AccountId
  payment : PaymentId
  /-- The length of the statement with the new entry. -/
  length : Nat
deriving DecidableEq, Inhabited

/-- A call that is out of turn. -/
inductive Misuse where
  /-- A request is sent while another is not acknowledged yet. -/
  | unacknowledged
  /-- A request is sent after the stream was closed. -/
  | afterClose
  /-- A call is made after the stream failed. -/
  | afterFailure
  /-- An acknowledgement is awaited without a request. -/
  | nothingAwaited
  /-- The stream is closed while a request is not acknowledged yet. -/
  | closeWhileAwaiting
  | other (text : String)
deriving DecidableEq

/-- Why a statement stream failed. -/
inductive StreamError where
  /-- A request could not be sent. -/
  | send (reason : String)
  /-- The far side ended without acknowledging the request. -/
  | missingAck
  /-- An acknowledgement of something other than the request. -/
  | ackMismatch (expected received : String)
  /-- The ledger refused to append. -/
  | rejected (reason : String)
  /-- The send side was closed before. -/
  | closed
  | invalidState (misuse : Misuse)
deriving DecidableEq

/-- What the ledger sends for a request. -/
abbrev StatementReply := Except StreamError StatementAck

namespace Misuse

/-- The words for a call that is out of turn. -/
def message : Misuse → String
  | unacknowledged => "the previous request has not been acknowledged"
  | afterClose => "the stream is closed"
  | afterFailure => "the stream has failed"
  | nothingAwaited => "no request is awaiting acknowledgement"
  | closeWhileAwaiting => "cannot close while a request is awaiting acknowledgement"
  | other text => text

end Misuse

namespace StreamError

/-- The words for a failed stream. -/
def message : StreamError → String
  | send reason => s!"Could not send the statement request: {reason}"
  | missingAck => "The stream ended before the outstanding request was acknowledged"
  | ackMismatch expected received =>
    s!"Expected an acknowledgement for {expected}, but received one for {received}"
  | rejected reason => s!"The ledger rejected the statement request: {reason}"
  | closed => "The send side of the stream is closed"
  | invalidState misuse => s!"Invalid stream operation: {misuse.message}"

end StreamError

namespace StatementRequest

/-- Whether an acknowledgement answers the request: account and payment are the same. -/
def acknowledgedBy (request : StatementRequest) (ack : StatementAck) : Bool :=
  decide (request.account = ack.account) && decide (request.payment = ack.payment)

/-- The request in an error message. -/
def label (request : StatementRequest) : String :=
  s!"{request.payment}@{request.account}"

end StatementRequest

/-- The acknowledged entry in an error message. -/
def StatementAck.label (ack : StatementAck) : String :=
  s!"{ack.payment}@{ack.account}"

/-- The first error in a row of replies. -/
def firstError? : List StatementReply → Option StreamError
  | [] => none
  | .ok _ :: rest => firstError? rest
  | .error e :: _ => some e

end CardHolds

import CardHolds.Statement.Channel
import CardHolds.Statement.Propagator

/-!
# The two channels of a statement stream

An `Exchange` is the pair of channels between a caller and the ledger side: requests one way, replies
the other.  `answer` carries out the calls of the caller's end, and has no answer to a call that
would wait for the ledger side.  The functions under `Exchange` named for the ledger side act for it
one message at a time.
-/

namespace CardHolds

/-- The channels of one statement stream. -/
structure Exchange where
  requests : Channel StatementRequest
  replies : Channel StatementReply

namespace Exchange

/-- Two empty channels of the given capacity. -/
def ofCapacity (capacity : Nat) : Exchange :=
  ⟨.ofCapacity capacity, .ofCapacity capacity⟩

/-- Takes replies up to the first error or the end of the stream. -/
def drainReplies (ended : Bool) : List StatementReply → Option (Option StreamError × List StatementReply)
  | [] => if ended then some (none, []) else none
  | .ok _ :: rest => drainReplies ended rest
  | .error e :: rest => some (some e, rest)

/-- Carries out a call of the caller's end, unless it has to wait. -/
def answer (call : StreamCall) (x : Exchange) : Option (streamCalls.Reply call × Exchange) :=
  match call with
  | .send request =>
    match x.requests.send request with
    | .sent requests => some (true, { x with requests := requests })
    | .gone => some (false, x)
    | .full => none
  | .receive =>
    match x.replies.receive with
    | .message reply replies => some (some reply, { x with replies := replies })
    | .ended => some (none, x)
    | .empty => none
  | .hangUp => some ((), { x with requests := x.requests.closeSender })
  | .drain =>
    (drainReplies (!x.replies.senderOpen) x.replies.queue).map fun (error, queue) =>
      (error, { x with replies := { x.replies with queue := queue } })

/-- Runs a program of the caller's end until it is done, unless it has to wait. -/
def run? {α : Type} (x : Exchange) (p : Program streamCalls α) : Option (α × Exchange) :=
  p.run? answer x

/-- The ledger side takes the next request. -/
def takeRequest (x : Exchange) : Channel.Received StatementRequest :=
  x.requests.receive

/-- The ledger side sends a reply. -/
def putReply (x : Exchange) (reply : StatementReply) : Channel.Sent StatementReply :=
  x.replies.send reply

/-- The ledger side takes no more requests. -/
def dropRequests (x : Exchange) : Exchange :=
  { x with requests := x.requests.closeReceiver }

/-- The ledger side sends no more replies. -/
def dropReplies (x : Exchange) : Exchange :=
  { x with replies := x.replies.closeSender }

end Exchange

end CardHolds

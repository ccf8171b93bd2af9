import CardHolds.Program
import CardHolds.Statement.Message

/-!
# The caller's end of a statement stream

A statement stream carries requests to the ledger and replies back.  The caller's end can be closed
for sending alone (`closeSend`); replies can still be received after that.  The stream does not
enforce turns; `Propagator` does.

What the stream asks of the two channels is `StreamCall`: put a request on the wire, take the next
reply, close the request channel, and wait for the ledger to finish.
-/

namespace CardHolds

/-- What is asked of the channels of a stream. -/
inductive StreamCall where
  /-- Put a request on the wire; false if nobody takes requests any more. -/
  | send (request : StatementRequest)
  /-- Take the next reply; none once the ledger has ended the stream. -/
  | receive
  /-- Close the request channel. -/
  | hangUp
  /-- Take replies until the ledger has ended the stream or sends an error. -/
  | drain

/-- The replies to the calls of a stream. -/
@[reducible] def streamCalls : Interface where
  Call := StreamCall
  Reply
    | .send _ => Bool
    | .receive => Option StatementReply
    | .hangUp => Unit
    | .drain => Option StreamError

/-- The state of the caller's end. -/
structure StatementStream where
  sendClosed : Bool := false
deriving DecidableEq, Inhabited

namespace StatementStream

/-- Sends a request, unless the send side is closed or nobody takes requests any more. -/
def send (stream : StatementStream) (request : StatementRequest) :
    Program streamCalls (Except StreamError Unit) :=
  if stream.sendClosed then
    .done (.error .closed)
  else
    .ask (.send request) fun taken =>
      .done (if taken then .ok () else .error (.send "channel closed"))

/-- The next reply, or none once the ledger has ended the stream. -/
def receive : Program streamCalls (Option StatementReply) :=
  .ask .receive .done

/-- Takes replies until the ledger has ended the stream; answers with an error among them, at which
it stops. -/
def drain : Program streamCalls (Option StreamError) :=
  .ask .drain .done

/-- Closes the send side; closing it again does nothing. -/
def closeSend (stream : StatementStream) : Program streamCalls StatementStream :=
  if stream.sendClosed then
    .done stream
  else
    .ask .hangUp fun _ => .done { sendClosed := true }

end StatementStream

end CardHolds

import CardHolds.Statement.Stream

/-!
# Taking turns on a statement stream

A `Propagator` sends a request and accepts nothing but its acknowledgement before the next one.  A
call out of turn is refused with `invalidState` and changes nothing.  Anything else that goes wrong,
a request that cannot be sent, a missing or foreign acknowledgement, an error reply, closes the send
side and leaves the propagator failed for good; what was acknowledged before stays recorded.

`propagate` appends a batch of requests, one turn each, and then closes the stream.
-/

namespace CardHolds

/-- Whose turn it is. -/
inductive Turn where
  | readyToSend
  /-- The request was sent and is not acknowledged yet. -/
  | awaitingAck (request : StatementRequest)
  | closed
  | failed
deriving DecidableEq, Inhabited

/-- A statement stream with its turn and the acknowledgements received so far. -/
structure Propagator where
  stream : StatementStream := {}
  turn : Turn := .readyToSend
  acknowledged : List StatementAck := []
deriving DecidableEq, Inhabited

namespace Propagator

/-- Closes the send side for good. -/
def fail (p : Propagator) : Program streamCalls Propagator := do
  let stream ← p.stream.closeSend
  return { p with stream := stream, turn := .failed }

/-- Puts a request on the wire if it is the caller's turn. -/
def send (p : Propagator) (request : StatementRequest) :
    Program streamCalls (Except StreamError Unit × Propagator) :=
  match p.turn with
  | .awaitingAck _ => .done (.error (.invalidState .unacknowledged), p)
  | .closed => .done (.error (.invalidState .afterClose), p)
  | .failed => .done (.error (.invalidState .afterFailure), p)
  | .readyToSend => do
    match ← p.stream.send request with
    | .ok () => return (.ok (), { p with turn := .awaitingAck request })
    | .error e => return (.error e, ← p.fail)

/-- Waits for the acknowledgement of the request that was sent. -/
def awaitAck (p : Propagator) : Program streamCalls (Except StreamError StatementAck × Propagator) :=
  match p.turn with
  | .awaitingAck pending => do
    match ← StatementStream.receive with
    | none => return (.error .missingAck, ← p.fail)
    | some (.error e) => return (.error e, ← p.fail)
    | some (.ok ack) =>
      if pending.acknowledgedBy ack then
        return (.ok ack,
          { p with turn := .readyToSend, acknowledged := p.acknowledged ++ [ack] })
      else
        return (.error (.ackMismatch pending.label ack.label), ← p.fail)
  | _ => .done (.error (.invalidState .nothingAwaited), p)

/-- Sends a request and waits for its acknowledgement. -/
def append (p : Propagator) (request : StatementRequest) :
    Program streamCalls (Except StreamError StatementAck × Propagator) := do
  match ← p.send request with
  | (.ok (), p') => p'.awaitAck
  | (.error e, p') => return (.error e, p')

/-- Closes the send side between two turns and waits for the ledger to finish.  Surplus
acknowledgements are passed over. -/
def close (p : Propagator) : Program streamCalls (Except StreamError Unit × Propagator) :=
  match p.turn with
  | .awaitingAck _ => .done (.error (.invalidState .closeWhileAwaiting), p)
  | .closed => .done (.ok (), p)
  | .failed => .done (.error (.invalidState .afterFailure), p)
  | .readyToSend => do
    let stream ← p.stream.closeSend
    let p' := { p with stream := stream }
    match ← StatementStream.drain with
    | none => return (.ok (), { p' with turn := .closed })
    | some e => return (.error e, ← p'.fail)

/-- Appends the requests in order and stops at the first that fails. -/
def appendAll (p : Propagator) :
    List StatementRequest → Program streamCalls (Except StreamError Unit × Propagator)
  | [] => .done (.ok (), p)
  | request :: rest => do
    match ← p.append request with
    | (.ok _, p') => p'.appendAll rest
    | (.error e, p') => return (.error e, p')

end Propagator

/-- Appends a batch of requests over a fresh stream and closes it; answers with the
acknowledgements.  The first failure ends the batch, and what was appended before stays. -/
def propagate (requests : List StatementRequest) :
    Program streamCalls (Except StreamError (List StatementAck)) := do
  match ← ({} : Propagator).appendAll requests with
  | (.error e, _) => return .error e
  | (.ok (), p) =>
    match ← p.close with
    | (.error e, _) => return .error e
    | (.ok (), p') => return .ok p'.acknowledged

end CardHolds

import CardHolds.Ledger.Basic
import CardHolds.Statement.Exchange

/-!
# The ledger side of a statement stream

The server takes one request at a time, appends the entry, and replies before it takes the next one.
An append that the ledger refuses is told to the caller and ends the stream; a caller that no longer
listens ends it too, after the entry has been appended.  `Server.step` is one step of the server,
or none when it has ended or has to wait for the caller; `serve` lets it run as long as it can.
-/

namespace CardHolds

/-- What the server does next. -/
inductive ServerPhase where
  /-- Take a request. -/
  | listening
  /-- Send the reply to the request it has handled. -/
  | replying (reply : StatementReply)
  | ended

/-- The ledger with the server of one stream. -/
structure Server where
  ledger : Ledger
  exchange : Exchange
  phase : ServerPhase := .listening

namespace Server

/-- Appends the entry that a request asks for, and the reply to it. -/
def handle (ledger : Ledger) (request : StatementRequest) : StatementReply × Ledger :=
  match ledger.append request.account request.payment with
  | (.ok length, ledger') => (.ok ⟨request.account, request.payment, length⟩, ledger')
  | (.error e, ledger') => (.error (.rejected e.message), ledger')

/-- The server goes away and lets go of its ends of both channels. -/
def stop (s : Server) : Server :=
  { s with exchange := s.exchange.dropRequests.dropReplies, phase := .ended }

/-- One step of the server, if it can take one. -/
def step (s : Server) : Option Server :=
  match s.phase with
  | .ended => none
  | .listening =>
    match s.exchange.takeRequest with
    | .message request requests =>
      let (reply, ledger) := handle s.ledger request
      some { ledger := ledger, exchange := { s.exchange with requests := requests },
             phase := .replying reply }
    | .ended => some s.stop
    | .empty => none
  | .replying reply =>
    match s.exchange.putReply reply with
    | .sent replies =>
      let s' := { s with exchange := { s.exchange with replies := replies }, phase := .listening }
      some (if reply.isOk then s' else s'.stop)
    | .gone => some s.stop
    | .full => none

/-- At most `n` steps of the server. -/
def steps : Nat → Server → Server
  | 0, s => s
  | n + 1, s =>
    match s.step with
    | some s' => steps n s'
    | none => s

/-- Lets the server run until it has ended or has to wait.  Every queued request takes two steps,
and the end takes one. -/
def run (s : Server) : Server :=
  steps (2 * s.exchange.requests.queue.length + 2) s

end Server

/-- Serves requests that were queued all at once by a caller that has closed its send side, and that
listens to the replies or does not.  Answers with the replies and the ledger after them. -/
def serve (ledger : Ledger) (requests : List StatementRequest) (listening : Bool) :
    List StatementReply × Ledger :=
  let exchange : Exchange :=
    { requests := { capacity := max 1 requests.length, queue := requests, senderOpen := false }
      replies := { capacity := max 1 requests.length, receiverOpen := listening } }
  let server := Server.run { ledger := ledger, exchange := exchange }
  (server.exchange.replies.queue, server.ledger)

end CardHolds

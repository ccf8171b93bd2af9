import CardHolds.Engine.Interference
import CardHolds.Lifecycle.Flow
import CardHolds.Statement.Server

/-!
# Running lifecycle calls on an engine

An `Execution` is an engine in the middle of a lifecycle call: the rows of the open transaction, the
ledger side of the open statement stream, and what occurred so far.  `answer` carries out one call to
the environment under an interference; `Program.run` then runs a whole program.

A statement request is handled by the ledger side as soon as it is sent, so the ledger side is never
more than one message behind the caller, who waits for the reply anyway.
-/

namespace CardHolds

/-- The ledger side of a statement stream, as seen from the caller. -/
structure Peer where
  /-- Replies that the caller has not taken yet. -/
  replies : List StatementReply := []
  /-- Whether requests are still taken. -/
  serving : Bool := true

/-- An engine in the middle of a lifecycle call. -/
structure Execution where
  engine : Engine
  transaction : LogTransaction := {}
  peer : Peer := { serving := false }
  /-- What occurred so far, oldest first. -/
  history : List Occurrence := []

/-- The error of an answer, if it is one. -/
def errorOf {ε α : Type} : Except ε α → Option ε
  | .ok _ => none
  | .error e => some e

namespace Execution

variable {ε α : Type}

/-- Other writers change the ledger. -/
def others (x : Execution) (commands : List Ledger.Command) : Execution :=
  { x with engine := x.engine.performAll commands }

/-- Adds to what occurred. -/
def note (x : Execution) (occurrence : Occurrence) : Execution :=
  { x with history := x.history ++ [occurrence] }

/-- Carries a call out under an interruption. -/
def interrupted (x : Execution) (i : Interruption ε)
    (call : Execution → Except ε α × Execution) : Except ε α × Execution :=
  let outcome : Except ε α × Execution :=
    match i.instead with
    | some e => (.error e, x.others i.before)
    | none => call (x.others i.before)
  let answer : Except ε α :=
    match i.replacing with
    | some e => .error e
    | none => outcome.1
  (answer, outcome.2.others i.after)

/-- A call to the ledger client. -/
def ledgerCall (i : Interference) (x : Execution) :
    (call : LedgerCall) → ledgerCalls.Reply call × Execution
  | .account id =>
    let (reply, x') := x.interrupted (i.ledger x.history (.account id)) fun x =>
      (x.engine.ledger.account id, x)
    (reply, x'.note (.ledger (.account id) (errorOf reply)))
  | .updateBalance id update =>
    let (reply, x') := x.interrupted (i.ledger x.history (.updateBalance id update)) fun x =>
      let outcome := x.engine.ledger.updateBalance id update
      (outcome.1, { x with engine := { x.engine with ledger := outcome.2 } })
    (reply, x'.note (.ledger (.updateBalance id update) (errorOf reply)))
  | .openStream =>
    let (reply, x') := x.interrupted (i.ledger x.history .openStream) fun x =>
      (.ok (), { x with peer := {} })
    (reply, x'.note (.ledger .openStream (errorOf reply)))

/-- Records a row in the open transaction under a fresh name. -/
def insertPayment (x : Execution) (payment : NewPayment) : Except LogError Payment × Execution :=
  let e := x.engine
  let outcome := e.log.insert x.transaction (e.mint.paymentId e.paymentsInserted) e.mint.now payment
  let inserted := if outcome.1.isOk then 1 else 0
  (outcome.1,
    { x with
      transaction := outcome.2
      engine := { e with paymentsInserted := e.paymentsInserted + inserted } })

/-- Makes the rows of the open transaction part of the log. -/
def commitTransaction (x : Execution) : Except LogError Unit × Execution :=
  match x.engine.log.commit x.transaction with
  | .ok log => (.ok (), { x with engine := { x.engine with log := log } })
  | .error e => (.error e, x)

/-- A call to the payment log.  After a commit or a rollback, also one that failed, the transaction
is over. -/
def logCall (i : Interference) (x : Execution) :
    (call : LogCall) → logCalls.Reply call × Execution
  | .begin =>
    let (reply, x') := x.interrupted (i.log x.history .begin) fun x =>
      (x.engine.log.begin.map fun _ => (), { x with transaction := {} })
    (reply, x'.note (.log .begin (errorOf reply)))
  | .insert payment =>
    let (reply, x') := x.interrupted (i.log x.history (.insert payment)) (·.insertPayment payment)
    (reply, x'.note (.log (.insert payment) (errorOf reply)))
  | .commit =>
    let (reply, x') := x.interrupted (i.log x.history .commit) commitTransaction
    (reply, { x' with transaction := {} }.note (.log .commit (errorOf reply)))
  | .rollback =>
    let (reply, x') := x.interrupted (i.log x.history .rollback) fun x => (.ok (), x)
    (reply, { x' with transaction := {} }.note (.log .rollback (errorOf reply)))
  | .find id =>
    let (reply, x') := x.interrupted (i.log x.history (.find id)) fun x => (x.engine.log.find id, x)
    (reply, x'.note (.log (.find id) (errorOf reply)))
  | .involving account =>
    let (reply, x') := x.interrupted (i.log x.history (.involving account)) fun x =>
      (x.engine.log.involving account, x)
    (reply, x'.note (.log (.involving account) (errorOf reply)))

/-- The acknowledgement that an interruption makes of the right one. -/
def forgedAck (i : AppendInterruption) (ack : StatementAck) : StatementAck :=
  { ack with
    account := i.ackAccount.getD ack.account
    payment := i.ackPayment.getD ack.payment }

/-- The ledger side handles a statement request. -/
def serveRequest (i : Interference) (x : Execution) (request : StatementRequest) : Execution :=
  let interruption := i.append x.history request
  let x := x.note (.append request)
  if interruption.hangUp then
    let x := x.others interruption.before
    { x with peer := { x.peer with serving := false } }
  else
    let (reply, x) := x.interrupted interruption.toInterruption fun x =>
      let outcome := Server.handle x.engine.ledger request
      (outcome.1, { x with engine := { x.engine with ledger := outcome.2 } })
    { x with
      peer := {
        replies := x.peer.replies ++ [reply.map (forgedAck interruption)]
        serving := reply.isOk && !interruption.hangUpAfter } }

/-- The ledger side learns that no more requests come, and ends. -/
def endStream (i : Interference) (x : Execution) : Execution :=
  if x.peer.serving then
    let interruption := i.streamEnd x.history
    let x := x.note .streamEnd
    let x := x.others interruption.before
    let replies := x.peer.replies ++ interruption.surplus.toList.map .ok ++
      interruption.failure.toList.map .error
    { x with peer := { replies := replies, serving := false } }.others interruption.after
  else
    x

/-- A call to the open statement stream. -/
def streamCall (i : Interference) (x : Execution) :
    (call : StreamCall) → streamCalls.Reply call × Execution
  | .send request =>
    if x.peer.serving then (true, x.serveRequest i request) else (false, x)
  | .receive =>
    match x.peer.replies with
    | [] => (none, x)
    | reply :: rest => (some reply, { x with peer := { x.peer with replies := rest } })
  | .hangUp => ((), x.endStream i)
  | .drain => (firstError? x.peer.replies, { x with peer := { x.peer with replies := [] } })

/-- Carries out one call of a lifecycle call. -/
def answer (i : Interference) : (call : LifecycleCall) → Execution →
    lifecycleCalls.Reply call × Execution
  | .ledger call, x => x.ledgerCall i call
  | .log call, x => x.logCall i call
  | .stream call, x => x.streamCall i call
  | .publish event, x => ((), { x with engine := x.engine.publish event })

/-- Runs a program to its end. -/
def run (i : Interference) (p : Program lifecycleCalls α) (x : Execution) : α × Execution :=
  p.run (answer i) x

end Execution

namespace Engine

variable {α : Type}

/-- Runs a lifecycle call to its end under an interference; answers with its result and what is left
after it. -/
def call (e : Engine) (i : Interference) (p : Program lifecycleCalls α) : α × Execution :=
  Execution.run i p { engine := e }

/-- Authorizes a payment. -/
def createPayment (e : Engine) (i : Interference) (request : PaymentRequest) :
    Except FlowError PaymentOutcome × Execution :=
  e.call i (CardHolds.createPayment e.retries request)

/-- Captures, cancels or refunds an earlier payment. -/
def reactToPayment (e : Engine) (i : Interference) (reaction : Reaction) (id : PaymentId)
    (amount : Amount) : Except FlowError PaymentOutcome × Execution :=
  e.call i (CardHolds.reactToPayment e.retries reaction id amount)

end Engine

end CardHolds

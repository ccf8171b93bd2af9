import CardHolds.Lifecycle.Error
import CardHolds.Account
import CardHolds.Statement.Stream

/-!
# What a lifecycle call asks of its environment

A lifecycle call reads and updates accounts through a ledger client, records a row through a
transaction of the payment log, drives one statement stream at a time, and tells observers what
became of it.  Each of these parties has an interface of its own, and `lifecycleCalls` is all of them
together.
-/

namespace CardHolds

/-- Calls to the ledger. -/
inductive LedgerCall where
  | account (id : AccountId)
  | updateBalance (id : AccountId) (update : BalanceUpdate)
  /-- Opens a statement stream. -/
  | openStream
deriving DecidableEq

/-- The replies of the ledger. -/
@[reducible] def ledgerCalls : Interface where
  Call := LedgerCall
  Reply
    | .account _ => Except LedgerError Account
    | .updateBalance _ _ => Except LedgerError Account
    | .openStream => Except LedgerError Unit

/-- Calls to the payment log. -/
inductive LogCall where
  | begin
  | insert (payment : NewPayment)
  | commit
  | rollback
  | find (id : PaymentId)
  | involving (account : AccountId)
deriving DecidableEq

/-- The replies of the payment log. -/
@[reducible] def logCalls : Interface where
  Call := LogCall
  Reply
    | .begin => Except LogError Unit
    | .insert _ => Except LogError Payment
    | .commit => Except LogError Unit
    | .rollback => Except LogError Unit
    | .find _ => Except LogError (Option Payment)
    | .involving _ => Except LogError (List Payment)

/-- A payment was recorded: its row is committed and every statement has acknowledged it. -/
structure PaymentRecorded where
  payment : Payment
deriving DecidableEq, Inhabited

/-- A balance move could not be undone; the account is left as it is. -/
structure CompensationFailed where
  account : AccountId
  /-- What the move did. -/
  step : String
  reason : String
deriving DecidableEq, Inhabited

/-- What observers are told. -/
inductive Event where
  | paymentRecorded (event : PaymentRecorded)
  | compensationFailed (event : CompensationFailed)
deriving DecidableEq

/-- Telling the observers; there is nothing to reply. -/
@[reducible] def eventCalls : Interface where
  Call := Event
  Reply _ := Unit

/-- Calls to any of the parties. -/
inductive LifecycleCall where
  | ledger (call : LedgerCall)
  | log (call : LogCall)
  | stream (call : StreamCall)
  | publish (event : Event)

/-- Everything that a lifecycle call may ask. -/
@[reducible] def lifecycleCalls : Interface where
  Call := LifecycleCall
  Reply
    | .ledger call => ledgerCalls.Reply call
    | .log call => logCalls.Reply call
    | .stream call => streamCalls.Reply call
    | .publish _ => Unit

variable {α : Type}

/-- A program that calls the ledger alone, as part of a lifecycle call. -/
def Program.onLedger (p : Program ledgerCalls α) : Program lifecycleCalls α :=
  p.embed .ledger fun _ r => r

/-- A program that drives a statement stream, as part of a lifecycle call. -/
def Program.onStream (p : Program streamCalls α) : Program lifecycleCalls α :=
  p.embed .stream fun _ r => r

namespace Ask

/-- Reads an account. -/
def account (id : AccountId) : Program ledgerCalls (Except LedgerError Account) :=
  .ask (.account id) .done

/-- Updates the quantities of an account. -/
def updateBalance (id : AccountId) (update : BalanceUpdate) :
    Program ledgerCalls (Except LedgerError Account) :=
  .ask (.updateBalance id update) .done

/-- Opens a statement stream. -/
def openStream : Program ledgerCalls (Except LedgerError Unit) :=
  .ask .openStream .done

/-- Starts a transaction of the payment log. -/
def begin : Program lifecycleCalls (Except LogError Unit) :=
  .ask (.log .begin) .done

/-- Records a row in the transaction. -/
def insert (payment : NewPayment) : Program lifecycleCalls (Except LogError Payment) :=
  .ask (.log (.insert payment)) .done

/-- Commits the transaction. -/
def commit : Program lifecycleCalls (Except LogError Unit) :=
  .ask (.log .commit) .done

/-- Rolls the transaction back. -/
def rollback : Program lifecycleCalls (Except LogError Unit) :=
  .ask (.log .rollback) .done

/-- Looks a payment up. -/
def find (id : PaymentId) : Program lifecycleCalls (Except LogError (Option Payment)) :=
  .ask (.log (.find id)) .done

/-- Looks up the payments of an account. -/
def involving (account : AccountId) : Program lifecycleCalls (Except LogError (List Payment)) :=
  .ask (.log (.involving account)) .done

/-- Tells the observers. -/
def publish (event : Event) : Program lifecycleCalls Unit :=
  .ask (.publish event) .done

end Ask

end CardHolds

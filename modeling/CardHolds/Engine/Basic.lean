import CardHolds.Ledger.Basic
import CardHolds.Lifecycle.Call
import CardHolds.PaymentLog.Basic

/-!
# The payment engine

An `Engine` is a ledger and a payment log with what is needed to run lifecycle calls on them: a
source of fresh names, the number of retries, and the observers.  The two stores share nothing; a
transaction of the log never covers the ledger.
-/

namespace CardHolds

/-- Where fresh names and the current time come from.  The names are indexed by how many were given
out before. -/
structure Mint where
  accountId : Nat → AccountId
  paymentId : Nat → PaymentId
  now : Timestamp

/-- Whether anybody hears what is published. -/
inductive Observers where
  /-- Both observers are registered and running. -/
  | listening
  /-- No observer is registered. -/
  | absent
  /-- Observers were registered, but have gone without ever running. -/
  | gone
deriving DecidableEq

/-- Both stores and everything a lifecycle call needs beside them. -/
structure Engine where
  mint : Mint
  ledger : Ledger := {}
  log : PaymentLog := {}
  /-- How often a lifecycle call is tried again after losing against another writer. -/
  retries : Nat := 3
  observers : Observers := .listening
  /-- How many accounts have been opened under fresh names. -/
  accountsOpened : Nat := 0
  /-- How many rows have been inserted under fresh names, committed or not. -/
  paymentsInserted : Nat := 0
  /-- The recorded payments that observers heard of, in the order in which they were told. -/
  recorded : List Payment := []
  /-- The stranded moves that observers heard of, in the order in which they were told. -/
  stranded : List CompensationFailed := []

namespace Engine

/-- Carries out an operation of the ledger. -/
def perform (e : Engine) (command : Ledger.Command) : Except LedgerError Ledger.Answer × Engine :=
  let outcome := e.ledger.perform (e.mint.accountId e.accountsOpened) e.mint.now command
  let opened := if command.opens && outcome.1.isOk then 1 else 0
  (outcome.1, { e with ledger := outcome.2, accountsOpened := e.accountsOpened + opened })

/-- Carries out several operations of the ledger and ignores how they end. -/
def performAll (e : Engine) (commands : List Ledger.Command) : Engine :=
  commands.foldl (fun e command => (e.perform command).2) e

/-- Tells the observers, if there are any that listen. -/
def publish (e : Engine) (event : Event) : Engine :=
  match e.observers, event with
  | .listening, .paymentRecorded event => { e with recorded := e.recorded ++ [event.payment] }
  | .listening, .compensationFailed event => { e with stranded := e.stranded ++ [event] }
  | .absent, _ => e
  | .gone, _ => e

/-- Closes the ledger: nothing can be read or written any more. -/
def closeLedger (e : Engine) : Engine :=
  { e with ledger := { e.ledger with closed := true } }

/-- Closes the payment log: nothing can be read or written any more. -/
def closeLog (e : Engine) : Engine :=
  { e with log := { e.log with closed := true } }

/-- Opens both stores again, with everything they hold. -/
def reopen (e : Engine) : Engine :=
  { e with ledger := { e.ledger with closed := false }, log := { e.log with closed := false } }

end Engine

end CardHolds

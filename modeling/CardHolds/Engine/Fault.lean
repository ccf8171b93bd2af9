import CardHolds.Engine.Interference

/-!
# Faults at chosen calls

A `Fault` singles out calls by their kind, perhaps by the account they are for, and by their number
among the calls of that kind, and says what happens around them.  `Interference.ofFaults` is the
environment with the given faults and nothing else: of several faults at one call all the other
writers act, the first error counts, and the particulars of the reply are those of the last fault.
-/

namespace CardHolds

/-- Where a fault strikes. -/
inductive FaultSite where
  | account
  | updateBalance
  | openStream
  | begin
  | insert
  | commit
  | rollback
  | find
  | involving
  | append
  | streamEnd
deriving DecidableEq

/-- The error that a fault puts in the place of an answer. -/
inductive FaultError where
  | ledger (error : LedgerError)
  | log (error : LogError)
  | stream (error : StreamError)
deriving DecidableEq

namespace FaultError

/-- The error as one of the ledger. -/
def ledger? : FaultError → Option LedgerError
  | ledger e => some e
  | _ => none

/-- The error as one of the payment log. -/
def log? : FaultError → Option LogError
  | log e => some e
  | _ => none

/-- The error as one of a statement stream. -/
def stream? : FaultError → Option StreamError
  | stream e => some e
  | _ => none

end FaultError

/-- A disturbance of chosen calls. -/
structure Fault where
  site : FaultSite
  /-- Only calls for this account count, if one is given. -/
  account : Option AccountId := none
  /-- The number of the first call that is struck, counted from one. -/
  first : Nat := 1
  /-- How many calls are struck. -/
  times : Nat := 1
  before : List Ledger.Command := []
  instead : Option FaultError := none
  after : List Ledger.Command := []
  replacing : Option FaultError := none
  hangUp : Bool := false
  hangUpAfter : Bool := false
  ackAccount : Option AccountId := none
  ackPayment : Option PaymentId := none
  surplus : Option StatementAck := none

namespace FaultSite

/-- The site of a call to the ledger. -/
def ofLedgerCall : LedgerCall → FaultSite
  | .account _ => account
  | .updateBalance _ _ => updateBalance
  | .openStream => openStream

/-- The site of a call to the payment log. -/
def ofLogCall : LogCall → FaultSite
  | .begin => begin
  | .insert _ => insert
  | .commit => commit
  | .rollback => rollback
  | .find _ => find
  | .involving _ => involving

end FaultSite

/-- The account that a call to the ledger is for. -/
def LedgerCall.account? : LedgerCall → Option AccountId
  | .account id => some id
  | .updateBalance id _ => some id
  | .openStream => none

/-- The account that a call to the log is for. -/
def LogCall.account? : LogCall → Option AccountId
  | .involving account => some account
  | _ => none

namespace Occurrence

/-- The kind of call that occurred. -/
def site : Occurrence → FaultSite
  | ledger call _ => .ofLedgerCall call
  | log call _ => .ofLogCall call
  | append _ => .append
  | streamEnd => .streamEnd

/-- The account that the call was for. -/
def account? : Occurrence → Option AccountId
  | ledger call _ => call.account?
  | log call _ => call.account?
  | append request => some request.account
  | streamEnd => none

end Occurrence

namespace Fault

/-- Whether a fault counts a call of this kind and for this account. -/
def counts (f : Fault) (site : FaultSite) (account : Option AccountId) : Bool :=
  decide (f.site = site) && (f.account.isNone || decide (f.account = account))

/-- Whether a fault strikes the call that follows the given ones. -/
def strikes (f : Fault) (history : List Occurrence) (site : FaultSite)
    (account : Option AccountId) : Bool :=
  let number := (history.countP fun o => f.counts o.site o.account?) + 1
  f.counts site account && decide (f.first ≤ number) && decide (number < f.first + f.times)

end Fault

/-- What several faults make of one call. -/
def Interruption.ofFaults {ε : Type} (kind : FaultError → Option ε) (faults : List Fault) :
    Interruption ε where
  before := faults.flatMap Fault.before
  instead := (faults.findSome? Fault.instead).bind kind
  after := faults.flatMap Fault.after
  replacing := (faults.findSome? Fault.replacing).bind kind

namespace Interference

/-- The environment with the given faults. -/
def ofFaults (faults : List Fault) : Interference where
  ledger history call :=
    .ofFaults FaultError.ledger? (faults.filter (·.strikes history (.ofLedgerCall call) call.account?))
  log history call :=
    .ofFaults FaultError.log? (faults.filter (·.strikes history (.ofLogCall call) call.account?))
  append history request :=
    let struck := faults.filter (·.strikes history .append (some request.account))
    let last := struck.getLast?
    { Interruption.ofFaults FaultError.stream? struck with
      hangUp := last.any Fault.hangUp
      hangUpAfter := last.any Fault.hangUpAfter
      ackAccount := last.bind Fault.ackAccount
      ackPayment := last.bind Fault.ackPayment }
  streamEnd history :=
    let struck := faults.filter (·.strikes history .streamEnd none)
    { before := struck.flatMap Fault.before
      surplus := struck.getLast?.bind Fault.surplus
      failure := (struck.findSome? Fault.instead).bind FaultError.stream?
      after := struck.flatMap Fault.after }

end Interference

end CardHolds

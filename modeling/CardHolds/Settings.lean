import CardHolds.Text.Numeral

/-!
# Settings

The settings of the engine are read from named variables of the environment.  A number is an
optional plus sign and one or more decimal digits, below the limit of its field; a variable that is
not set, or holds anything else, leaves the default in place.  So reading never fails, and there is
always at least one connection.
-/

namespace CardHolds

/-- The settings of the engine. -/
structure Settings where
  ledgerUrl : String := "sqlite://data/ledger_store.db"
  paymentUrl : String := "sqlite://data/payment_store.db"
  maxConnections : Nat := 5
  /-- How often a lifecycle call is tried again after losing against another writer. -/
  balanceRetries : Nat := 3
  /-- How many messages either direction of a statement stream holds. -/
  statementBuffer : Nat := 1
  /-- How many published events wait for an observer. -/
  eventBuffer : Nat := 25
deriving DecidableEq, Inhabited

namespace Settings

/-- An assignment of texts to some variables. -/
abbrev Environment := String → Option String

/-- The number in a variable, or a default. -/
def numberOr (environment : Environment) (name : String) (limit default : Nat) : Nat :=
  ((environment name).bind (Numeral.read? limit)).getD default

/-- As `numberOr`, where a number below `least` gives way to the default too. -/
def numberAtLeastOr (environment : Environment) (name : String) (limit least default : Nat) :
    Nat :=
  let n := numberOr environment name limit default
  if n < least then default else n

/-- Numbers of connections and retries are below this. -/
def smallLimit : Nat := 1 <<< 32

/-- Sizes of buffers are below this. -/
def bufferLimit : Nat := 1 <<< 64

/-- The settings that an environment makes. -/
def ofEnvironment (environment : Environment) : Settings :=
  let default : Settings := {}
  { ledgerUrl := (environment "PE_LEDGER_DATABASE_URL").getD default.ledgerUrl
    paymentUrl := (environment "PE_PAYMENT_DATABASE_URL").getD default.paymentUrl
    maxConnections :=
      numberAtLeastOr environment "PE_MAX_DB_CONNECTIONS" smallLimit 1 default.maxConnections
    balanceRetries :=
      numberOr environment "PE_BALANCE_UPDATE_RETRIES" smallLimit default.balanceRetries
    statementBuffer :=
      numberOr environment "PE_STATEMENT_STREAM_BUFFER" bufferLimit default.statementBuffer
    eventBuffer := numberOr environment "PE_EVENT_BUFFER_SIZE" bufferLimit default.eventBuffer }

/-- Whether nothing differs from the defaults. -/
def isDefault (s : Settings) : Bool :=
  decide (s = {})

end Settings

end CardHolds

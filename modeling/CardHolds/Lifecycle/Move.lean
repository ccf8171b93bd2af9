import CardHolds.Account
import CardHolds.Lifecycle.Error

/-!
# Balance moves

A `BalanceMove` plans a change to the quantities of one account, starting from the account as it was
read.  `forward` is the update that carries it out; it expects the version that was read.  `undoOn`
takes back what the move added and removed from the account as it is now, so that changes made by
others in between stay.
-/

namespace CardHolds

/-- A planned change to the quantities of an account. -/
structure BalanceMove where
  account : AccountId
  /-- What the move does, for reports. -/
  label : String
  /-- The version of the account that the plan was made from. -/
  fromVersion : Int64
  oldBalance : Amount
  oldBlocked : Amount
  newBalance : Amount
  newBlocked : Amount
deriving DecidableEq, Inhabited

namespace BalanceMove

/-- A plan that changes nothing yet. -/
def on (account : Account) (label : String) : BalanceMove where
  account := account.id
  label := label
  fromVersion := account.version
  oldBalance := account.balance
  oldBlocked := account.blocked
  newBalance := account.balance
  newBlocked := account.blocked

/-- Adds to the planned balance. -/
def creditBalance (m : BalanceMove) (amount : Amount) : Except MoveError BalanceMove :=
  match m.newBalance.add? amount with
  | some balance => .ok { m with newBalance := balance }
  | none => .error (.overflow m.account .balance amount)

/-- Takes from the planned balance. -/
def debitBalance (m : BalanceMove) (amount : Amount) : Except MoveError BalanceMove :=
  match m.newBalance.sub? amount with
  | some balance => .ok { m with newBalance := balance }
  | none => .error (.underflow m.account .balance amount)

/-- Adds to the planned blocked money. -/
def block (m : BalanceMove) (amount : Amount) : Except MoveError BalanceMove :=
  match m.newBlocked.add? amount with
  | some blocked => .ok { m with newBlocked := blocked }
  | none => .error (.overflow m.account .blocked amount)

/-- Takes from the planned blocked money. -/
def release (m : BalanceMove) (amount : Amount) : Except MoveError BalanceMove :=
  match m.newBlocked.sub? amount with
  | some blocked => .ok { m with newBlocked := blocked }
  | none => .error (.underflow m.account .blocked amount)

/-- One step of a plan. -/
inductive Step where
  | creditBalance (amount : Amount)
  | debitBalance (amount : Amount)
  | block (amount : Amount)
  | release (amount : Amount)
deriving DecidableEq

/-- Adds a step to a plan. -/
def take (m : BalanceMove) : Step → Except MoveError BalanceMove
  | .creditBalance amount => m.creditBalance amount
  | .debitBalance amount => m.debitBalance amount
  | .block amount => m.block amount
  | .release amount => m.release amount

/-- A plan of several steps; the first impossible one fails it. -/
def plan (account : Account) (label : String) (steps : List Step) : Except MoveError BalanceMove :=
  steps.foldlM take (on account label)

/-- The update that carries the move out. -/
def forward (m : BalanceMove) : BalanceUpdate where
  balance := some m.newBalance
  blocked := some m.newBlocked
  expectedVersion := some m.fromVersion

/-- Takes the change from `old` to `new` back from `current`. -/
def reverse (m : BalanceMove) (quantity : Quantity) (current old new : Amount) :
    Except MoveError Amount :=
  match new.sub? old with
  | some added =>
    match current.sub? added with
    | some result => .ok result
    | none => .error (.underflow m.account quantity added)
  | none =>
    let removed := old.minus new
    match current.add? removed with
    | some result => .ok result
    | none => .error (.overflow m.account quantity removed)

/-- The update that takes the move back from the account as it is now. -/
def undoOn (m : BalanceMove) (current : Account) : Except MoveError BalanceUpdate := do
  let balance ← m.reverse .balance current.balance m.oldBalance m.newBalance
  let blocked ← m.reverse .blocked current.blocked m.oldBlocked m.newBlocked
  return {
    balance := some balance
    blocked := some blocked
    expectedVersion := some current.version }

end BalanceMove

end CardHolds

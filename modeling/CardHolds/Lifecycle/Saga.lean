import CardHolds.Lifecycle.Call
import CardHolds.Lifecycle.Move

/-!
# Sagas

A `Saga` carries out balance moves on the ledger one by one and remembers those that succeeded.  If a
later step of a payment fails, `compensate` undoes them, newest first, and goes on past a move that
cannot be undone.

To undo a move the account is read again and the move is taken back from what it holds now, with an
update that expects the version just read.  Losing that update against another writer leads to another
try, up to `compensationAttempts` in all; any other failure is final.
-/

namespace CardHolds

/-- How often one move is tried to be undone while other writers keep changing its account. -/
def compensationAttempts : Nat := 5

/-- Why a move could not be undone. -/
inductive UndoFault where
  /-- The account could not be read or updated. -/
  | ledger (error : LedgerError)
  /-- What the move added is no longer there, or what it removed no longer fits. -/
  | move (error : MoveError)
  /-- Every attempt lost against another writer. -/
  | contended
deriving DecidableEq

/-- The words for the reason that observers are told. -/
def UndoFault.message : UndoFault → String
  | ledger error => error.message
  | move error => error.message
  | contended => s!"The account kept changing. Gave up after {compensationAttempts} attempts"

/-- A move that stays in place, and why. -/
structure CompensationFailure where
  account : AccountId
  /-- The label of the move. -/
  step : String
  fault : UndoFault
deriving DecidableEq

/-- What observers are told of a move that stays in place. -/
def CompensationFailure.event (failure : CompensationFailure) : CompensationFailed :=
  ⟨failure.account, failure.step, failure.fault.message⟩

namespace BalanceMove

/-- Undoes a move with at most the given number of attempts. -/
def undo (m : BalanceMove) : Nat → Program ledgerCalls (Except UndoFault Account)
  | 0 => .done (.error .contended)
  | attempts + 1 => do
    match ← Ask.account m.account with
    | .error e => return .error (.ledger e)
    | .ok current =>
      match m.undoOn current with
      | .error e => return .error (.move e)
      | .ok update =>
        match ← Ask.updateBalance m.account update with
        | .ok account => return .ok account
        | .error e => if e.isVersionConflict then m.undo attempts else return .error (.ledger e)

/-- The failure to report when a move stays in place. -/
def stranded (m : BalanceMove) (fault : UndoFault) : CompensationFailure :=
  ⟨m.account, m.label, fault⟩

end BalanceMove

/-- The moves carried out so far, oldest first. -/
structure Saga where
  applied : List BalanceMove := []
deriving DecidableEq, Inhabited

namespace Saga

/-- Carries a move out and remembers it; a move that fails is not remembered. -/
def apply (saga : Saga) (m : BalanceMove) :
    Program ledgerCalls (Except LedgerError Account × Saga) := do
  match ← Ask.updateBalance m.account m.forward with
  | .ok account => return (.ok account, { applied := saga.applied ++ [m] })
  | .error e => return (.error e, saga)

/-- Carries moves out in order and stops at the first that fails. -/
def applyAll (saga : Saga) :
    List BalanceMove → Program ledgerCalls (Except LedgerError Unit × Saga)
  | [] => .done (.ok (), saga)
  | m :: rest => do
    match ← saga.apply m with
    | (.ok _, saga') => saga'.applyAll rest
    | (.error e, saga') => return (.error e, saga')

/-- Undoes moves in the order of the list and reports those that stay in place. -/
def undoAll : List BalanceMove → Program ledgerCalls (List CompensationFailure)
  | [] => .done []
  | m :: rest => do
    match ← m.undo compensationAttempts with
    | .ok _ => undoAll rest
    | .error fault => return m.stranded fault :: (← undoAll rest)

/-- Undoes every move that was carried out, newest first. -/
def compensate (saga : Saga) : Program ledgerCalls (List CompensationFailure) :=
  undoAll saga.applied.reverse

end Saga

end CardHolds

import CardHolds.Proofs.Engine.Replies
import CardHolds.Proofs.Lifecycle.Instruction
import Mathlib.Algebra.BigOperators.Group.Finset.Basic

/-!
# Calls and deposits at the same time

A `System` is one engine with a finite number of lifecycle calls and deposits in progress.  Each of
them goes on by one step at a time: a lifecycle call by its next call to the environment, a deposit by
reading the account and then by writing it.  Accounts may be opened and amended in between, and the
clock may be set.  A schedule is any list of such actions.

A lifecycle call meets faults of its own; that others write to the ledger is not a fault here, since
all writers are part of the system.  The book of a call (`Caller.book`) is not used by the call.  It
records what the call has read and done so far.
-/

namespace CardHolds

open Program

/-! ## Nobody else writes -/

/-- The interruption without other writers. -/
def Interruption.alone {ε : Type} (i : Interruption ε) : Interruption ε :=
  { i with before := [], after := [] }

/-- The faults of an environment without its other writers. -/
def Interference.alone (i : Interference) : Interference where
  ledger h c := (i.ledger h c).alone
  log h c := (i.log h c).alone
  append h r := { i.append h r with before := [], after := [] }
  streamEnd h := { i.streamEnd h with before := [], after := [] }

theorem Interference.alone_alone (i : Interference) : i.alone.Alone := by
  intro commands h
  cases h <;> rfl

/-- An update or a commit that was answered with an error has not happened. -/
structure Interference.FailsCleanly (i : Interference) : Prop where
  updates : ∀ h id u, (i.ledger h (.updateBalance id u)).replacing = none
  commits : i.CommitsCleanly

/-- Faults that take no answer away are clean. -/
theorem Interference.failsCleanly_ofFaults {faults : List Fault}
    (h : ∀ f ∈ faults, f.replacing = none) : (Interference.ofFaults faults).FailsCleanly where
  updates _ _ _ := replacing_ofFaults fun f hf => h f (List.mem_filter.mp hf).1
  commits := commitsCleanly_ofFaults h

theorem Interference.CommitsCleanly.alone {i : Interference} (h : i.CommitsCleanly) :
    i.alone.CommitsCleanly := fun history => h history

/-! ## Parties -/

/-- A lifecycle call in progress. -/
structure Caller where
  instruction : Instruction
  /-- What goes wrong in its calls to the environment. -/
  faults : Interference
  /-- What is left to do. -/
  rest : Program lifecycleCalls (Except FlowError PaymentOutcome)
  transaction : LogTransaction := {}
  peer : Peer := { serving := false }
  history : List Occurrence := []
  /-- What it has read and done so far. -/
  book : Book := {}

namespace Caller

/-- The engine in the middle of this call. -/
def execution (c : Caller) (e : Engine) : Execution := ⟨e, c.transaction, c.peer, c.history⟩

/-- The call makes its next call to the environment, if it is not done. -/
def step (c : Caller) (e : Engine) : Caller × Engine :=
  match c.rest with
  | .done _ => (c, e)
  | .ask call next =>
    let outcome := Execution.answer c.faults.alone call (c.execution e)
    ({ c with
        rest := next outcome.1
        transaction := outcome.2.transaction
        peer := outcome.2.peer
        history := outcome.2.history
        book := bookkeeping.observe c.book call outcome.1 },
      outcome.2.engine)

/-- The result of a call that has ended. -/
def result? (c : Caller) : Option (Except FlowError PaymentOutcome) :=
  match c.rest with
  | .done result => some result
  | .ask _ _ => none

/-- A call that goes on alone is a call of the engine. -/
theorem call_of_steps (c : Caller) (e : Engine) :
    ∃ n, ((fun y : Caller × Engine => y.1.step y.2)^[n] (c, e)).1.rest =
        .done (c.rest.run (Execution.answer c.faults.alone) (c.execution e)).1 ∧
      ((fun y : Caller × Engine => y.1.step y.2)^[n] (c, e)).2 =
        (c.rest.run (Execution.answer c.faults.alone) (c.execution e)).2.engine := by
  obtain ⟨p, hp⟩ : ∃ p, c.rest = p := ⟨_, rfl⟩
  induction p generalizing c e with
  | done result => exact ⟨0, by rw [hp]; exact ⟨hp, rfl⟩⟩
  | ask call next ih =>
    obtain ⟨n, hrest, hengine⟩ := ih _ (c.step e).1 (c.step e).2 (by rw [step, hp])
    refine ⟨n + 1, ?_, ?_⟩
    · rw [Function.iterate_succ_apply, hrest]
      simp only [step, hp, run_ask, execution]
    · rw [Function.iterate_succ_apply, hengine]
      simp only [step, hp, run_ask, execution]

end Caller

/-- How far a deposit has come. -/
inductive DepositPhase where
  /-- The account has to be read. -/
  | due
  /-- The account has to be written. -/
  | planned (plan : LedgerStore.DepositPlan)
  | ended (result : Except LedgerError Account)

/-- The phase after the account was read. -/
def DepositPhase.afterReading : Except LedgerError (Option LedgerStore.DepositPlan) → DepositPhase
  | .error error => .ended (.error error)
  | .ok none => .ended (.error .cardNotFound)
  | .ok (some plan) => .planned plan

/-- What a deposit of some amount has added to the accounts when it has come so far. -/
def DepositPhase.credits (amount : Amount) : DepositPhase → AccountId → Delta
  | .ended (.ok account) => Pi.single account.id ((amount.units : ℤ), 0)
  | .ended (.error _) => 0
  | .planned _ => 0
  | .due => 0

/-- A deposit in progress. -/
structure Depositor where
  cardNumber : String
  amount : Amount
  phase : DepositPhase := .due

namespace Depositor

/-- What the deposit reads in the ledger. -/
def reading (d : Depositor) (l : Ledger) : Except LedgerError (Option LedgerStore.DepositPlan) :=
  l.read fun s => s.planDeposit d.cardNumber d.amount

/-- The deposit reads the account or writes it, if it has not ended. -/
def step (d : Depositor) (e : Engine) : Depositor × Engine :=
  match d.phase with
  | .due => ({ d with phase := .afterReading (d.reading e.ledger) }, e)
  | .planned plan =>
    ({ d with phase := .ended (e.ledger.updateBalance plan.account plan.update).1 },
      { e with ledger := (e.ledger.updateBalance plan.account plan.update).2 })
  | .ended _ => (d, e)

/-- What a deposit has added to the accounts. -/
def credited (d : Depositor) : AccountId → Delta := d.phase.credits d.amount

/-- A deposit of the ledger is a reading and an update. -/
theorem deposit_eq (d : Depositor) (l : Ledger) :
    l.deposit d.cardNumber d.amount =
      match d.reading l with
      | .error error => (.error error, l)
      | .ok none => (.error .cardNotFound, l)
      | .ok (some plan) => l.updateBalance plan.account plan.update :=
  l.deposit_eq d.cardNumber d.amount

/-- A deposit whose two steps follow each other is the deposit of the ledger. -/
theorem deposit_of_steps (d : Depositor) (e : Engine) (hdue : d.phase = .due) :
    ((d.step e).1.step (d.step e).2).1.phase =
        .ended (e.ledger.deposit d.cardNumber d.amount).1 ∧
      ((d.step e).1.step (d.step e).2).2 =
        { e with ledger := (e.ledger.deposit d.cardNumber d.amount).2 } := by
  -- the first step reads and the second writes, if there is anything to write
  have hfirst : d.step e = ({ d with phase := .afterReading (d.reading e.ledger) }, e) := by
    rw [step, hdue]
  rw [hfirst, deposit_eq]
  cases d.reading e.ledger with
  | error error => exact ⟨rfl, rfl⟩
  | ok plan =>
    cases plan with
    | none => exact ⟨rfl, rfl⟩
    | some plan => exact ⟨rfl, rfl⟩

end Depositor

/-! ## Systems -/

/-- An engine with lifecycle calls and deposits in progress. -/
structure System (ι κ : Type) where
  engine : Engine
  callers : ι → Caller
  depositors : κ → Depositor

/-- What may happen next. -/
inductive Action (ι κ : Type) where
  /-- A lifecycle call goes on. -/
  | call (k : ι)
  /-- A deposit goes on. -/
  | deposit (k : κ)
  | openAccount (details : NewAccount)
  | amendAccount (id : AccountId) (update : AccountUpdate)
  | setClock (now : Timestamp)

namespace System
variable {ι κ : Type} [DecidableEq ι] [DecidableEq κ]

/-- Nothing has been done yet. -/
def start (e : Engine) (instructions : ι → Instruction) (faults : ι → Interference)
    (deposits : κ → String × Amount) : System ι κ where
  engine := e
  callers k :=
    { instruction := instructions k
      faults := faults k
      rest := (instructions k).program e.retries }
  depositors k := { cardNumber := (deposits k).1, amount := (deposits k).2 }

/-- One action. -/
def step (s : System ι κ) : Action ι κ → System ι κ
  | .call k =>
    { s with
      engine := ((s.callers k).step s.engine).2
      callers := Function.update s.callers k ((s.callers k).step s.engine).1 }
  | .deposit k =>
    { s with
      engine := ((s.depositors k).step s.engine).2
      depositors := Function.update s.depositors k ((s.depositors k).step s.engine).1 }
  | .openAccount details => { s with engine := (s.engine.perform (.create details)).2 }
  | .amendAccount id update => { s with engine := (s.engine.perform (.amend id update)).2 }
  | .setClock now => { s with engine := { s.engine with mint := { s.engine.mint with now := now } } }

/-- A schedule, action by action. -/
def run (s : System ι κ) (schedule : List (Action ι κ)) : System ι κ := schedule.foldl step s

/-- What holds at the start and is kept by every action holds after any schedule. -/
theorem run_induction {P : System ι κ → Prop} (keeps : ∀ s a, P s → P (s.step a)) {s : System ι κ}
    (h : P s) (schedule : List (Action ι κ)) : P (s.run schedule) := by
  induction schedule generalizing s with
  | nil => exact h
  | cons a rest ih => exact ih (keeps s a h)

end System

end CardHolds

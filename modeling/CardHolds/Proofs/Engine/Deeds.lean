import CardHolds.Proofs.Engine.History
import CardHolds.Proofs.Engine.Statements

/-!
# What the deeds of a run come to

A run is a list of deeds.  Each has a result (`Engine.results`), and lifecycle calls also publish events
(`Engine.toldAll`), which are the same whether anybody hears them or not.
-/

namespace CardHolds

open Program

/-- The events that a call to the environment publishes. -/
def LifecycleCall.events : LifecycleCall → List Event
  | .publish event => [event]
  | _ => []

theorem LifecycleCall.events_eq_nil {c : LifecycleCall} (h : ∀ event, c ≠ .publish event) :
    c.events = [] := by
  cases c with
  | publish event => exact absurd rfl (h event)
  | ledger c => rfl
  | log c => rfl
  | stream c => rfl

/-- The events that a program publishes in a run, oldest first. -/
def Execution.told {α : Type} (i : Interference) (p : Program lifecycleCalls α) (x : Execution) :
    List Event :=
  (p.accrued (answer i) (fun (c : LifecycleCall) _ => FreeAddMonoid.ofList c.events) x).toList

@[simp] theorem Execution.told_done {α : Type} (i : Interference) (a : α) (x : Execution) :
    told i (.done a) x = [] := rfl

@[simp] theorem Execution.told_ask {α : Type} (i : Interference) (c : LifecycleCall)
    (next : lifecycleCalls.Reply c → Program lifecycleCalls α) (x : Execution) :
    told i (.ask c next) x = c.events ++ told i (next (answer i c x).1) (answer i c x).2 := rfl

/-- What a deed comes to. -/
inductive Deed.Result where
  | call (result : Except FlowError PaymentOutcome)
  | operate (result : Except LedgerError Ledger.Answer)
  /-- There is nothing to tell. -/
  | silent

namespace Engine

/-- What a deed comes to. -/
def resultOf (e : Engine) : Deed → Deed.Result
  | .call faults instruction => .call (e.call faults (instruction.program e.retries)).1
  | .operate command => .operate (e.perform command).1
  | .setClock _ => .silent
  | .closeLedger => .silent
  | .closeLog => .silent
  | .reopen => .silent

/-- What the deeds of a run come to, in order. -/
def results (e : Engine) : List Deed → List Deed.Result
  | [] => []
  | d :: rest => e.resultOf d :: (e.after d).results rest

/-- The events that a deed publishes. -/
def told (e : Engine) : Deed → List Event
  | .call faults instruction =>
    Execution.told faults (instruction.program e.retries) { engine := e }
  | _ => []

/-- The events of a run, in the order of its deeds. -/
def toldAll (e : Engine) : List Deed → List Event
  | [] => []
  | d :: rest => e.told d ++ (e.after d).toldAll rest

theorem afterAll_cons (e : Engine) (d : Deed) (rest : List Deed) :
    e.afterAll (d :: rest) = (e.after d).afterAll rest := rfl

end Engine

end CardHolds

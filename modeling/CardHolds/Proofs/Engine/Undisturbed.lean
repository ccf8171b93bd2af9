import CardHolds.Proofs.Engine.SoftOutcomes
import CardHolds.Proofs.Ledger.Update
import CardHolds.Proofs.Lifecycle.Inverse

/-!
# Moves without interference

Where nobody else writes and nothing fails by itself, a program that calls the ledger alone is a
function of the ledger (`Ledger.answer`, `Execution.run_onLedger`).  So the moves of a decision are
carried out as the ledger takes them, up to the first that it refuses (`Saga.run_applyAll_of_ok`,
`Saga.run_applyAll_of_error`), and what was carried out can be undone (`BalanceMove.run_undo`).
-/

namespace CardHolds

open Execution (answer)
open Program

namespace Ledger

/-- The ledger answers a call by itself. -/
def answer : (c : LedgerCall) → Ledger → ledgerCalls.Reply c × Ledger
  | .account id, l => (l.account id, l)
  | .updateBalance id u, l => l.updateBalance id u
  | .openStream, l => (.ok (), l)

end Ledger

namespace Execution
variable {α : Type}

/-- A program that calls the ledger alone is run on the ledger of the engine. -/
theorem run_onLedger (p : Program ledgerCalls α) (x : Execution) :
    ∃ y, p.onLedger.run (answer .undisturbed) x = ((p.run Ledger.answer x.engine.ledger).1, y) ∧
      y.engine = { x.engine with ledger := (p.run Ledger.answer x.engine.ledger).2 } ∧
      y.transaction = x.transaction := by
  induction p generalizing x with
  | done a => exact ⟨x, rfl, rfl, rfl⟩
  | ask c next ih =>
    have hanswer : ∃ z, answer .undisturbed (.ledger c) x =
        ((Ledger.answer c x.engine.ledger).1, z) ∧
          z.engine = { x.engine with ledger := (Ledger.answer c x.engine.ledger).2 } ∧
          z.transaction = x.transaction := by
      cases c with
      | account id => exact ⟨_, rfl, rfl, rfl⟩
      | updateBalance id u => exact ⟨_, rfl, rfl, rfl⟩
      | openStream => exact ⟨_, rfl, rfl, rfl⟩
    obtain ⟨z, hz, hengine, htransaction⟩ := hanswer
    obtain ⟨y, hy, hengine', htransaction'⟩ := ih (Ledger.answer c x.engine.ledger).1 z
    rw [hengine] at hy hengine'
    refine ⟨y, ?_, hengine', htransaction'.trans htransaction⟩
    show ((next (answer .undisturbed (.ledger c) x).1).onLedger.run _
      (answer .undisturbed (.ledger c) x).2) = _
    rw [hz]
    exact hy

end Execution

/-! ## Moves on the ledger -/

section Moves
variable {l l' : Ledger} {m : BalanceMove} {a : Account} {saga : Saga} {e : LedgerError}

/-- **A move that is in place is undone.** -/
theorem BalanceMove.run_undo (hread : l.account m.account = .ok a)
    (hbalance : a.balance = m.newBalance) (hblocked : a.blocked = m.newBlocked)
    (hfrom : m.FromStorable) (hv : a.version.toInt + 1 < 2 ^ 63) (attempts : Nat) : ∃ l',
    (m.undo (attempts + 1)).run Ledger.answer l = (.ok (a.write m.oldBalance m.oldBlocked), l') ∧
      l.Replaces (a.write m.oldBalance m.oldBlocked) l' := by
  obtain ⟨l', hupdate, hreplaces⟩ :=
    Ledger.updateBalance_of_account hread hfrom.balance hfrom.blocked hv
  have hundo : m.undoOn a = .ok ⟨some m.oldBalance, some m.oldBlocked, some a.version⟩ := by
    refine undoOn_of_held_sub ?_
    rw [Account.held, hbalance, hblocked]
    exact Prod.ext (sub_sub_cancel _ _) (sub_sub_cancel _ _)
  refine ⟨l', ?_, hreplaces⟩
  have hasked : (Ask.account m.account).run Ledger.answer l = (.ok a, l) :=
    Prod.ext hread rfl
  have hwritten : (Ask.updateBalance m.account
      ⟨some m.oldBalance, some m.oldBlocked, some a.version⟩).run Ledger.answer l =
        (.ok (a.write m.oldBalance m.oldBlocked), l') := hupdate
  unfold undo
  rw [run_bind_of hasked]
  simp only [hundo]
  rw [run_bind_of hwritten]
  rfl

namespace Saga

theorem run_applyAll_of_ok {rest : List BalanceMove}
    (h : l.updateBalance m.account m.forward = (.ok a, l')) :
    (saga.applyAll (m :: rest)).run Ledger.answer l =
      (({ applied := saga.applied ++ [m] } : Saga).applyAll rest).run Ledger.answer l' := by
  have hasked : (Ask.updateBalance m.account m.forward).run Ledger.answer l = (.ok a, l') := h
  have happlied : (saga.apply m).run Ledger.answer l =
      ((.ok a, { applied := saga.applied ++ [m] }), l') := by
    unfold apply
    rw [run_bind_of hasked]
    rfl
  exact run_bind_of happlied _

theorem run_applyAll_of_error {rest : List BalanceMove}
    (h : l.updateBalance m.account m.forward = (.error e, l')) :
    (saga.applyAll (m :: rest)).run Ledger.answer l = ((.error e, saga), l') := by
  have hasked : (Ask.updateBalance m.account m.forward).run Ledger.answer l = (.error e, l') := h
  have happlied : (saga.apply m).run Ledger.answer l = ((.error e, saga), l') := by
    unfold apply
    rw [run_bind_of hasked]
    rfl
  exact run_bind_of happlied _

theorem run_undoAll_of_ok {rest : List BalanceMove}
    (h : (m.undo compensationAttempts).run Ledger.answer l = (.ok a, l')) :
    (undoAll (m :: rest)).run Ledger.answer l = (undoAll rest).run Ledger.answer l' := by
  show ((m.undo compensationAttempts) >>= _).run Ledger.answer l = _
  rw [run_bind_of h]

theorem run_undoAll_of_error {rest : List BalanceMove} {fault : UndoFault}
    (h : (m.undo compensationAttempts).run Ledger.answer l = (.error fault, l')) :
    (undoAll (m :: rest)).run Ledger.answer l =
      (m.stranded fault :: ((undoAll rest).run Ledger.answer l').1,
        ((undoAll rest).run Ledger.answer l').2) := by
  show ((m.undo compensationAttempts) >>= _).run Ledger.answer l = _
  rw [run_bind_of h]
  simp only [bind_eq, run_bind]
  rfl

/-- The undo of a single move. -/
theorem run_compensate_singleton (h : (m.undo compensationAttempts).run Ledger.answer l = (.ok a, l')) :
    (compensate { applied := [m] }).run Ledger.answer l = ([], l') :=
  run_undoAll_of_ok h

end Saga

/-- The update that carries a move out on the account that it was planned from. -/
theorem BalanceMove.PlannedOn.forward_eq (h : m.PlannedOn a) :
    m.forward = ⟨some m.newBalance, some m.newBlocked, some a.version⟩ := by
  rw [forward, h.version]

/-- What an account becomes by a move. -/
def BalanceMove.result (m : BalanceMove) (a : Account) : Account := a.write m.newBalance m.newBlocked

/-- The quantities that a move plans can be stored. -/
structure BalanceMove.ToStorable (m : BalanceMove) : Prop where
  balance : m.newBalance.units < 2 ^ 63
  blocked : m.newBlocked.units < 2 ^ 63

theorem BalanceMove.PlannedOn.toStorable_of_mem {mv : BalanceMove} {a : Account}
    (h : mv.PlannedOn a) (hrange : ∀ p ∈ a.planned mv.delta, p.value < 2 ^ 63) : mv.ToStorable := by
  have hbalance := hrange _ (.head _)
  have hblocked := hrange _ (.tail _ (.head _))
  simp only [h.held_add_delta] at hbalance hblocked
  exact ⟨by omega, by omega⟩

theorem Ledger.updateBalance_forward (hread : l.account a.id = .ok a) (hp : m.PlannedOn a)
    (hto : m.ToStorable) (hv : a.version.toInt + 1 < 2 ^ 63) : ∃ l',
    l.updateBalance m.account m.forward = (.ok (m.result a), l') ∧ l.Replaces (m.result a) l' := by
  rw [hp.account, hp.forward_eq]
  exact Ledger.updateBalance_of_account hread hto.balance hto.blocked hv

end Moves

/-! ## Decisions that are given up -/

namespace Execution
variable {x : Execution} {d : Decision} {e : LedgerError} {saga : Saga} {l₁ l₂ : Ledger}

/-- A decision whose moves the ledger refuses is given up, once those that were carried out are
undone. -/
theorem run_execute_of_unapplied (hopen : x.engine.log.closed = false)
    (happly : (({} : Saga).applyAll d.moves).run Ledger.answer x.engine.ledger =
      ((.error e, saga), l₁))
    (hundo : saga.compensate.run Ledger.answer l₁ = ([], l₂)) :
    ∃ y, (Flow.execute d).run (answer .undisturbed) x = (.error (.ofLedger e), y) ∧
      y.engine = { x.engine with ledger := l₂ } := by
  obtain ⟨x₁, hbegun, hengine₁, -⟩ := run_begin hopen
  obtain ⟨x₂, happlied, hengine₂, -⟩ := run_onLedger (({} : Saga).applyAll d.moves) x₁
  rw [hengine₁, happly] at happlied hengine₂
  obtain ⟨x₃, hrolled, hengine₃⟩ : ∃ x₃, Ask.rollback.run (answer .undisturbed) x₂ = (.ok (), x₃) ∧
      x₃.engine = x₂.engine := ⟨_, rfl, rfl⟩
  obtain ⟨y, hundone, hengine, -⟩ := run_onLedger saga.compensate x₃
  rw [hengine₃, hengine₂, hundo] at hundone hengine
  have hrecorded : (Flow.applyAndRecord d).run (answer .undisturbed) x₁ =
      ((.error (.ofLedger e), saga), x₂) := by
    unfold Flow.applyAndRecord
    rw [run_bind_of happlied]
    rfl
  have hfinished : (Flow.finish (.error (.ofLedger e))).run (answer .undisturbed) x₂ =
      (.error (.ofLedger e), x₃) := by
    unfold Flow.finish
    rw [run_bind_of hrolled]
    rfl
  have hcompensated : (Flow.compensate saga (.ofLedger e)).run (answer .undisturbed) x₃ =
      (.ofLedger e, y) := by
    unfold Flow.compensate
    rw [run_bind_of hundone]
    rfl
  refine ⟨y, ?_, hengine⟩
  unfold Flow.execute
  rw [run_bind_of hbegun]
  simp only
  rw [run_bind_of hrecorded]
  simp only
  rw [run_bind_of hfinished]
  simp only
  rw [run_bind_of hcompensated]
  rfl

end Execution

end CardHolds

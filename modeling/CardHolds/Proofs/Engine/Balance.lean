import CardHolds.Proofs.Engine.Parties
import Mathlib.Algebra.Order.BigOperators.Group.Finset

/-!
# Books and accounts in balance

`System.Balanced` is what holds in every system that was started on an engine `e₀`: each party goes on
under its contract, what the accounts hold is what they held at the start together with what the books
of the calls and the deposits say was moved, and the log is what it was at the start together with what
the books say was committed.

One action keeps it (`System.Balanced.step`), so every schedule does (`System.balanced_run`).
-/

namespace CardHolds

open PaymentRow (ReadAs)
open Program

/-- A sum over parties after one of them went on. -/
theorem sum_update_eq {ι α M : Type} [Fintype ι] [DecidableEq ι] [AddCommMonoid M] (f : ι → α)
    (k : ι) (a : α) (F : α → M) {d : M} (h : F a = F (f k) + d) :
    ∑ j, F (Function.update f k a j) = ∑ j, F (f j) + d := by
  have hrest : ∑ j ∈ Finset.univ.erase k, F (Function.update f k a j) =
      ∑ j ∈ Finset.univ.erase k, F (f j) :=
    Finset.sum_congr rfl fun j hj => by
      rw [Function.update_of_ne (Finset.ne_of_mem_erase hj)]
  rw [← Finset.add_sum_erase _ _ (Finset.mem_univ k), Function.update_self, h, hrest,
    ← Finset.add_sum_erase _ (fun j => F (f j)) (Finset.mem_univ k), add_right_comm]

/-- What holds of a party after its step and of the others still holds of all. -/
theorem forall_update {ι α : Type} [DecidableEq ι] {f : ι → α} {k : ι} {a : α} {P : α → Prop}
    (hk : P a) (h : ∀ j, P (f j)) (j : ι) : P (Function.update f k a j) := by
  by_cases hj : j = k
  · rw [hj, Function.update_self]
    exact hk
  · rw [Function.update_of_ne hj]
    exact h j

namespace Caller
variable {c : Caller} {e : Engine}

@[simp] theorem step_instruction : (c.step e).1.instruction = c.instruction := by
  cases hrest : c.rest with
  | done result => rw [step_done hrest]
  | ask call next => rw [step_ask hrest]

@[simp] theorem step_faults : (c.step e).1.faults = c.faults := by
  cases hrest : c.rest with
  | done result => rw [step_done hrest]
  | ask call next => rw [step_ask hrest]

end Caller

namespace System
variable {ι κ : Type} [Fintype ι] [Fintype κ] {s : System ι κ}

/-- What all books and deposits together say was moved. -/
def moved (s : System ι κ) : AccountId → Delta :=
  ∑ k, (s.callers k).book.ledger.moved + ∑ k, (s.depositors k).credited

/-- What all books together say was committed. -/
def committed (s : System ι κ) : Multiset Payment :=
  ∑ k, ((s.callers k).book.log.committed : Multiset Payment)

/-- A system in the middle of a schedule that was started on the engine `e₀`. -/
structure Balanced (e₀ : Engine) (s : System ι κ) : Prop where
  callers : ∀ k, (s.callers k).Kept s.engine
  depositors : ∀ k, (s.depositors k).Kept s.engine
  clean : ∀ k, (s.callers k).faults.FailsCleanly
  accounts : ∀ x, Tally e₀.ledger.store.holdings (e₀.ledger.store.holdings + s.moved)
    s.engine.ledger.store x
  log : ∃ rows ps, s.engine.log.rows.rows = e₀.log.rows.rows ++ rows ∧ ReadAs rows ps ∧
    (ps : Multiset Payment) = s.committed
  found : ∀ k p, (s.callers k).book.log.found = some p →
    ∃ row ∈ s.engine.log.rows.rows, row.read = .ok p

/-- What a call has committed is in the log. -/
theorem Balanced.exists_row {e₀ : Engine} (h : s.Balanced e₀) {k : ι} {p : Payment}
    (hp : p ∈ (s.callers k).book.log.committed) :
    ∃ row ∈ s.engine.log.rows.rows, row.read = .ok p := by
  obtain ⟨rows, ps, hrows, hread, hsame⟩ := h.log
  have hmem : p ∈ s.committed := Multiset.mem_sum.mpr ⟨k, Finset.mem_univ k, hp⟩
  rw [← hsame] at hmem
  obtain ⟨row, hrow, hp⟩ := hread.exists_row hmem
  exact ⟨row, hrows ▸ List.mem_append_right _ hrow, hp⟩

/-- Nobody has done anything at the start. -/
theorem balanced_start (e : Engine) (instructions : ι → Instruction) {faults : ι → Interference}
    (clean : ∀ k, (faults k).FailsCleanly) (deposits : κ → String × Amount) :
    (start e instructions faults deposits).Balanced e := by
  have hmoved : (start e instructions faults deposits).moved = 0 := by
    have hbooks : ∑ _k : ι, ((0 : AccountId → Delta)) = 0 := Finset.sum_const_zero
    have hdeposits : ∑ _k : κ, ((0 : AccountId → Delta)) = 0 := Finset.sum_const_zero
    exact (congrArg₂ (· + ·) hbooks hdeposits).trans (add_zero 0)
  have hcommitted : (start e instructions faults deposits).committed = 0 := by
    have hnone : ∑ _k : ι, ((0 : Multiset Payment)) = 0 := Finset.sum_const_zero
    exact hnone
  constructor
  · intro k
    exact ⟨(instructions k).program_spec e.retries, .start (Or.inl (faults k).alone_alone)⟩
  · intro k
    exact .of_not_planned fun plan => DepositPhase.noConfusion
  · exact clean
  · intro x
    rw [hmoved, add_zero]
    exact .holdings e.ledger.store x
  · exact ⟨[], [], (List.append_nil _).symm, rfl, hcommitted.symm⟩
  · intro k p hp
    cases hp

section Actions
variable {e₀ : Engine}

/-- Somebody outside changes the ledger, and the log stays as it is. -/
theorem Balanced.outside (h : s.Balanced e₀) {e : Engine} (onward : s.engine.Onward e)
    (accounts : ∀ x, Tally e₀.ledger.store.holdings (e₀.ledger.store.holdings + s.moved)
      e.ledger.store x)
    (hlog : e.log = s.engine.log) : Balanced e₀ { s with engine := e } := by
  constructor
  · intro k
    exact (h.callers k).onward onward
  · intro k
    exact (h.depositors k).onward onward
  · exact h.clean
  · exact accounts
  · exact hlog ▸ h.log
  · exact hlog ▸ h.found

variable [DecidableEq ι] [DecidableEq κ]

theorem Balanced.call (h : s.Balanced e₀) (k : ι) : (s.step (.call k)).Balanced e₀ := by
  obtain ⟨hkept, hadvances, hgrows⟩ := (h.callers k).step (h.clean k).commits
  obtain ⟨ps, rows, hbook, hrows, hread⟩ := hgrows.committed
  have hmoved : (s.step (.call k)).moved = s.moved +
      (((s.callers k).step s.engine).1.book.ledger.moved - (s.callers k).book.ledger.moved) := by
    have hsum := sum_update_eq s.callers k ((s.callers k).step s.engine).1
      (fun c => c.book.ledger.moved) (add_sub_cancel _ _).symm
    exact (congrArg (· + _) hsum).trans (add_right_comm _ _ _)
  have hcommitted : (s.step (.call k)).committed = s.committed + (ps : Multiset Payment) :=
    sum_update_eq s.callers k ((s.callers k).step s.engine).1
      (fun c => (c.book.log.committed : Multiset Payment))
      ((congrArg _ hbook).trans (Multiset.coe_add _ _).symm)
  -- rows are only ever added
  have hstays : ∀ row ∈ s.engine.log.rows.rows, row ∈ (s.step (.call k)).engine.log.rows.rows := by
    intro row hrow
    show row ∈ ((s.callers k).step s.engine).2.log.rows.rows
    rw [hrows]
    exact List.mem_append_left _ hrow
  constructor
  · exact forall_update (P := fun c : Caller => c.Kept (s.step (.call k)).engine) hkept
      fun j => (h.callers j).onward hadvances.onward
  · intro j
    exact (h.depositors j).onward hadvances.onward
  · refine forall_update (P := fun c : Caller => c.faults.FailsCleanly) ?_ h.clean
    rw [Caller.step_faults]
    exact h.clean k
  · intro x
    rw [hmoved, ← add_assoc]
    exact (h.callers k).tally (h.clean k) h.accounts x
  · obtain ⟨old, olds, hold, hreads, hsame⟩ := h.log
    refine ⟨old ++ rows, olds ++ ps, ?_, hreads.append hread, ?_⟩
    · show ((s.callers k).step s.engine).2.log.rows.rows = _
      rw [hrows, hold, List.append_assoc]
    · rw [hcommitted, ← hsame, Multiset.coe_add]
  · refine forall_update (P := fun c : Caller => ∀ p, c.book.log.found = some p →
      ∃ row ∈ (s.step (.call k)).engine.log.rows.rows, row.read = .ok p) ?_ ?_
    · intro p hp
      rcases hgrows.found with hfound | ⟨-, hfound⟩
      · obtain ⟨row, hrow, hp⟩ := h.found k p (hfound ▸ hp)
        exact ⟨row, hstays row hrow, hp⟩
      · obtain ⟨row, hrow, hp⟩ := hfound p hp
        exact ⟨row, hstays row hrow, hp⟩
    · intro j p hp
      obtain ⟨row, hrow, hp⟩ := h.found j p hp
      exact ⟨row, hstays row hrow, hp⟩

theorem Balanced.deposit (h : s.Balanced e₀) (k : κ) : (s.step (.deposit k)).Balanced e₀ := by
  obtain ⟨hkept, hadvances, hlog⟩ := (h.depositors k).step
  have hmoved : (s.step (.deposit k)).moved = s.moved +
      (((s.depositors k).step s.engine).1.credited - (s.depositors k).credited) := by
    have hsum := sum_update_eq s.depositors k ((s.depositors k).step s.engine).1
      (fun d => d.credited) (add_sub_cancel _ _).symm
    exact (congrArg (_ + ·) hsum).trans (add_assoc _ _ _).symm
  constructor
  · intro j
    exact (h.callers j).onward hadvances.onward
  · exact forall_update (P := fun d : Depositor => d.Kept (s.step (.deposit k)).engine) hkept
      fun j => (h.depositors j).onward hadvances.onward
  · exact h.clean
  · intro x
    rw [hmoved, ← add_assoc]
    exact (h.depositors k).tally h.accounts x
  · obtain ⟨rows, ps, hrows, hread, hsame⟩ := h.log
    exact ⟨rows, ps, (congrArg (·.rows.rows) hlog).trans hrows, hread, hsame⟩
  · intro j p hp
    show ∃ row ∈ ((s.depositors k).step s.engine).2.log.rows.rows, row.read = .ok p
    rw [hlog]
    exact h.found j p hp

/-- **Every action keeps books and accounts in balance.** -/
theorem Balanced.step (h : s.Balanced e₀) (a : Action ι κ) : (s.step a).Balanced e₀ := by
  cases a with
  | call k => exact h.call k
  | deposit k => exact h.deposit k
  | openAccount details =>
    refine h.outside (Engine.onward_create s.engine details) (fun x => ?_) rfl
    rcases s.engine.ledger.store_change (fun l => l.insert (s.engine.mint.accountId
      s.engine.accountsOpened) s.engine.mint.now details) with hstore | hstore
    · exact (h.accounts x).of_find?_eq (congrArg (fun l => l.accounts.find? x) hstore)
    · exact ((h.accounts x).insert s.engine.mint.now details).of_find?_eq
        (congrArg (fun l => l.accounts.find? x) hstore)
  | amendAccount id update =>
    refine h.outside (Engine.advances_amend s.engine id update).onward (fun x => ?_) rfl
    rcases s.engine.ledger.store_change (fun l => (Ledger.require (.accountNotFound id)
      (l.amend id update).1, (l.amend id update).2)) with hstore | hstore
    · exact (h.accounts x).of_find?_eq (congrArg (fun l => l.accounts.find? x) hstore)
    · exact ((h.accounts x).amend update).of_find?_eq
        (congrArg (fun l => l.accounts.find? x) hstore)
  | setClock now => exact h.outside (fun id r hr => ⟨hr.precedes, hr.settled⟩) h.accounts rfl

omit [Fintype ι] [Fintype κ] in
/-- The calls of a system carry out what they were started with. -/
theorem instruction_run (s : System ι κ) (schedule : List (Action ι κ)) (k : ι) :
    ((s.run schedule).callers k).instruction = (s.callers k).instruction := by
  refine run_induction (P := fun s' => (s'.callers k).instruction = (s.callers k).instruction)
    (fun s' a h => ?_) rfl schedule
  cases a with
  | call j =>
    show (Function.update s'.callers j ((s'.callers j).step s'.engine).1 k).instruction = _
    by_cases hk : k = j
    · rw [hk, Function.update_self, Caller.step_instruction, ← hk]
      exact h
    · rw [Function.update_of_ne hk]
      exact h
  | deposit j => exact h
  | openAccount details => exact h
  | amendAccount id update => exact h
  | setClock now => exact h

/-- **Books and accounts are in balance after any schedule.** -/
theorem balanced_run (e : Engine) (instructions : ι → Instruction) {faults : ι → Interference}
    (clean : ∀ k, (faults k).FailsCleanly) (deposits : κ → String × Amount)
    (schedule : List (Action ι κ)) :
    ((start e instructions faults deposits).run schedule).Balanced e :=
  run_induction (fun _ a h => h.step a) (balanced_start e instructions clean deposits) schedule

end Actions

end System

end CardHolds

import CardHolds.Proofs.Engine.Balance
import Mathlib.Algebra.BigOperators.Pi

/-!
# No lost update and no double spend

Calls and deposits write absolute quantities that they computed from what they read some time ago.
The version check makes this safe in any order of steps (`System.no_lost_update`): a successful update
changes its account by what its writer planned from its own last reading, whatever the account holds
by then; after all calls have ended, with no moves left in place, the accounts have changed by the
payments that were recorded and by the deposits; and authorizations never approve more than a customer
ever had.
-/

namespace CardHolds

open BalanceMove (effects)

/-! ## Authorizations -/

namespace BalanceMove

/-- Moves that take nothing but balance leave no account with more. -/
theorem effects_fst_nonpos {ms : List BalanceMove} (h : ∀ m ∈ ms, m.delta.1 ≤ 0) (x : AccountId) :
    (effects ms x).1 ≤ 0 := by
  induction ms with
  | nil => exact le_refl _
  | cons m rest ih =>
    have hrest : (effects rest x).1 ≤ 0 := ih fun m' hm' => h m' (List.mem_cons_of_mem _ hm')
    have hm : (m.effect x).1 ≤ 0 := by
      by_cases hx : x = m.account
      · rw [effect, hx, Pi.single_eq_same]
        exact h m List.mem_cons_self
      · rw [effect, Pi.single_eq_of_ne hx]
        exact le_refl _
    rw [effects_cons]
    exact add_nonpos hm hrest

end BalanceMove

/-- No move of an authorization adds to a balance. -/
theorem decideAuthorization_spends {request : PaymentRequest} {customer merchant : Account}
    {d : Decision} (h : decideAuthorization request customer merchant = .ok d) :
    ∀ m ∈ d.moves, m.delta.1 ≤ 0 := by
  unfold decideAuthorization at h
  split at h
  · cases h
    intro m hm
    cases hm
  split at h
  · cases h
    intro m hm
    cases hm
  obtain ⟨held, hheld, h⟩ := ok_of_bind h
  obtain ⟨customerMove, hcustomer, h⟩ := ok_of_bind h
  obtain ⟨merchantMove, hmerchant, h⟩ := ok_of_bind h
  cases h
  have hdebit := (BalanceMove.take_spec (.debitBalance request.amount) hheld).1
  have hblock := (BalanceMove.take_spec (.block request.amount) hcustomer).1
  have hmerchant := (BalanceMove.take_spec (.block request.amount) hmerchant).1
  intro m hm
  rcases List.mem_cons.mp hm with rfl | hm
  · rw [hblock, hdebit, BalanceMove.delta_on]
    simp [BalanceMove.Step.delta]
  · rw [List.mem_singleton.mp hm, hmerchant, BalanceMove.delta_on]
    simp [BalanceMove.Step.delta]

namespace Instruction
variable {request : PaymentRequest} {b : Book}

theorem Decides.spends {found : Option Payment} {d : Decision}
    (h : (authorize request).Decides found d) : ∀ m ∈ d.moves, m.delta.1 ≤ 0 := by
  obtain ⟨-, c, m, -, -, hd⟩ := h
  exact decideAuthorization_spends hd

/-- Whatever an authorization has done so far, no balance has grown by it. -/
theorem InProgress.spends (h : (authorize request).InProgress b) (x : AccountId) :
    (b.ledger.moved x).1 ≤ 0 := by
  rcases h with ⟨d, p, hd, -, -, hmoved⟩ | ⟨-, moves, hmoved, hplans⟩
  · rw [hmoved]
    exact BalanceMove.effects_fst_nonpos hd.spends x
  · rw [hmoved]
    refine BalanceMove.effects_fst_nonpos (fun m hm => ?_) x
    obtain ⟨d, hd, hsub⟩ := hplans (List.ne_nil_of_mem hm)
    exact hd.spends m (List.mem_reverse.mp (hsub.mem hm))

/-- An approved amount has been taken from the customer. -/
theorem Concludes.spends {outcome : PaymentOutcome} (h : (authorize request).Concludes (.ok outcome) b)
    (approved : outcome.status = .approved) :
    (b.ledger.moved request.customer).1 ≤ -request.amount.units := by
  rcases h with ⟨d, p, hd, ⟨name, now, rfl⟩, rfl, -, hmoved⟩ | ⟨hstatus, -⟩
  · obtain ⟨-, c, m, hc, -, hdecide⟩ := id hd
    obtain ⟨status, hrow, -⟩ := decideAuthorization_row hdecide
    have happroved : d.row.status = .approved := approved
    rw [hrow] at happroved
    have hstatus : status = .approved := happroved
    rw [hmoved, hd.effect_eq, hrow, hstatus]
    show ((Pi.single c.id (-(request.amount.units : ℤ), (request.amount.units : ℤ)) +
      Pi.single m.id ((0 : ℤ), (request.amount.units : ℤ)) : AccountId → Delta) request.customer).1 ≤ _
    rw [hc, Pi.add_apply, Pi.single_eq_same]
    have hmerchant : ((Pi.single m.id ((0 : ℤ), (request.amount.units : ℤ)) : AccountId → Delta)
        request.customer).1 = 0 := by
      by_cases hm : request.customer = m.id
      · rw [hm, Pi.single_eq_same]
      · rw [Pi.single_eq_of_ne hm]
        rfl
    rw [Prod.fst_add, hmerchant, add_zero]
  · rw [approved] at hstatus
    cases hstatus

end Instruction

/-! ## Results -/

/-- What the result of a call stands for on the accounts: the payment under its name, if the call
says that it recorded one. -/
def Engine.delta (e : Engine) : Except FlowError PaymentOutcome → AccountId → Delta
  | .ok outcome =>
    if outcome.status = .invalidTransaction then
      0
    else
      match findPayment e.log.rows outcome.paymentId with
      | .ok (some p) => p.effect
      | .ok none => 0
      | .error _ => 0
  | .error _ => 0

namespace Caller

/-- The amount that the call has approved against a customer. -/
def approved (c : Caller) (x : AccountId) : ℤ :=
  match c.instruction, c.result? with
  | .authorize request, some (.ok outcome) =>
    if outcome.status = .approved ∧ request.customer = x then request.amount.units else 0
  | _, _ => 0

/-- What an authorization has approved, it has taken. -/
theorem Kept.approved_le {c : Caller} {e : Engine} (h : c.Kept e) {request : PaymentRequest}
    (hc : c.instruction = .authorize request) (x : AccountId) :
    c.approved x ≤ -(c.book.ledger.moved x).1 := by
  have hspends : (c.book.ledger.moved x).1 ≤ 0 := (hc ▸ h.inProgress).spends x
  unfold approved
  rw [hc]
  cases hresult : c.result? with
  | none => exact neg_nonneg.mpr hspends
  | some result =>
    cases result with
    | error error => exact neg_nonneg.mpr hspends
    | ok outcome =>
      simp only
      split
      · rename_i hx
        have hconcludes := h.concludes hresult
        rw [hc] at hconcludes
        have htaken := hconcludes.spends hx.1
        rw [hx.2] at htaken
        exact le_neg.mpr htaken
      · exact neg_nonneg.mpr hspends

end Caller

/-! ## Systems -/

namespace System
variable {ι κ : Type}

/-- The action is an update of an account, planned from the given last reading of its writer and
answered as given. -/
inductive Updates (s : System ι κ) : Action ι κ → AccountId → BalanceUpdate → Option Reading →
    Except LedgerError Account → Prop
  | call {k : ι} {id : AccountId} {u : BalanceUpdate}
      {next : Except LedgerError Account → Program lifecycleCalls (Except FlowError PaymentOutcome)}
      (rest : (s.callers k).rest = .ask (.ledger (.updateBalance id u)) next) :
      s.Updates (.call k) id u ((s.callers k).book.ledger.seen id)
        (((s.callers k).execution s.engine).ledgerCall (s.callers k).faults.alone
          (.updateBalance id u)).1
  | deposit {k : κ} {plan : LedgerStore.DepositPlan} (phase : (s.depositors k).phase = .planned plan) :
      s.Updates (.deposit k) plan.account plan.update (some plan.reading)
        (s.engine.ledger.updateBalance plan.account plan.update).1

section Statements
variable [DecidableEq ι] [DecidableEq κ]

/-- Every successful update adds to its account what its writer planned from its last reading, and
changes nothing else. -/
def UpdatesExact (s : System ι κ) : Prop :=
  ∀ action id u seen a, s.Updates action id u seen (.ok a) →
    ∃ r, seen = some r ∧ (s.step action).engine.ledger.store.holdings =
      s.engine.ledger.store.holdings + Pi.single id (u.change r.held)

variable [Fintype ι] [Fintype κ]

/-- Every account holds what it held on the engine `e`, and what the results of the calls and the
deposits stand for. -/
def AccountedFor (e : Engine) (s : System ι κ) : Prop :=
  ∀ x a, s.engine.ledger.account x = .ok a →
    a.held = e.ledger.store.holdings x +
      ∑ k, ((s.callers k).result?.elim 0 s.engine.delta) x + ∑ k, (s.depositors k).credited x

/-- No customer has been approved more than the balance it had on the engine `e` and the deposits it
received. -/
def CoveredBy (e : Engine) (s : System ι κ) : Prop :=
  ∀ x, ∑ k, (s.callers k).approved x ≤
    max 0 (e.ledger.store.holdings x).1 + ∑ k, ((s.depositors k).credited x).1

end Statements

section Balanced
variable [Fintype ι] [Fintype κ] {s : System ι κ} {e : Engine}

theorem Balanced.updatesExact [DecidableEq ι] [DecidableEq κ] (h : s.Balanced e) :
    s.UpdatesExact := by
  intro action id u seen a hupdates
  generalize hanswer : (Except.ok a : Except LedgerError Account) = answer at hupdates
  cases hupdates with
  | call rest => exact (h.callers _).update_exact rest hanswer.symm
  | deposit phase => exact ⟨_, rfl, (h.depositors _).update_exact phase hanswer.symm⟩

/-- What a call has moved is what its result stands for. -/
theorem Balanced.delta_eq_moved (h : s.Balanced e) {k : ι} (ended : (s.callers k).EndedClean) :
    (s.callers k).result?.elim 0 s.engine.delta = (s.callers k).book.ledger.moved := by
  have hmoved := (h.callers k).moved_eq
  rw [(h.callers k).left_eq_zero ended, add_zero] at hmoved
  obtain ⟨result, hresult, -⟩ := ended.exists_result
  have hconcludes := (h.callers k).concludes hresult
  rw [hresult, Option.elim_some, hmoved]
  cases result with
  | ok outcome =>
    show (if outcome.status = .invalidTransaction then 0 else _) = _
    rcases hconcludes with ⟨d, p, hd, ⟨id, now, rfl⟩, rfl, hcommitted, -⟩ | ⟨hstatus, hnone, -⟩
    · have hstatus : (PaymentOutcome.ofPayment (d.row.recorded id now)).status ≠
          .invalidTransaction := hd.status_ne
      obtain ⟨row, hrow, hread⟩ := h.exists_row (hcommitted ▸ List.mem_singleton_self _)
      have hfind : findPayment s.engine.log.rows
          (PaymentOutcome.ofPayment (d.row.recorded id now)).paymentId =
            .ok (some (d.row.recorded id now)) := findPayment_of_mem hrow hread
      rw [if_neg hstatus, hfind, hcommitted, List.map_singleton, List.sum_singleton]
    · rw [if_pos hstatus, hnone]
      rfl
  | error error =>
    rw [hconcludes.1]
    rfl

theorem Balanced.accountedFor (h : s.Balanced e) (ended : ∀ k, (s.callers k).EndedClean) :
    s.AccountedFor e := by
  intro x a ha
  have hcalls : ∑ k, (s.callers k).result?.elim 0 s.engine.delta =
      ∑ k, (s.callers k).book.ledger.moved :=
    Finset.sum_congr rfl fun k _ => h.delta_eq_moved (ended k)
  rw [(h.accounts x).of_account rfl ha, moved, ← hcalls, Pi.add_apply, Pi.add_apply, Finset.sum_apply,
    Finset.sum_apply, add_assoc]

/-- What was approved was taken, and a balance that anything was taken from is not below zero. -/
theorem Balanced.coveredBy (h : s.Balanced e)
    (authorizes : ∀ k, ∃ request, (s.callers k).instruction = .authorize request) :
    s.CoveredBy e := by
  intro x
  have happroved : ∑ k, (s.callers k).approved x ≤
      -(∑ k, (s.callers k).book.ledger.moved x).1 := by
    rw [Prod.fst_sum, ← Finset.sum_neg_distrib]
    refine Finset.sum_le_sum fun k _ => ?_
    obtain ⟨request, hrequest⟩ := authorizes k
    exact (h.callers k).approved_le hrequest x
  have hmoved : (s.moved x).1 = (∑ k, (s.callers k).book.ledger.moved x).1 +
      ∑ k, ((s.depositors k).credited x).1 := by
    rw [moved, Pi.add_apply, Finset.sum_apply, Finset.sum_apply, Prod.fst_add, ← Prod.fst_sum]
  rcases (h.accounts x).solvent with hsame | hsolvent
  · -- nothing was taken on the whole
    have hzero : s.moved x = 0 := by
      have hsum : e.ledger.store.holdings x + s.moved x = e.ledger.store.holdings x := hsame
      exact add_eq_left.mp hsum
    rw [hzero] at hmoved
    have hfst : (0 : ℤ) = _ := hmoved
    have := le_max_left 0 (e.ledger.store.holdings x).1
    omega
  · have hsum : 0 ≤ (e.ledger.store.holdings x).1 + (s.moved x).1 := hsolvent
    have := le_max_right 0 (e.ledger.store.holdings x).1
    omega

end Balanced

section Runs
variable [DecidableEq ι] [DecidableEq κ] [Fintype ι] [Fintype κ]

/-- **No lost update and no double spend**, for any calls and deposits in any order of their steps. -/
theorem no_lost_update (e : Engine) (instructions : ι → Instruction) {faults : ι → Interference}
    (clean : ∀ k, (faults k).FailsCleanly) (deposits : κ → String × Amount)
    (schedule : List (Action ι κ)) :
    let s := (start e instructions faults deposits).run schedule
    s.UpdatesExact ∧ ((∀ k, (s.callers k).EndedClean) → s.AccountedFor e) ∧
      ((∀ k, ∃ request, instructions k = .authorize request) → s.CoveredBy e) := by
  have hbalanced := balanced_run e instructions clean deposits schedule
  refine ⟨hbalanced.updatesExact, hbalanced.accountedFor, fun authorizes => ?_⟩
  refine hbalanced.coveredBy fun k => ?_
  rw [instruction_run]
  exact authorizes k

end Runs

end System

/-! ## Two authorizations for the same money -/

namespace Contest

open Sample

/-- Sixty units, twice. -/
def instruction (_ : Fin 2) : Instruction :=
  .authorize (request (units 60))

/-- Nothing goes wrong but that both write at the same time. -/
def faults (_ : Fin 2) : Interference := .ofFaults []

/-- Fifteen units more come in meanwhile. -/
def deposit (_ : Fin 1) : String × Amount := (card.number, units 15)

/-- Step by step in turn. -/
def schedule : List (Action (Fin 2) (Fin 1)) :=
  (List.replicate 21 [.call 0, .call 1, .deposit 0]).flatten

def after : System (Fin 2) (Fin 1) := (System.start engine instruction faults deposit).run schedule

/-- One of them is approved. -/
theorem no_lost_update_contest :
    (∀ k, (faults k).FailsCleanly) ∧ after.UpdatesExact ∧ after.AccountedFor engine ∧
      after.CoveredBy engine ∧ after.engine.ledger.store.holdings customer = (55, 60) ∧
      ∑ k, (after.callers k).approved customer = 60 := by
  have clean : ∀ k, (faults k).FailsCleanly := fun _ =>
    Interference.failsCleanly_ofFaults fun _ hf => absurd hf List.not_mem_nil
  obtain ⟨updates, accounted, covered⟩ :=
    System.no_lost_update engine instruction clean deposit schedule
  have ended : ∀ k, (after.callers k).EndedClean := by decide +kernel
  exact ⟨clean, updates, accounted ended, covered fun k => ⟨_, rfl⟩, by decide +kernel,
    by decide +kernel⟩

end Contest

end CardHolds

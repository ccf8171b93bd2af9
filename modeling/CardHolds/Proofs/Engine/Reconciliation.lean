import CardHolds.Proofs.Engine.Balance
import CardHolds.Proofs.Lifecycle.Totals
import Mathlib.Algebra.BigOperators.Pi
import Mathlib.Algebra.BigOperators.Ring.Finset
import Mathlib.Algebra.BigOperators.Ring.List

/-!
# Accounts and payment log reconcile

In a system that was started without accounts and payments, both quantities of every account are
sums over the payment log, once all calls have ended and none has left a move in place
(`System.accounts_reconcile`).  What has been moved without a payment that stands for it is kept apart
(`System.left`), so that the accounts can be explained at any time (`System.Balanced.held_eq`).

All balances counted twice, and all blocked money, add up to twice what was deposited.
-/

namespace CardHolds

open PaymentRow (ReadAs)

/-! ## What a change is worth -/

/-- A change on all accounts adds up to `n`, with balances counted twice. -/
def Worth (f : AccountId → Delta) (n : ℤ) : Prop :=
  ∃ S₀ : Finset AccountId, ∀ S, S₀ ⊆ S → ∑ x ∈ S, (2 * (f x).1 + (f x).2) = n

section Worth
variable {f g : AccountId → Delta} {n m : ℤ}

theorem worth_zero : Worth 0 0 := ⟨∅, fun _ _ => Finset.sum_const_zero⟩

theorem worth_single (x : AccountId) (d : Delta) : Worth (Pi.single x d) (2 * d.1 + d.2) := by
  refine ⟨{x}, fun S hS => ?_⟩
  have hx : x ∈ S := hS (Finset.mem_singleton_self x)
  rw [Finset.sum_eq_single_of_mem x hx, Pi.single_eq_same]
  intro y _ hy
  rw [Pi.single_eq_of_ne hy]
  rfl

theorem Worth.add (hf : Worth f n) (hg : Worth g m) : Worth (f + g) (n + m) := by
  obtain ⟨S, hS⟩ := hf
  obtain ⟨T, hT⟩ := hg
  refine ⟨S ∪ T, fun U hU => ?_⟩
  rw [← hS U (Finset.union_subset_left hU), ← hT U (Finset.union_subset_right hU),
    ← Finset.sum_add_distrib]
  refine Finset.sum_congr rfl fun x _ => ?_
  rw [Pi.add_apply, Prod.fst_add, Prod.snd_add]
  omega

theorem worth_sum {ι : Type} {f : ι → AccountId → Delta} {n : ι → ℤ} (s : Finset ι)
    (h : ∀ k, Worth (f k) (n k)) : Worth (∑ k ∈ s, f k) (∑ k ∈ s, n k) := by
  classical
  induction s using Finset.induction_on with
  | empty => exact worth_zero
  | insert k s hk ih =>
    rw [Finset.sum_insert hk, Finset.sum_insert hk]
    exact (h k).add ih

/-- What is worth `n` adds up to it over all accounts on which it changes anything. -/
theorem Worth.sum_eq (h : Worth f n) {S : Finset AccountId} (hS : ∀ x, x ∉ S → f x = 0) :
    ∑ x ∈ S, (2 * (f x).1 + (f x).2) = n := by
  obtain ⟨S₀, hS₀⟩ := h
  rw [← hS₀ (S₀ ∪ S) Finset.subset_union_left]
  refine Finset.sum_subset Finset.subset_union_right fun x _ hx => ?_
  rw [hS x hx]
  rfl

/-- No payment is worth anything: what it takes out of a balance it blocks twice. -/
theorem worth_effect (p : Payment) : Worth p.effect 0 := by
  have hworth := (worth_single p.customer (p.status.settlement p.amount.units).1).add
    (worth_single p.merchant (p.status.settlement p.amount.units).2)
  have hzero : 2 * (p.status.settlement p.amount.units).1.1 +
      (p.status.settlement p.amount.units).1.2 +
        (2 * (p.status.settlement p.amount.units).2.1 + (p.status.settlement p.amount.units).2.2) =
      0 := by
    cases p.status <;> simp only [PaymentStatus.settlement, Prod.fst_zero, Prod.snd_zero] <;> omega
  exact hzero ▸ hworth

theorem worth_effects (ps : List Payment) : Worth (ps.map Payment.effect).sum 0 := by
  induction ps with
  | nil => exact worth_zero
  | cons p rest ih => exact (worth_effect p).add ih

end Worth

/-- What a deposit has brought in. -/
def Depositor.deposited (d : Depositor) : ℤ :=
  match d.phase with
  | .ended (.ok _) => d.amount.units
  | .ended (.error _) => 0
  | .planned _ => 0
  | .due => 0

theorem Depositor.credited_snd (d : Depositor) (x : AccountId) : (d.credited x).2 = 0 := by
  unfold credited
  cases d.phase with
  | due => rfl
  | planned plan => rfl
  | ended result =>
    cases result with
    | error error => rfl
    | ok account =>
      by_cases hx : x = account.id
      · rw [DepositPhase.credits, hx, Pi.single_eq_same]
      · rw [DepositPhase.credits, Pi.single_eq_of_ne hx]
        rfl

theorem Depositor.worth_credited (d : Depositor) : Worth d.credited (2 * d.deposited) := by
  unfold credited deposited
  cases d.phase with
  | due => exact worth_zero
  | planned plan => exact worth_zero
  | ended result =>
    cases result with
    | error error => exact worth_zero
    | ok account =>
      have hworth := worth_single account.id ((d.amount.units : ℤ), 0)
      rw [add_zero] at hworth
      exact hworth

/-! ## Systems -/

/-- Nobody has an account, and no payment is recorded. -/
structure Engine.Fresh (e : Engine) : Prop where
  accounts : e.ledger.store.accounts.rows = []
  payments : e.log.rows.rows = []

theorem Engine.Fresh.holdings_eq {e : Engine} (h : e.Fresh) : e.ledger.store.holdings = 0 := by
  funext x
  rw [LedgerStore.holdings, Table.find?, h.accounts]
  rfl

namespace System
variable {ι κ : Type} [Fintype ι] [Fintype κ] {s : System ι κ} {e : Engine}

/-- What all calls together have moved without a payment that stands for it. -/
def left (s : System ι κ) : AccountId → Delta := ∑ k, (s.callers k).left

omit [Fintype κ] in
/-- A sum over the log is a sum over what the calls have recorded. -/
theorem sum_map_committed {M : Type} [AddCommMonoid M] {ps : List Payment}
    (hps : (ps : Multiset Payment) = s.committed) (f : Payment → M) :
    (ps.map f).sum = ∑ k, ((s.callers k).book.log.committed.map f).sum := by
  have hsum := map_sum (Multiset.sumAddMonoidHom.comp (Multiset.mapAddMonoidHom f))
    (fun k => ((s.callers k).book.log.committed : Multiset Payment)) Finset.univ
  have hps : (Multiset.map f ps).sum = _ := congrArg (fun m => (Multiset.map f m).sum) hps
  exact hps.trans hsum

/-- What all calls have moved is what the recorded payments stand for, or it is left in place. -/
theorem Balanced.sum_moved_eq (h : s.Balanced e) {ps : List Payment}
    (hps : (ps : Multiset Payment) = s.committed) :
    ∑ k, (s.callers k).book.ledger.moved = (ps.map Payment.effect).sum + s.left := by
  rw [sum_map_committed hps, left, ← Finset.sum_add_distrib]
  exact Finset.sum_congr rfl fun k _ => (h.callers k).moved_eq

/-! ## The log -/

/-- Every payment of the log was recorded by the rules. -/
def LogRegular (s : System ι κ) : Prop :=
  ∀ row ∈ s.engine.log.rows.rows, ∀ p, row.read = .ok p → p.Regular

section Actions
variable [DecidableEq ι] [DecidableEq κ]

theorem LogRegular.call (h : s.LogRegular) (balanced : s.Balanced e) (k : ι) :
    (s.step (.call k)).LogRegular := by
  obtain ⟨hkept, -, hgrows⟩ := (balanced.callers k).step (balanced.clean k).commits
  obtain ⟨ps, rows, hbook, hrows, hread⟩ := hgrows.committed
  -- what the call refers to was in the log before it recorded anything
  have hfound : ∀ q, ((s.callers k).step s.engine).1.book.log.found = some q → q.Regular := by
    intro q hq
    rcases hgrows.found with hsame | ⟨-, hnew⟩
    · obtain ⟨row, hrow, hq⟩ := balanced.found k q (hsame ▸ hq)
      exact h row hrow q hq
    · obtain ⟨row, hrow, hq⟩ := hnew q hq
      exact h row hrow q hq
  intro row hrow p hp
  have hrow : row ∈ ((s.callers k).step s.engine).2.log.rows.rows := hrow
  rw [hrows] at hrow
  rcases List.mem_append.mp hrow with hold | hnew
  · exact h row hold p hp
  · have hmem : p ∈ ((s.callers k).step s.engine).1.book.log.committed := by
      rw [hbook]
      exact List.mem_append_right _ (hread.mem_of_read hnew hp)
    rcases hkept.inProgress with ⟨d, p', hd, ⟨id, now, rfl⟩, hcommitted, -⟩ | ⟨hnone, -⟩
    · rw [hcommitted] at hmem
      rw [List.mem_singleton.mp hmem]
      exact hd.regular hfound id now
    · rw [hnone] at hmem
      cases hmem

theorem LogRegular.step (h : s.LogRegular) (balanced : s.Balanced e) (a : Action ι κ) :
    (s.step a).LogRegular := by
  cases a with
  | call k => exact h.call balanced k
  | deposit k =>
    intro row hrow
    have hlog : (s.step (.deposit k)).engine.log = s.engine.log := (balanced.depositors k).step.2.2
    rw [hlog] at hrow
    exact h row hrow
  | openAccount details => exact h
  | amendAccount id update => exact h
  | setClock now => exact h

/-- **Whatever is recorded is recorded by the rules.** -/
theorem logRegular_run (fresh : e.Fresh) (instructions : ι → Instruction) {faults : ι → Interference}
    (clean : ∀ k, (faults k).FailsCleanly) (deposits : κ → String × Amount)
    (schedule : List (Action ι κ)) :
    ((start e instructions faults deposits).run schedule).LogRegular := by
  have hboth := run_induction (P := fun s : System ι κ => s.Balanced e ∧ s.LogRegular)
    (fun s a h => ⟨h.1.step a, h.2.step h.1 a⟩)
    ⟨balanced_start e instructions clean deposits, fun row hrow => ?_⟩ schedule
  · exact hboth.2
  · have hnone : row ∈ e.log.rows.rows := hrow
    rw [fresh.payments] at hnone
    cases hnone

end Actions

/-- The log of a system, read. -/
structure Logged (s : System ι κ) (ps : List Payment) : Prop where
  read : ReadAs s.engine.log.rows.rows ps
  committed : (ps : Multiset Payment) = s.committed
  regular : ∀ p ∈ ps, p.Regular

theorem Balanced.exists_logged (h : s.Balanced e) (fresh : e.Fresh) (regular : s.LogRegular) :
    ∃ ps, s.Logged ps := by
  obtain ⟨rows, ps, hrows, hread, hps⟩ := h.log
  rw [fresh.payments, List.nil_append] at hrows
  refine ⟨ps, hrows ▸ hread, hps, fun p hp => ?_⟩
  obtain ⟨row, hrow, hp⟩ := hread.exists_row hp
  exact regular row (hrows ▸ hrow) p hp

/-! ## The accounts -/

section Accounts
variable {ps : List Payment} {x : AccountId} {a : Account}

/-- The accounts as the log explains them. -/
theorem Balanced.held_eq (h : s.Balanced e) (fresh : e.Fresh) (logged : s.Logged ps)
    (ha : s.engine.ledger.account x = .ok a) :
    a.held = (recordedBalance ps x, recordedBlocked ps x) + s.left x +
      ∑ k, (s.depositors k).credited x := by
  have hsum : (ps.map Payment.effect).sum x = (ps.map fun p => p.effect x).sum := by
    rw [Pi.list_sum_apply, List.map_map]
    rfl
  rw [(h.accounts x).of_account rfl ha, fresh.holdings_eq, zero_add, moved,
    h.sum_moved_eq logged.committed, Pi.add_apply, Pi.add_apply, Finset.sum_apply, hsum,
    sum_effect logged.regular]

theorem Balanced.balance_eq (h : s.Balanced e) (fresh : e.Fresh) (logged : s.Logged ps)
    (ha : s.engine.ledger.account x = .ok a) :
    (a.balance.units : ℤ) =
      ∑ k, ((s.depositors k).credited x).1 + recordedBalance ps x + (s.left x).1 := by
  have hfst : (a.balance.units : ℤ) = _ := congrArg Prod.fst (h.held_eq fresh logged ha)
  rw [hfst, Prod.fst_add, Prod.fst_add, Prod.fst_sum]
  omega

theorem Balanced.blocked_eq (h : s.Balanced e) (fresh : e.Fresh) (logged : s.Logged ps)
    (ha : s.engine.ledger.account x = .ok a) :
    (a.blocked.units : ℤ) = recordedBlocked ps x + (s.left x).2 := by
  have hsnd : (a.blocked.units : ℤ) = _ := congrArg Prod.snd (h.held_eq fresh logged ha)
  have hzero : ∑ k, ((s.depositors k).credited x).2 = 0 :=
    Finset.sum_eq_zero fun k _ => (s.depositors k).credited_snd x
  rw [hsnd, Prod.snd_add, Prod.snd_add, Prod.snd_sum, hzero, add_zero]

end Accounts

/-! ## Reconciliation -/

/-- The accounts are what the payments and the deposits make of them. -/
structure Reconciled (s : System ι κ) (ps : List Payment) : Prop where
  balance : ∀ x a, s.engine.ledger.account x = .ok a →
    (a.balance.units : ℤ) = ∑ k, ((s.depositors k).credited x).1 + recordedBalance ps x
  blocked : ∀ x a, s.engine.ledger.account x = .ok a →
    (a.blocked.units : ℤ) = recordedBlocked ps x
  total : ∀ accounts : List Account,
    (s.engine.ledger.store.accounts.rows.map fun row => s.engine.ledger.account row.id) =
        accounts.map .ok →
      2 * (accounts.map fun a => (a.balance.units : ℤ)).sum +
        (accounts.map fun a => (a.blocked.units : ℤ)).sum = 2 * ∑ k, (s.depositors k).deposited

/-- What was moved altogether is worth what was deposited. -/
theorem Balanced.worth_moved (h : s.Balanced e) (ended : ∀ k, (s.callers k).EndedClean) :
    Worth s.moved (2 * ∑ k, (s.depositors k).deposited) := by
  have hcalls : Worth (∑ k, (s.callers k).book.ledger.moved) (∑ _k : ι, 0) := by
    refine worth_sum Finset.univ fun k => ?_
    rw [(h.callers k).moved_eq, (h.callers k).left_eq_zero (ended k), add_zero]
    exact worth_effects _
  have hdeposits : Worth (∑ k, (s.depositors k).credited)
      (∑ k, 2 * (s.depositors k).deposited) :=
    worth_sum Finset.univ fun k => (s.depositors k).worth_credited
  have hboth := hcalls.add hdeposits
  rw [Finset.sum_const_zero, zero_add, ← Finset.mul_sum] at hboth
  exact hboth

/-- What the accounts hold that can all be read is what was moved altogether. -/
theorem Balanced.sum_accounts (h : s.Balanced e) (fresh : e.Fresh) {accounts : List Account}
    (hread : (s.engine.ledger.store.accounts.rows.map fun row => s.engine.ledger.account row.id) =
      accounts.map .ok) :
    (accounts.map fun a => 2 * (a.balance.units : ℤ) + a.blocked.units).sum =
      ∑ x ∈ (s.engine.ledger.store.accounts.rows.map AccountRow.id).toFinset,
        (2 * (s.moved x).1 + (s.moved x).2) := by
  have hheld : (accounts.map fun a => 2 * (a.balance.units : ℤ) + a.blocked.units) =
      s.engine.ledger.store.accounts.rows.map fun row =>
        2 * (s.moved row.id).1 + (s.moved row.id).2 := by
    refine map_eq_map_of_ok hread fun row a ha => ?_
    have hmoved : a.held = s.moved row.id := by
      have htally := (h.accounts row.id).of_account rfl ha
      rwa [fresh.holdings_eq, zero_add] at htally
    rw [← hmoved]
    rfl
  rw [hheld, List.sum_toFinset _ s.engine.ledger.store.accounts.nodup_keys, List.map_map]
  rfl

theorem Balanced.reconciled (h : s.Balanced e) (fresh : e.Fresh) {ps : List Payment}
    (logged : s.Logged ps) (ended : ∀ k, (s.callers k).EndedClean) : s.Reconciled ps := by
  have hleft : ∀ x, s.left x = 0 := by
    have hnone : s.left = 0 := Finset.sum_eq_zero fun k _ => (h.callers k).left_eq_zero (ended k)
    exact congrFun hnone
  constructor
  · intro x a ha
    rw [h.balance_eq fresh logged ha, hleft, Prod.fst_zero, add_zero]
  · intro x a ha
    rw [h.blocked_eq fresh logged ha, hleft, Prod.snd_zero, add_zero]
  · intro accounts haccounts
    have hworth := (h.worth_moved ended).sum_eq (S :=
      (s.engine.ledger.store.accounts.rows.map AccountRow.id).toFinset) fun x hx => ?_
    · rw [← hworth, ← h.sum_accounts fresh haccounts, List.sum_map_add, List.sum_map_mul_left]
    · -- what was moved on an account that does not exist adds up to nothing
      have hnone : s.engine.ledger.store.accounts.find? x = none :=
        Table.find?_eq_none_iff.mpr fun hmem => hx (List.mem_toFinset.mpr hmem)
      have hunknown := (h.accounts x).unknown hnone
      rwa [fresh.holdings_eq, zero_add] at hunknown

section Runs
variable [DecidableEq ι] [DecidableEq κ]

/-- **The balances are a fold of the payment log**, once all calls have ended and none has left a move
in place. -/
theorem accounts_reconcile (fresh : e.Fresh) (instructions : ι → Instruction) {faults : ι → Interference}
    (clean : ∀ k, (faults k).FailsCleanly) (deposits : κ → String × Amount)
    (schedule : List (Action ι κ)) :
    let s := (start e instructions faults deposits).run schedule
    (∀ k, (s.callers k).EndedClean) →
      ∃ ps, ReadAs s.engine.log.rows.rows ps ∧ s.Reconciled ps := by
  intro s ended
  have hbalanced : s.Balanced e := balanced_run e instructions clean deposits schedule
  have hregular : s.LogRegular := logRegular_run fresh instructions clean deposits schedule
  obtain ⟨ps, logged⟩ := hbalanced.exists_logged fresh hregular
  exact ⟨ps, logged.read, hbalanced.reconciled fresh logged ended⟩

end Runs

end System

/-! ## A hold and a capture -/

namespace PartialCapture

open Sample

/-- A hold of sixty units, a capture of twenty-five of them, and a capture that finds no statement
stream. -/
def instruction (k : Fin 3) : Instruction :=
  match k with
  | 0 => .authorize (request (units 60))
  | 1 => .react .capture (Mint.unary.paymentId 0) (units 25)
  | 2 => .react .capture (Mint.unary.paymentId 0) (units 5)

def faults (k : Fin 3) : Interference :=
  match k with
  | 0 => .ofFaults []
  | 1 => .ofFaults []
  | 2 => .ofFaults [{ site := .openStream, instead := some (.ledger (.streamClosed "gone")) }]

def deposit (_ : Fin 1) : String × Amount := (card.number, units 100)

/-- One after the other. -/
def schedule : List (Action (Fin 3) (Fin 1)) :=
  [.openAccount customerDetails, .openAccount merchantDetails] ++
    (List.finRange 1).flatMap (fun k => List.replicate 2 (.deposit k)) ++
    (List.finRange 3).flatMap fun k => List.replicate 20 (.call k)

def after : System (Fin 3) (Fin 1) :=
  (System.start { mint := .unary } instruction faults deposit).run schedule

theorem accounts_reconcile_partialCapture :
    ({ mint := .unary } : Engine).Fresh ∧ (∀ k, (faults k).FailsCleanly) ∧
      (∀ k, (after.callers k).EndedClean) ∧
      (∃ ps, ReadAs after.engine.log.rows.rows ps ∧ after.Reconciled ps) ∧
      after.engine.ledger.store.holdings customer = (40, 35) ∧
      after.engine.ledger.store.holdings merchant = (25, 35) := by
  have fresh : ({ mint := .unary } : Engine).Fresh := ⟨rfl, rfl⟩
  have clean : ∀ k, (faults k).FailsCleanly := by
    intro k
    match k with
    | 0 => exact Interference.failsCleanly_ofFaults (by decide)
    | 1 => exact Interference.failsCleanly_ofFaults (by decide)
    | 2 => exact Interference.failsCleanly_ofFaults (by decide)
  have ended : ∀ k, (after.callers k).EndedClean := by decide +kernel
  refine ⟨fresh, clean, ended, ?_, by decide +kernel, by decide +kernel⟩
  unfold after at ended ⊢
  exact System.accounts_reconcile fresh instruction clean deposit schedule ended

end PartialCapture

/-! ## An update that is not answered -/

namespace UnansweredUpdate

open Sample

def instruction (_ : Fin 1) : Instruction :=
  .authorize (request (units 40))

/-- The hold on the customer is written, but the answer is an error. -/
def faults (_ : Fin 1) : Interference := .ofFaults
  [{ site := .updateBalance, account := some customer,
     replacing := some (.ledger (.streamClosed "gone")) }]

def deposit (_ : Fin 1) : String × Amount := (card.number, units 100)

def schedule : List (Action (Fin 1) (Fin 1)) :=
  [.openAccount customerDetails, .openAccount merchantDetails] ++
    (List.finRange 1).flatMap (fun k => List.replicate 2 (.deposit k)) ++
    (List.finRange 1).flatMap fun k => List.replicate 20 (.call k)

def after : System (Fin 1) (Fin 1) :=
  (System.start { mint := .unary } instruction faults deposit).run schedule

/-- The call ends with an error that reports no moves, nothing is recorded, and the hold stays. -/
theorem not_reconciled :
    ({ mint := .unary } : Engine).Fresh ∧ (∀ k, (after.callers k).EndedClean) ∧
      after.engine.log.rows.rows = [] ∧
      ¬ ∃ ps, ReadAs after.engine.log.rows.rows ps ∧ after.Reconciled ps := by
  have fresh : ({ mint := .unary } : Engine).Fresh := ⟨rfl, rfl⟩
  have ended : ∀ k, (after.callers k).EndedClean := by decide +kernel
  have hlog : after.engine.log.rows.rows = [] := by decide +kernel
  refine ⟨fresh, ended, hlog, ?_⟩
  rintro ⟨ps, hread, hreconciled⟩
  rw [hlog] at hread
  have hnone : ps = [] := List.map_eq_nil_iff.mp hread.symm
  have hblocked : (after.engine.ledger.account customer).map (fun a => a.blocked.units) = .ok 40 := by
    decide +kernel
  cases ha : after.engine.ledger.account customer with
  | error error =>
    rw [ha] at hblocked
    cases hblocked
  | ok a =>
    rw [ha] at hblocked
    have hunits : a.blocked.units = 40 := Except.ok.inj hblocked
    have hzero := hreconciled.blocked customer a ha
    rw [hnone, hunits] at hzero
    exact absurd hzero (by decide)

end UnansweredUpdate

end CardHolds

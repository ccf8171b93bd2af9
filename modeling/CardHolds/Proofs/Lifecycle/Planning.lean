import CardHolds.Proofs.Lifecycle.Overflow
import Mathlib.Data.List.Find

/-!
# The quantities that a call plans

A decision that moves money plans two quantities of the customer and two of the merchant, in this
order, each of them what the account holds plus what the status of the row settles (`planned`).

Plans are made in unsigned 64 bit numbers.  A plan is possible just if all its quantities are such
numbers, and the first that is none is what it fails on (`decideAuthorization_transfers`,
`Reaction.decide_transfers`).  From accounts that can be stored no quantity goes beyond these numbers,
so there a plan fails only on a quantity below zero (`decideAuthorization_settles`,
`Reaction.decide_settles`).
-/

namespace CardHolds

/-- The integers that are amounts of money. -/
def IsAmount (n : ℤ) : Prop := 0 ≤ n ∧ n ≤ 2 ^ 64 - 1

instance (n : ℤ) : Decidable (IsAmount n) := inferInstanceAs (Decidable (_ ∧ _))

theorem Amount.isAmount_units (a : Amount) : IsAmount a.units := by
  have hlt : a.units < 2 ^ 64 := a.units_lt
  exact ⟨Int.natCast_nonneg _, by omega⟩

/-- One quantity of a change. -/
def Quantity.of : Quantity → Delta → ℤ
  | .balance, d => d.1
  | .blocked, d => d.2

theorem Account.isAmount_held (a : Account) (q : Quantity) : IsAmount (q.of a.held) := by
  cases q with
  | balance => exact a.balance.isAmount_units
  | blocked => exact a.blocked.isAmount_units

/-- A quantity of an account as a call plans it; it may be one that no account can hold. -/
structure Planned where
  account : AccountId
  quantity : Quantity
  value : ℤ
deriving DecidableEq

/-- The error of a plan that a quantity makes impossible. -/
def Planned.error (p : Planned) (amount : Amount) : MoveError :=
  if p.value < 0 then .underflow p.account p.quantity amount
  else .overflow p.account p.quantity amount

/-- Both quantities of an account, as a change to it plans them. -/
def Account.planned (a : Account) (change : Delta) : List Planned :=
  [⟨a.id, .balance, (a.held + change).1⟩, ⟨a.id, .blocked, (a.held + change).2⟩]

/-- What a row that settles money plans for its accounts, in the order of the planning. -/
def planned (customer merchant : Account) (row : NewPayment) : List Planned :=
  customer.planned (row.status.settlement row.amount.units).1 ++
    merchant.planned (row.status.settlement row.amount.units).2

/-- The first planned quantity that is no amount. -/
def outOfRange? (ps : List Planned) : Option Planned := ps.find? fun p => decide (¬ IsAmount p.value)

/-- The first planned quantity that is below zero. -/
def belowZero? (ps : List Planned) : Option Planned := ps.find? fun p => decide (p.value < 0)

theorem mem_of_belowZero? {ps : List Planned} {p : Planned} (h : belowZero? ps = some p) :
    p ∈ ps ∧ p.value < 0 := by
  unfold belowZero? at h
  exact ⟨List.mem_of_find?_eq_some h, by simpa using List.find?_some h⟩

/-- The first planned quantity that no store can hold. -/
def tooLarge? (ps : List Planned) : Option Planned := ps.find? fun p => decide (2 ^ 63 ≤ p.value)

/-! ## Steps -/

namespace BalanceMove

/-- The quantity that a step changes. -/
def Step.quantity : Step → Quantity
  | .creditBalance _ | .debitBalance _ => .balance
  | .block _ | .release _ => .blocked

/-- The amount of a step. -/
def Step.amount : Step → Amount
  | .creditBalance a | .debitBalance a | .block a | .release a => a

variable {m : BalanceMove} {a : Account}

/-- The planned quantities are what the account holds and the change. -/
theorem PlannedOn.held_add_delta (h : m.PlannedOn a) :
    a.held + m.delta = (↑m.newBalance.units, ↑m.newBlocked.units) := by
  rw [← h.heldBefore]
  exact Prod.ext (add_sub_cancel _ _) (add_sub_cancel _ _)

/-- Why a step is impossible: its sum is beyond the amounts, or its difference below zero. -/
theorem PlannedOn.of_take_error (hp : m.PlannedOn a) {s : Step} {e : MoveError}
    (htake : m.take s = .error e) :
    2 ^ 64 ≤ s.quantity.of (a.held + (m.delta + s.delta)) ∧
        e = .overflow a.id s.quantity s.amount ∨
      s.quantity.of (a.held + (m.delta + s.delta)) < 0 ∧
        e = .underflow a.id s.quantity s.amount := by
  rw [← add_assoc, hp.held_add_delta, ← hp.account]
  cases s with
  | creditBalance x =>
    simp only [take, creditBalance] at htake
    split at htake
    · cases htake
    · rename_i hsum
      have hlarge := Amount.add?_eq_none_iff.mp hsum
      cases htake
      refine Or.inl ⟨?_, rfl⟩
      show 2 ^ 64 ≤ (m.newBalance.units : ℤ) + x.units
      omega
  | debitBalance x =>
    simp only [take, debitBalance] at htake
    split at htake
    · cases htake
    · rename_i hdiff
      have hsmall := Amount.sub?_eq_none_iff.mp hdiff
      cases htake
      refine Or.inr ⟨?_, rfl⟩
      show (m.newBalance.units : ℤ) + -x.units < 0
      omega
  | block x =>
    simp only [take, block] at htake
    split at htake
    · cases htake
    · rename_i hsum
      have hlarge := Amount.add?_eq_none_iff.mp hsum
      cases htake
      refine Or.inl ⟨?_, rfl⟩
      show 2 ^ 64 ≤ (m.newBlocked.units : ℤ) + x.units
      omega
  | release x =>
    simp only [take, release] at htake
    split at htake
    · cases htake
    · rename_i hdiff
      have hsmall := Amount.sub?_eq_none_iff.mp hdiff
      cases htake
      refine Or.inr ⟨?_, rfl⟩
      show (m.newBlocked.units : ℤ) + -x.units < 0
      omega

/-- A step is possible just if it leads to an amount. -/
theorem take_cases (hp : m.PlannedOn a) (s : Step) {value : ℤ}
    (hvalue : s.quantity.of (a.held + (m.delta + s.delta)) = value) :
    (¬ IsAmount value ∧
        m.take s = .error (Planned.error ⟨a.id, s.quantity, value⟩ s.amount)) ∨
      IsAmount value ∧
        ∃ m', m.take s = .ok m' ∧ m'.PlannedOn a ∧ m'.delta = m.delta + s.delta := by
  cases htake : m.take s with
  | ok m' =>
    obtain ⟨hdelta, hplanned⟩ := take_spec s htake
    refine Or.inr ⟨?_, m', rfl, hplanned a hp, hdelta⟩
    rw [← hvalue, ← hdelta, (hplanned a hp).held_add_delta]
    cases s.quantity <;> exact Amount.isAmount_units _
  | error e =>
    have herror := hp.of_take_error htake
    rw [hvalue] at herror
    refine Or.inl ?_
    rcases herror with ⟨hlarge, rfl⟩ | ⟨hneg, rfl⟩
    · refine ⟨fun h => by have := h.2; omega, ?_⟩
      rw [Planned.error, if_neg (show ¬ value < 0 by omega)]
    · refine ⟨fun h => absurd h.1 (not_le.mpr hneg), ?_⟩
      rw [Planned.error, if_pos hneg]

end BalanceMove

/-! ## Moves -/

/-- A move that is to change an account: it fails on the first planned quantity that is no amount, or
there is none and it plans the change. -/
inductive Arranges (a : Account) (change : Delta) (amount : Amount) :
    Except MoveError BalanceMove → Prop
  | impossible {p : Planned} (first : outOfRange? (a.planned change) = some p) :
      Arranges a change amount (.error (p.error amount))
  | possible {m : BalanceMove} (none_out : outOfRange? (a.planned change) = none)
      (planned : m.PlannedOn a) (delta : m.delta = change) : Arranges a change amount (.ok m)

/-- The first quantity of an account with a property. -/
theorem Account.find?_planned (a : Account) (change : Delta) (f : ℤ → Prop) [DecidablePred f] :
    (a.planned change).find? (fun p => decide (f p.value)) =
      if f (a.held + change).1 then some ⟨a.id, .balance, (a.held + change).1⟩
      else if f (a.held + change).2 then some ⟨a.id, .blocked, (a.held + change).2⟩
      else none := by
  rw [planned, List.find?_cons, List.find?_cons, List.find?_nil]
  by_cases h₁ : f (a.held + change).1
  · rw [if_pos h₁, decide_eq_true h₁]
  · rw [if_neg h₁, decide_eq_false h₁]
    by_cases h₂ : f (a.held + change).2
    · rw [if_pos h₂, decide_eq_true h₂]
    · rw [if_neg h₂, decide_eq_false h₂]

theorem outOfRange?_planned (a : Account) (change : Delta) : outOfRange? (a.planned change) =
    if ¬ IsAmount (a.held + change).1 then some ⟨a.id, .balance, (a.held + change).1⟩
    else if ¬ IsAmount (a.held + change).2 then some ⟨a.id, .blocked, (a.held + change).2⟩
    else none :=
  a.find?_planned change (¬ IsAmount ·)

theorem tooLarge?_planned (a : Account) (change : Delta) : tooLarge? (a.planned change) =
    if 2 ^ 63 ≤ (a.held + change).1 then some ⟨a.id, .balance, (a.held + change).1⟩
    else if 2 ^ 63 ≤ (a.held + change).2 then some ⟨a.id, .blocked, (a.held + change).2⟩
    else none :=
  a.find?_planned change (2 ^ 63 ≤ ·)

namespace Arranges
variable {a : Account} {change : Delta} {amount : Amount}

theorem of_balance (h : ¬ IsAmount (a.held + change).1) :
    Arranges a change amount
      (.error (Planned.error ⟨a.id, .balance, (a.held + change).1⟩ amount)) :=
  .impossible ((outOfRange?_planned a change).trans (if_pos h))

theorem of_blocked (hbalance : IsAmount (a.held + change).1)
    (h : ¬ IsAmount (a.held + change).2) :
    Arranges a change amount
      (.error (Planned.error ⟨a.id, .blocked, (a.held + change).2⟩ amount)) :=
  .impossible ((outOfRange?_planned a change).trans
    ((if_neg (not_not.mpr hbalance)).trans (if_pos h)))

theorem of_isAmount (hbalance : IsAmount (a.held + change).1)
    (hblocked : IsAmount (a.held + change).2) {m : BalanceMove} (hp : m.PlannedOn a)
    (hd : m.delta = change) : Arranges a change amount (.ok m) :=
  .possible ((outOfRange?_planned a change).trans
    ((if_neg (not_not.mpr hbalance)).trans (if_neg (not_not.mpr hblocked)))) hp hd

end Arranges

namespace BalanceMove
variable {a : Account} {s : Step}

theorem Step.delta_of_balance (h : s.quantity = .balance) : s.delta.2 = 0 := by
  cases s with
  | creditBalance | debitBalance => rfl
  | block | release => cases h

theorem Step.delta_of_blocked (h : s.quantity = .blocked) : s.delta.1 = 0 := by
  cases s with
  | creditBalance | debitBalance => cases h
  | block | release => rfl

theorem Step.debit_add_block (x : Amount) :
    (debitBalance x).delta + (block x).delta = (-(x.units : ℤ), (x.units : ℤ)) :=
  Prod.ext (add_zero _) (zero_add _)

theorem Step.credit_add_release (x : Amount) :
    (creditBalance x).delta + (release x).delta = ((x.units : ℤ), -(x.units : ℤ)) :=
  Prod.ext (add_zero _) (zero_add _)

/-- A move of one step. -/
theorem arranges_take (label : String) (s : Step) {change : Delta} (hchange : s.delta = change) :
    Arranges a change s.amount ((on a label).take s) := by
  subst hchange
  have hcases := take_cases (plannedOn_on a label) s rfl
  rw [delta_on, zero_add] at hcases
  cases hq : s.quantity with
  | balance =>
    rw [hq] at hcases
    have hblocked : IsAmount (a.held + s.delta).2 := by
      rw [Prod.snd_add, Step.delta_of_balance hq, add_zero]
      exact a.isAmount_held .blocked
    rcases hcases with ⟨hout, htake⟩ | ⟨hin, m, htake, hp, hd⟩
    · rw [htake]
      exact .of_balance hout
    · rw [htake]
      exact .of_isAmount hin hblocked hp hd
  | blocked =>
    rw [hq] at hcases
    have hbalance : IsAmount (a.held + s.delta).1 := by
      rw [Prod.fst_add, Step.delta_of_blocked hq, add_zero]
      exact a.isAmount_held .balance
    rcases hcases with ⟨hout, htake⟩ | ⟨hin, m, htake, hp, hd⟩
    · rw [htake]
      exact .of_blocked hbalance hout
    · rw [htake]
      exact .of_isAmount hbalance hin hp hd

/-- A move of two steps, on the balance and then on the blocked money. -/
theorem arranges_take_take (label : String) (s₁ s₂ : Step) (h₁ : s₁.quantity = .balance)
    (h₂ : s₂.quantity = .blocked) (hamount : s₂.amount = s₁.amount) {change : Delta}
    (hchange : s₁.delta + s₂.delta = change) :
    Arranges a change s₁.amount ((on a label).take s₁ >>= fun m => m.take s₂) := by
  subst hchange
  -- the second step leaves the balance alone
  have hfirst : s₁.quantity.of (a.held + ((on a label).delta + s₁.delta)) =
      (a.held + (s₁.delta + s₂.delta)).1 := by
    rw [delta_on, zero_add, h₁, Quantity.of, Prod.fst_add, Prod.fst_add, Prod.fst_add,
      Step.delta_of_blocked h₂, add_zero]
  have hcases := take_cases (plannedOn_on a label) s₁ hfirst
  rw [delta_on, zero_add, h₁] at hcases
  rcases hcases with ⟨hout, htake⟩ | ⟨hin, m, htake, hp, hd⟩
  · rw [htake]
    exact .of_balance hout
  · rw [htake]
    show Arranges _ _ _ (m.take s₂)
    have hcases := take_cases hp s₂ rfl
    rw [hd, h₂, Quantity.of, hamount] at hcases
    rcases hcases with ⟨hout, htake'⟩ | ⟨hin', m', htake', hp', hd'⟩
    · rw [htake']
      exact .of_blocked hin hout
    · rw [htake']
      exact .of_isAmount hin hin' hp' hd'

end BalanceMove

/-! ## Decisions -/

/-- Two moves that plan what a row settles. -/
structure SettledBy (customer merchant : Account) (row : NewPayment)
    (customerMove merchantMove : BalanceMove) : Prop where
  customer_planned : customerMove.PlannedOn customer
  merchant_planned : merchantMove.PlannedOn merchant
  customer_delta : customerMove.delta = (row.status.settlement row.amount.units).1
  merchant_delta : merchantMove.delta = (row.status.settlement row.amount.units).2

/-- A decision that is to settle a row: it fails on the first planned quantity that is no amount, or
there is none and the moves plan what the row settles. -/
inductive Transfers (customer merchant : Account) (row : NewPayment) :
    Except MoveError Decision → Prop
  | impossible {p : Planned} (first : outOfRange? (planned customer merchant row) = some p) :
      Transfers customer merchant row (.error (p.error row.amount))
  | possible {customerMove merchantMove : BalanceMove}
      (none_out : outOfRange? (planned customer merchant row) = none)
      (settled : SettledBy customer merchant row customerMove merchantMove) :
      Transfers customer merchant row (.ok (.settled row customerMove merchantMove))

/-- Both moves are planned before either of them is carried out. -/
theorem transfers_of_arranges {customer merchant : Account} {row : NewPayment}
    {x y : Except MoveError BalanceMove}
    (hx : Arranges customer (row.status.settlement row.amount.units).1 row.amount x)
    (hy : Arranges merchant (row.status.settlement row.amount.units).2 row.amount y) :
    Transfers customer merchant row
      (x >>= fun customerMove => y >>= fun merchantMove =>
        .ok (.settled row customerMove merchantMove)) := by
  have happend : outOfRange? (planned customer merchant row) =
      (outOfRange? (customer.planned (row.status.settlement row.amount.units).1)).or
        (outOfRange? (merchant.planned (row.status.settlement row.amount.units).2)) :=
    List.find?_append
  cases hx with
  | impossible hfirst =>
    refine .impossible ?_
    rw [happend, hfirst, Option.some_or]
  | possible hnone hcp hcd =>
    rw [hnone, Option.none_or] at happend
    cases hy with
    | impossible hfirst => exact .impossible (happend.trans hfirst)
    | possible hnone' hmp hmd => exact .possible (happend.trans hnone') ⟨hcp, hmp, hcd, hmd⟩

section Rules
open BalanceMove
variable {customer merchant : Account}

/-- **An authorization that is neither refused for the card nor for the funds** blocks its amount. -/
theorem decideAuthorization_transfers {request : PaymentRequest}
    (hcard : customer.card = request.card) (hle : request.amount ≤ customer.balance) :
    Transfers customer merchant (authorizationRow request customer merchant .approved)
      (decideAuthorization request customer merchant) := by
  have hfunds : ¬ customer.balance < request.amount := Nat.not_lt.mpr hle
  have hcustomer := arranges_take_take (a := customer) "customer hold"
    (.debitBalance request.amount) (.block request.amount) rfl rfl rfl
    (Step.debit_add_block request.amount)
  have hmerchant := arranges_take (a := merchant) "merchant hold" (.block request.amount) rfl
  have htransfers := @transfers_of_arranges customer merchant
    (authorizationRow request customer merchant .approved) _ _ hcustomer hmerchant
  rw [bind_assoc] at htransfers
  unfold decideAuthorization
  rw [if_neg (not_not.mpr hcard), if_neg hfunds]
  exact htransfers

/-- **A reaction for no more than the referenced payment is worth** settles its amount. -/
theorem Reaction.decide_transfers (reaction : Reaction) {referenced : Payment} {amount : Amount}
    (hle : amount ≤ referenced.amount) :
    Transfers customer merchant (.reactingTo referenced reaction.operation reaction.settled amount)
      (reaction.decide referenced customer merchant amount) := by
  have hworth : ¬ referenced.amount < amount := Nat.not_lt.mpr hle
  have htransfers := @transfers_of_arranges customer merchant
    (.reactingTo referenced reaction.operation reaction.settled amount)
  cases reaction with
  | capture =>
    have hcustomer := arranges_take (a := customer) "customer capture" (.release amount) rfl
    have hmerchant := arranges_take_take (a := merchant) "merchant capture"
      (.creditBalance amount) (.release amount) rfl rfl rfl (Step.credit_add_release amount)
    have htransfers := htransfers hcustomer hmerchant
    simp only [bind_assoc] at htransfers
    simp only [decide, decideCapture, if_neg hworth]
    exact htransfers
  | cancel =>
    have hcustomer := arranges_take_take (a := customer) "customer release"
      (.creditBalance amount) (.release amount) rfl rfl rfl (Step.credit_add_release amount)
    have hmerchant := arranges_take (a := merchant) "merchant release" (.release amount) rfl
    have htransfers := htransfers hcustomer hmerchant
    rw [bind_assoc] at htransfers
    simp only [decide, decideCancel, if_neg hworth]
    exact htransfers
  | refund =>
    have hcustomer := arranges_take (a := customer) "customer refund" (.creditBalance amount) rfl
    have hmerchant := arranges_take (a := merchant) "merchant refund" (.debitBalance amount) rfl
    simp only [decide, decideRefund, if_neg hworth]
    exact htransfers hcustomer hmerchant

end Rules

/-! ## Accounts that can be stored -/

/-- A decision that is to settle a row from accounts that can be stored: it fails on the first planned
quantity that is below zero, or there is none and the moves plan what the row settles. -/
inductive Settles (customer merchant : Account) (row : NewPayment) :
    Except MoveError Decision → Prop
  | impossible {p : Planned} (first : belowZero? (planned customer merchant row) = some p) :
      Settles customer merchant row (.error (.underflow p.account p.quantity row.amount))
  | possible {customerMove merchantMove : BalanceMove}
      (none_below : belowZero? (planned customer merchant row) = none)
      (settled : SettledBy customer merchant row customerMove merchantMove) :
      Settles customer merchant row (.ok (.settled row customerMove merchantMove))

/-- Where no quantity is planned beyond the amounts, one that is no amount is below zero. -/
theorem outOfRange?_eq_belowZero? {ps : List Planned} (h : ∀ p ∈ ps, p.value < 2 ^ 64) :
    outOfRange? ps = belowZero? ps := by
  refine List.find?_congr fun p hp => decide_eq_decide.mpr ⟨fun hout => ?_, fun hneg hin => ?_⟩
  · exact not_le.mp fun hnonneg => hout ⟨hnonneg, Int.le_sub_one_of_lt (h p hp)⟩
  · exact absurd hin.1 (not_le.mpr hneg)

theorem Transfers.settles {customer merchant : Account} {row : NewPayment}
    {result : Except MoveError Decision} (h : Transfers customer merchant row result)
    (hfits : ∀ p ∈ planned customer merchant row, p.value < 2 ^ 64) :
    Settles customer merchant row result := by
  cases h with
  | impossible first =>
    rw [outOfRange?_eq_belowZero? hfits] at first
    rw [Planned.error, if_pos (mem_of_belowZero? first).2]
    exact .impossible first
  | possible none_out settled =>
    rw [outOfRange?_eq_belowZero? hfits] at none_out
    exact .possible none_out settled

/-- What is settled is no more than the amount. -/
theorem planned_lt {customer merchant : Account} (hc : customer.Storable) (hm : merchant.Storable)
    (row : NewPayment) (hamount : row.amount.units < 2 ^ 63) :
    ∀ p ∈ planned customer merchant row, p.value < 2 ^ 64 := by
  have hfits : ∀ {a : Account} {change : Delta}, a.Storable → change.1 ≤ row.amount.units →
      change.2 ≤ row.amount.units → ∀ p ∈ a.planned change, p.value < 2 ^ 64 := by
    intro a change ha hbalance hblocked p hp
    have hheld : a.held.1 < 2 ^ 63 ∧ a.held.2 < 2 ^ 63 :=
      ⟨Int.ofNat_lt.mpr ha.balance, Int.ofNat_lt.mpr ha.blocked⟩
    rcases List.mem_cons.mp hp with rfl | hp
    · show (a.held + change).1 < 2 ^ 64
      rw [Prod.fst_add]
      omega
    · rw [List.mem_singleton.mp hp]
      show (a.held + change).2 < 2 ^ 64
      rw [Prod.snd_add]
      omega
  intro p hp
  rcases List.mem_append.mp hp with hp | hp
  · refine hfits hc ?_ ?_ p hp <;> cases row.status <;> simp [PaymentStatus.settlement]
  · refine hfits hm ?_ ?_ p hp <;> cases row.status <;> simp [PaymentStatus.settlement]

section Storable
variable {customer merchant : Account} (hc : customer.Storable) (hm : merchant.Storable)
include hc hm

/-- **An authorization fails only on a quantity below zero.** -/
theorem decideAuthorization_settles {request : PaymentRequest} (hcard : customer.card = request.card)
    (hle : request.amount ≤ customer.balance) :
    Settles customer merchant (authorizationRow request customer merchant .approved)
      (decideAuthorization request customer merchant) :=
  (decideAuthorization_transfers hcard hle).settles
    (planned_lt hc hm _ (Nat.lt_of_le_of_lt hle hc.balance))

/-- **A reaction fails only on a quantity below zero.** -/
theorem Reaction.decide_settles (reaction : Reaction) {referenced : Payment} {amount : Amount}
    (hle : amount ≤ referenced.amount) (hreferenced : referenced.amount.units < 2 ^ 63) :
    Settles customer merchant (.reactingTo referenced reaction.operation reaction.settled amount)
      (reaction.decide referenced customer merchant amount) :=
  (reaction.decide_transfers hle).settles
    (planned_lt hc hm _ (Nat.lt_of_le_of_lt hle hreferenced))

end Storable

end CardHolds

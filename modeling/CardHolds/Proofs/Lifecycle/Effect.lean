import CardHolds.Lifecycle.Decision
import CardHolds.Proofs.Ledger.Holdings
import Mathlib.Algebra.BigOperators.Group.List.Basic
import Mathlib.Tactic.Abel

/-!
# What a decision does to the accounts

The effect of a move is its delta on its own account and nothing elsewhere, and the effect of a
decision is the sum over its moves.

Main statements: a move does what its forward update writes (`change_forward`) and its undo takes
exactly this back from any account it is applied to (`change_of_undoOn`); and the effect of a decision
is settled by the row it records (`decideAuthorization_planned`, `Reaction.decide_planned`).
-/

namespace CardHolds

/-! ## Moves -/

namespace BalanceMove

/-- The quantities that a move starts from. -/
def heldBefore (m : BalanceMove) : Delta := (m.oldBalance.units, m.oldBlocked.units)

/-- The change that a move plans. -/
def delta (m : BalanceMove) : Delta :=
  (m.newBalance.units - m.oldBalance.units, m.newBlocked.units - m.oldBlocked.units)

/-- The change that a move plans, on every account. -/
def effect (m : BalanceMove) : AccountId → Delta := Pi.single m.account m.delta

/-- The move was planned from the account as it was read. -/
structure PlannedOn (m : BalanceMove) (a : Account) : Prop where
  account : m.account = a.id
  version : m.fromVersion = a.version
  balance : m.oldBalance = a.balance
  blocked : m.oldBlocked = a.blocked

/-- The change that one step adds to a plan. -/
def Step.delta : Step → Delta
  | .creditBalance a => (a.units, 0)
  | .debitBalance a => (-a.units, 0)
  | .block a => (0, a.units)
  | .release a => (0, -a.units)

@[simp] theorem delta_on (a : Account) (label : String) : (on a label).delta = 0 := by
  simp [delta, on]

theorem plannedOn_on (a : Account) (label : String) : (on a label).PlannedOn a :=
  ⟨rfl, rfl, rfl, rfl⟩

theorem PlannedOn.heldBefore {m : BalanceMove} {a : Account} (h : m.PlannedOn a) :
    m.heldBefore = a.held := by
  rw [BalanceMove.heldBefore, h.balance, h.blocked]
  rfl

/-- A step adds its change to the plan and leaves the reading it starts from alone. -/
theorem take_spec {m m' : BalanceMove} (step : Step) (h : m.take step = .ok m') :
    m'.delta = m.delta + step.delta ∧ ∀ a, m.PlannedOn a → m'.PlannedOn a := by
  cases step with
  | creditBalance amount =>
    simp only [take, creditBalance] at h
    split at h
    · rename_i b hb
      cases h
      have := Amount.add?_eq_some_iff.mp hb
      exact ⟨Prod.ext (by simp [delta, Step.delta]; omega) (by simp [delta, Step.delta]),
        fun a p => ⟨p.account, p.version, p.balance, p.blocked⟩⟩
    · cases h
  | debitBalance amount =>
    simp only [take, debitBalance] at h
    split at h
    · rename_i b hb
      cases h
      have := Amount.sub?_eq_some_iff.mp hb
      exact ⟨Prod.ext (by simp [delta, Step.delta]; omega) (by simp [delta, Step.delta]),
        fun a p => ⟨p.account, p.version, p.balance, p.blocked⟩⟩
    · cases h
  | block amount =>
    simp only [take, block] at h
    split at h
    · rename_i b hb
      cases h
      have := Amount.add?_eq_some_iff.mp hb
      exact ⟨Prod.ext (by simp [delta, Step.delta]) (by simp [delta, Step.delta]; omega),
        fun a p => ⟨p.account, p.version, p.balance, p.blocked⟩⟩
    · cases h
  | release amount =>
    simp only [take, release] at h
    split at h
    · rename_i b hb
      cases h
      have := Amount.sub?_eq_some_iff.mp hb
      exact ⟨Prod.ext (by simp [delta, Step.delta]) (by simp [delta, Step.delta]; omega),
        fun a p => ⟨p.account, p.version, p.balance, p.blocked⟩⟩
    · cases h

/-- **The forward update writes the planned change** on the account as it was read. -/
theorem change_forward (m : BalanceMove) :
    m.forward.change m.heldBefore = m.delta := rfl

theorem reverse_spec {m : BalanceMove} {q : Quantity} {current old new result : Amount}
    (h : m.reverse q current old new = .ok result) :
    (result.units : ℤ) - current.units = -((new.units : ℤ) - old.units) := by
  unfold reverse at h
  split at h
  · -- the move had added to the quantity
    rename_i added hadded
    split at h
    · rename_i r hr
      cases h
      have := Amount.sub?_eq_some_iff.mp hadded
      have := Amount.sub?_eq_some_iff.mp hr
      omega
    · cases h
  · -- the move had taken from it
    rename_i hnone
    have hlt := Amount.sub?_eq_none_iff.mp hnone
    simp only at h
    split at h
    · rename_i r hr
      cases h
      have hsum := Amount.add?_eq_some_iff.mp hr
      simp only [Amount.minus] at hsum
      omega
    · cases h

/-- **An undo takes the planned change back**, from whatever the account holds now. -/
theorem change_of_undoOn {m : BalanceMove} {current : Account} {u : BalanceUpdate}
    (h : m.undoOn current = .ok u) :
    u.expectedVersion = some current.version ∧ u.change current.held = -m.delta := by
  unfold undoOn at h
  cases hb : m.reverse .balance current.balance m.oldBalance m.newBalance with
  | error e => rw [hb] at h; cases h
  | ok balance =>
    cases hk : m.reverse .blocked current.blocked m.oldBlocked m.newBlocked with
    | error e => rw [hb, hk] at h; cases h
    | ok blocked =>
      rw [hb, hk] at h
      cases h
      exact ⟨rfl, Prod.ext (reverse_spec hb) (reverse_spec hk)⟩

/-- The sum of what several moves plan, on every account. -/
def effects (ms : List BalanceMove) : AccountId → Delta := (ms.map effect).sum

@[simp] theorem effects_nil : effects [] = 0 := rfl

@[simp] theorem effects_cons (m : BalanceMove) (ms : List BalanceMove) :
    effects (m :: ms) = m.effect + effects ms := by
  simp [effects]

@[simp] theorem effects_append (ms ms' : List BalanceMove) :
    effects (ms ++ ms') = effects ms + effects ms' := by
  simp [effects]

@[simp] theorem effects_reverse (ms : List BalanceMove) : effects ms.reverse = effects ms := by
  induction ms with
  | nil => rfl
  | cons m ms ih => rw [List.reverse_cons, effects_append, ih]; simp [add_comm]

end BalanceMove

/-! ## Decisions -/

/-- What a row with the given status and amount does to the customer and to the merchant. -/
def PaymentStatus.settlement (status : PaymentStatus) (amount : ℤ) : Delta × Delta :=
  match status with
  | .approved => ((-amount, amount), (0, amount))
  | .successfulPayment => ((0, -amount), (amount, -amount))
  | .successfulCancel => ((amount, -amount), (0, -amount))
  | .successfulRefund => ((amount, 0), (-amount, 0))
  | .wrongPaymentRequest | .insufficientFunds | .invalidAmount | .invalidTransaction => (0, 0)

/-- What a row stands for on every account. -/
def NewPayment.effect (row : NewPayment) : AccountId → Delta :=
  Pi.single row.customer (row.status.settlement row.amount.units).1 +
    Pi.single row.merchant (row.status.settlement row.amount.units).2

/-- What a recorded payment stands for on every account. -/
def Payment.effect (p : Payment) : AccountId → Delta :=
  Pi.single p.customer (p.status.settlement p.amount.units).1 +
    Pi.single p.merchant (p.status.settlement p.amount.units).2

@[simp] theorem NewPayment.effect_recorded (row : NewPayment) (id : PaymentId) (now : Timestamp) :
    (row.recorded id now).effect = row.effect := rfl

namespace Decision

/-- What the moves of a decision do together. -/
def effect (d : Decision) : AccountId → Delta := BalanceMove.effects d.moves

/-- The moves of a decision start from the two accounts as they were read, and do what its row says. -/
structure PlannedFrom (d : Decision) (customer merchant : Account) : Prop where
  moves : ∀ m ∈ d.moves, m.PlannedOn customer ∨ m.PlannedOn merchant
  effect_eq : d.effect = d.row.effect

/-- An outcome that moves no money needs a row that says so. -/
theorem plannedFrom_merchantOnly {row : NewPayment} (customer merchant : Account)
    (h : row.status.settlement row.amount.units = (0, 0)) :
    (merchantOnly row).PlannedFrom customer merchant where
  moves m hm := by cases hm
  effect_eq := by simp [effect, merchantOnly, NewPayment.effect, h]

/-- One move on each account, with the deltas that belong to the status of the row. -/
theorem plannedFrom_settled {row : NewPayment} {customer merchant : Account}
    {customerMove merchantMove : BalanceMove} (hc : customerMove.PlannedOn customer)
    (hm : merchantMove.PlannedOn merchant) (rc : row.customer = customer.id)
    (rm : row.merchant = merchant.id)
    (h : row.status.settlement row.amount.units = (customerMove.delta, merchantMove.delta)) :
    (settled row customerMove merchantMove).PlannedFrom customer merchant where
  moves m hmem := by
    rcases List.mem_cons.mp hmem with rfl | hmem
    · exact Or.inl hc
    · exact Or.inr (List.mem_singleton.mp hmem ▸ hm)
  effect_eq := by
    simp [effect, settled, NewPayment.effect, BalanceMove.effect, h, rc, rm, hc.account, hm.account]

end Decision

section Rules
open BalanceMove
variable {customer merchant : Account} {d : Decision}

/-- **An authorization does what its row says.** -/
theorem decideAuthorization_planned {request : PaymentRequest}
    (h : decideAuthorization request customer merchant = .ok d) :
    d.PlannedFrom customer merchant := by
  unfold decideAuthorization at h
  split at h
  · cases h
    exact Decision.plannedFrom_merchantOnly _ _ rfl
  split at h
  · cases h
    exact Decision.plannedFrom_merchantOnly _ _ rfl
  obtain ⟨held, hheld, h⟩ := ok_of_bind h
  obtain ⟨customerMove, hcustomer, h⟩ := ok_of_bind h
  obtain ⟨merchantMove, hmerchant, h⟩ := ok_of_bind h
  cases h
  obtain ⟨d₁, p₁⟩ := take_spec (.debitBalance request.amount) hheld
  obtain ⟨d₂, p₂⟩ := take_spec (.block request.amount) hcustomer
  obtain ⟨d₃, p₃⟩ := take_spec (.block request.amount) hmerchant
  refine Decision.plannedFrom_settled (p₂ _ (p₁ _ (plannedOn_on _ _)))
    (p₃ _ (plannedOn_on _ _)) rfl rfl ?_
  simp [PaymentStatus.settlement, authorizationRow, d₁, d₂, d₃, Step.delta]

variable {referenced : Payment} {amount : Amount}

theorem decideCapture_planned (hc : customer.id = referenced.customer)
    (hm : merchant.id = referenced.merchant)
    (h : decideCapture referenced customer merchant amount = .ok d) :
    d.PlannedFrom customer merchant := by
  unfold decideCapture at h
  split at h
  · cases h
    exact Decision.plannedFrom_merchantOnly _ _ rfl
  obtain ⟨customerMove, hcustomer, h⟩ := ok_of_bind h
  obtain ⟨credited, hcredited, h⟩ := ok_of_bind h
  obtain ⟨merchantMove, hmerchant, h⟩ := ok_of_bind h
  cases h
  obtain ⟨d₁, p₁⟩ := take_spec (.release amount) hcustomer
  obtain ⟨d₂, p₂⟩ := take_spec (.creditBalance amount) hcredited
  obtain ⟨d₃, p₃⟩ := take_spec (.release amount) hmerchant
  refine Decision.plannedFrom_settled (p₁ _ (plannedOn_on _ _))
    (p₃ _ (p₂ _ (plannedOn_on _ _))) hc.symm hm.symm ?_
  simp [PaymentStatus.settlement, NewPayment.reactingTo, d₁, d₂, d₃, Step.delta]

theorem decideCancel_planned (hc : customer.id = referenced.customer)
    (hm : merchant.id = referenced.merchant)
    (h : decideCancel referenced customer merchant amount = .ok d) :
    d.PlannedFrom customer merchant := by
  unfold decideCancel at h
  split at h
  · cases h
    exact Decision.plannedFrom_merchantOnly _ _ rfl
  obtain ⟨credited, hcredited, h⟩ := ok_of_bind h
  obtain ⟨customerMove, hcustomer, h⟩ := ok_of_bind h
  obtain ⟨merchantMove, hmerchant, h⟩ := ok_of_bind h
  cases h
  obtain ⟨d₁, p₁⟩ := take_spec (.creditBalance amount) hcredited
  obtain ⟨d₂, p₂⟩ := take_spec (.release amount) hcustomer
  obtain ⟨d₃, p₃⟩ := take_spec (.release amount) hmerchant
  refine Decision.plannedFrom_settled (p₂ _ (p₁ _ (plannedOn_on _ _)))
    (p₃ _ (plannedOn_on _ _)) hc.symm hm.symm ?_
  simp [PaymentStatus.settlement, NewPayment.reactingTo, d₁, d₂, d₃, Step.delta]

theorem decideRefund_planned (hc : customer.id = referenced.customer)
    (hm : merchant.id = referenced.merchant)
    (h : decideRefund referenced customer merchant amount = .ok d) :
    d.PlannedFrom customer merchant := by
  unfold decideRefund at h
  split at h
  · cases h
    exact Decision.plannedFrom_merchantOnly _ _ rfl
  obtain ⟨customerMove, hcustomer, h⟩ := ok_of_bind h
  obtain ⟨merchantMove, hmerchant, h⟩ := ok_of_bind h
  cases h
  obtain ⟨d₁, p₁⟩ := take_spec (.creditBalance amount) hcustomer
  obtain ⟨d₂, p₂⟩ := take_spec (.debitBalance amount) hmerchant
  refine Decision.plannedFrom_settled (p₁ _ (plannedOn_on _ _))
    (p₂ _ (plannedOn_on _ _)) hc.symm hm.symm ?_
  simp [PaymentStatus.settlement, NewPayment.reactingTo, d₁, d₂, Step.delta]

/-- **A reaction does what its row says.** -/
theorem Reaction.decide_planned (reaction : Reaction) (hc : customer.id = referenced.customer)
    (hm : merchant.id = referenced.merchant)
    (h : reaction.decide referenced customer merchant amount = .ok d) :
    d.PlannedFrom customer merchant := by
  cases reaction with
  | capture => exact decideCapture_planned hc hm h
  | cancel => exact decideCancel_planned hc hm h
  | refund => exact decideRefund_planned hc hm h

/-! ## Rows -/

/-- The row of an authorization takes everything but its status from the request. -/
theorem decideAuthorization_row {request : PaymentRequest}
    (h : decideAuthorization request customer merchant = .ok d) :
    ∃ status, d.row = authorizationRow request customer merchant status ∧
      (status = .wrongPaymentRequest ∨ status = .insufficientFunds ∨ status = .approved) := by
  unfold decideAuthorization at h
  split at h
  · cases h
    exact ⟨_, rfl, Or.inl rfl⟩
  split at h
  · cases h
    exact ⟨_, rfl, Or.inr (Or.inl rfl)⟩
  obtain ⟨_, -, h⟩ := ok_of_bind h
  obtain ⟨_, -, h⟩ := ok_of_bind h
  obtain ⟨_, -, h⟩ := ok_of_bind h
  cases h
  exact ⟨_, rfl, Or.inr (Or.inr rfl)⟩

/-- The status of a reaction that moves money. -/
def Reaction.settled : Reaction → PaymentStatus
  | capture => .successfulPayment
  | cancel => .successfulCancel
  | refund => .successfulRefund

/-- The row of a reaction takes the two accounts from the payment that it refers to. -/
theorem Reaction.decide_row (reaction : Reaction)
    (h : reaction.decide referenced customer merchant amount = .ok d) :
    ∃ status, d.row = .reactingTo referenced reaction.operation status amount ∧
      (status = .invalidAmount ∨ status = reaction.settled) := by
  cases reaction with
  | capture =>
    simp only [decide, decideCapture] at h
    split at h
    · cases h
      exact ⟨_, rfl, Or.inl rfl⟩
    · obtain ⟨_, -, h⟩ := ok_of_bind h
      obtain ⟨_, -, h⟩ := ok_of_bind h
      obtain ⟨_, -, h⟩ := ok_of_bind h
      cases h
      exact ⟨_, rfl, Or.inr rfl⟩
  | cancel =>
    simp only [decide, decideCancel] at h
    split at h
    · cases h
      exact ⟨_, rfl, Or.inl rfl⟩
    · obtain ⟨_, -, h⟩ := ok_of_bind h
      obtain ⟨_, -, h⟩ := ok_of_bind h
      obtain ⟨_, -, h⟩ := ok_of_bind h
      cases h
      exact ⟨_, rfl, Or.inr rfl⟩
  | refund =>
    simp only [decide, decideRefund] at h
    split at h
    · cases h
      exact ⟨_, rfl, Or.inl rfl⟩
    · obtain ⟨_, -, h⟩ := ok_of_bind h
      obtain ⟨_, -, h⟩ := ok_of_bind h
      cases h
      exact ⟨_, rfl, Or.inr rfl⟩

end Rules

/-! ## Decisions without moves -/

section Decisions
variable {request : PaymentRequest} {p : Payment} {amount : Amount} {c m : Account}

theorem decideAuthorization_of_card_ne (h : request.card ≠ c.card) :
    decideAuthorization request c m =
      .ok (.merchantOnly (authorizationRow request c m .wrongPaymentRequest)) :=
  if_pos h.symm

theorem decideAuthorization_of_balance_lt (hcard : request.card = c.card)
    (hbalance : c.balance < request.amount) : decideAuthorization request c m =
      .ok (.merchantOnly (authorizationRow request c m .insufficientFunds)) :=
  (if_neg (not_not.mpr hcard.symm)).trans (if_pos hbalance)

theorem Reaction.decide_of_amount_lt (h : p.amount < amount) (reaction : Reaction) :
    reaction.decide p c m amount =
      .ok (.merchantOnly (.reactingTo p reaction.operation .invalidAmount amount)) := by
  cases reaction <;> exact if_pos h

end Decisions

end CardHolds

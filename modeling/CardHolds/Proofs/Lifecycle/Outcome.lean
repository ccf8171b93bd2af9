import CardHolds.Proofs.Engine.Drawn

/-!
# What the rules come to

The rules compare before they plan a move.  An authorization compares the card and then the balance
of the customer with the request, and a reaction compares its amount with that of the payment it
refers to (`decideAuthorization_cases`, `Reaction.decide_cases`).  With this the row of a decision
says on whose statements it is listed (`Instruction.Decides.statements_eq`), and what it was recorded
for (`Instruction.Decides.explains`).
-/

namespace CardHolds

section Rules
variable {customer merchant : Account} {d : Decision}

/-- An authorization compares the cards, then the amount with the balance. -/
theorem decideAuthorization_cases {request : PaymentRequest}
    (h : decideAuthorization request customer merchant = .ok d) :
    (customer.card ≠ request.card ∧
        d = .merchantOnly (authorizationRow request customer merchant .wrongPaymentRequest)) ∨
      (customer.card = request.card ∧ customer.balance < request.amount ∧
        d = .merchantOnly (authorizationRow request customer merchant .insufficientFunds)) ∨
      (customer.card = request.card ∧ request.amount ≤ customer.balance ∧
        ∃ customerMove merchantMove,
          d = .settled (authorizationRow request customer merchant .approved) customerMove
            merchantMove) := by
  unfold decideAuthorization at h
  split at h
  · rename_i hcard
    cases h
    exact Or.inl ⟨hcard, rfl⟩
  · rename_i hcard
    have hcard : customer.card = request.card := Decidable.not_not.mp hcard
    split at h
    · rename_i hfunds
      cases h
      exact Or.inr (Or.inl ⟨hcard, hfunds, rfl⟩)
    · rename_i hfunds
      obtain ⟨_, -, h⟩ := ok_of_bind h
      obtain ⟨customerMove, -, h⟩ := ok_of_bind h
      obtain ⟨merchantMove, -, h⟩ := ok_of_bind h
      cases h
      exact Or.inr (Or.inr ⟨hcard, Nat.le_of_not_lt hfunds, customerMove, merchantMove, rfl⟩)

/-- A reaction compares its amount with that of the payment it refers to. -/
theorem Reaction.decide_cases (reaction : Reaction) {referenced : Payment} {amount : Amount}
    (h : reaction.decide referenced customer merchant amount = .ok d) :
    (referenced.amount < amount ∧
        d = .merchantOnly (.reactingTo referenced reaction.operation .invalidAmount amount)) ∨
      (amount ≤ referenced.amount ∧ ∃ customerMove merchantMove,
        d = .settled (.reactingTo referenced reaction.operation reaction.settled amount)
          customerMove merchantMove) := by
  by_cases hamount : referenced.amount < amount
  · left
    cases reaction <;>
      simp only [decide, decideCapture, decideCancel, decideRefund, if_pos hamount] at h <;>
      cases h <;> exact ⟨hamount, rfl⟩
  · right
    refine ⟨Nat.le_of_not_lt hamount, ?_⟩
    cases reaction with
    | capture =>
      simp only [decide, decideCapture, if_neg hamount] at h
      obtain ⟨_, -, h⟩ := ok_of_bind h
      obtain ⟨_, -, h⟩ := ok_of_bind h
      obtain ⟨_, -, h⟩ := ok_of_bind h
      cases h
      exact ⟨_, _, rfl⟩
    | cancel =>
      simp only [decide, decideCancel, if_neg hamount] at h
      obtain ⟨_, -, h⟩ := ok_of_bind h
      obtain ⟨_, -, h⟩ := ok_of_bind h
      obtain ⟨_, -, h⟩ := ok_of_bind h
      cases h
      exact ⟨_, _, rfl⟩
    | refund =>
      simp only [decide, decideRefund, if_neg hamount] at h
      obtain ⟨_, -, h⟩ := ok_of_bind h
      obtain ⟨_, -, h⟩ := ok_of_bind h
      cases h
      exact ⟨_, _, rfl⟩

end Rules

/-! ## Statements -/

/-- The statuses of steps that move money. -/
def PaymentStatus.isSettled : PaymentStatus → Bool
  | approved | successfulPayment | successfulCancel | successfulRefund => true
  | wrongPaymentRequest | insufficientFunds | invalidAmount | invalidTransaction => false

@[simp] theorem Reaction.isSettled_settled (reaction : Reaction) :
    reaction.settled.isSettled = true := by
  cases reaction <;> rfl

/-- The accounts that a row is listed for: the merchant, and the customer before if money moved. -/
def NewPayment.listedFor (row : NewPayment) : List AccountId :=
  if row.status.isSettled then [row.customer, row.merchant] else [row.merchant]

/-- **A decision puts its row on the statements of the accounts that the row is listed for.** -/
theorem Instruction.Decides.statements_eq {instruction : Instruction} {found : Option Payment}
    {d : Decision} (h : instruction.Decides found d) : d.statements = d.row.listedFor := by
  cases instruction with
  | authorize request =>
    obtain ⟨-, c, m, -, -, hd⟩ := h
    rcases decideAuthorization_cases hd with ⟨-, rfl⟩ | ⟨-, -, rfl⟩ | ⟨-, -, _, _, rfl⟩ <;> rfl
  | react reaction id amount =>
    obtain ⟨q, -, -, -, c, m, -, -, hd⟩ := h
    rcases reaction.decide_cases hd with ⟨-, rfl⟩ | ⟨-, _, _, rfl⟩
    · rfl
    · exact (if_pos reaction.isSettled_settled).symm

/-! ## Rows and the calls that recorded them -/

/-- An instruction explains a payment that was recorded after the given ones: it asked for it, and a
reaction referred to one of those before, which was in the right state. -/
def Instruction.Explains (earlier : List Payment) (p : Payment) : Instruction → Prop
  | .authorize request =>
    p.operation = .authorization ∧
      (p.status = .wrongPaymentRequest ∨ p.status = .insufficientFunds ∨ p.status = .approved) ∧
      p.merchant = request.merchant ∧ p.customer = request.customer ∧
      p.card = request.card.snapshot ∧ p.currency = request.currency ∧ p.amount = request.amount
  | .react reaction id amount =>
    ∃ q ∈ earlier, q.id = id ∧
      q.operation = reaction.predecessor ∧ q.status = reaction.predecessor.settled ∧
      p.operation = reaction.operation ∧
      (p.status = reaction.settled ∧ p.amount ≤ q.amount ∨
        p.status = .invalidAmount ∧ q.amount < p.amount) ∧
      p.merchant = q.merchant ∧ p.customer = q.customer ∧ p.card = q.card ∧
      p.currency = q.currency ∧ p.amount = amount

/-- **A decision explains its row.** -/
theorem Instruction.Decides.explains {instruction : Instruction} {found : Option Payment}
    {d : Decision} (h : instruction.Decides found d) {earlier : List Payment}
    (hfound : ∀ q, found = some q → q ∈ earlier) (id : PaymentId) (now : Timestamp) :
    instruction.Explains earlier (d.row.recorded id now) := by
  cases instruction with
  | authorize request =>
    obtain ⟨-, c, m, hc, hm, hd⟩ := h
    rcases decideAuthorization_cases hd with ⟨-, rfl⟩ | ⟨-, -, rfl⟩ | ⟨-, -, _, _, rfl⟩
    · exact ⟨rfl, Or.inl rfl, hm, hc, rfl, rfl, rfl⟩
    · exact ⟨rfl, Or.inr (Or.inl rfl), hm, hc, rfl, rfl, rfl⟩
    · exact ⟨rfl, Or.inr (Or.inr rfl), hm, hc, rfl, rfl, rfl⟩
  | react reaction name amount =>
    obtain ⟨q, hq, hname, haccepts, c, m, -, -, hd⟩ := h
    obtain ⟨hoperation, hstatus⟩ := (reaction.accepts_iff q).mp haccepts
    refine ⟨q, hfound q hq, hname, hoperation, hstatus, ?_⟩
    rcases reaction.decide_cases hd with ⟨hamount, rfl⟩ | ⟨hamount, _, _, rfl⟩
    · exact ⟨rfl, Or.inr ⟨rfl, hamount⟩, rfl, rfl, rfl, rfl, rfl⟩
    · exact ⟨rfl, Or.inl ⟨rfl, hamount⟩, rfl, rfl, rfl, rfl, rfl⟩

end CardHolds

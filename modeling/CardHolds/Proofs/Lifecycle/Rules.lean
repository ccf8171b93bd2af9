import CardHolds.Proofs.Lifecycle.Planning

/-!
# The rules of the lifecycle

A `Rule` is one step of a payment as it is to be decided: the row that it records, the condition under
which it moves no money, and the status under which it does.  `authorizationRule` and `reactionRule`
are the rules of the four steps, and `Rule.Follows` says what a decision has to be to follow a rule,
whatever the two accounts hold.

Main statement (`decisions_follow_rules`): the decisions of all four steps follow their rules.
-/

namespace CardHolds

/-- A step of a payment between two accounts. -/
structure Rule where
  /-- The row that is recorded with a status. -/
  row : PaymentStatus → NewPayment
  /-- The status of an outcome that moves no money, if it has to be one. -/
  soft : Option PaymentStatus
  /-- The status of the outcome that moves money. -/
  settled : PaymentStatus

/-- An authorization of the requested amount for the presented card. -/
def authorizationRule (request : PaymentRequest) (customer merchant : Account) : Rule where
  row status := {
    merchant := merchant.id
    customer := customer.id
    card := request.card.snapshot
    currency := request.currency
    operation := .authorization
    status := status
    amount := request.amount }
  soft :=
    if customer.card ≠ request.card then some .wrongPaymentRequest
    else if customer.balance < request.amount then some .insufficientFunds
    else none
  settled := .approved

/-- A capture, cancel or refund of an amount of an earlier payment. -/
def reactionRule (reaction : Reaction) (referenced : Payment) (amount : Amount) : Rule where
  row status := {
    merchant := referenced.merchant
    customer := referenced.customer
    card := referenced.card
    currency := referenced.currency
    operation := reaction.operation
    status := status
    amount := amount }
  soft := if referenced.amount < amount then some .invalidAmount else none
  settled := reaction.settled

namespace Rule

/-- The quantities that are planned where money is moved. -/
def planned (rule : Rule) (customer merchant : Account) : List Planned :=
  CardHolds.planned customer merchant (rule.row rule.settled)

/-- The decision for two accounts as they were read follows the rule. -/
structure Follows (rule : Rule) (customer merchant : Account)
    (result : Except MoveError Decision) : Prop where
  /-- A soft outcome is recorded on the statement of the merchant alone and moves nothing. -/
  soft : ∀ status, rule.soft = some status →
    result = .ok ⟨rule.row status, [], [(rule.row status).merchant]⟩
  /-- Money is moved just if no soft condition applies and all four quantities are amounts. -/
  moves_iff : (∃ d, result = .ok d ∧ d.moves ≠ []) ↔
    rule.soft = none ∧ ∀ p ∈ rule.planned customer merchant, IsAmount p.value
  /-- Then there are two moves, the customer's first: each was planned from the account as it was read
  and changes it by what the status stands for.  The row is on both statements. -/
  moves : ∀ d, result = .ok d → d.moves ≠ [] → ∃ customerMove merchantMove,
    d = ⟨rule.row rule.settled, [customerMove, merchantMove],
      [(rule.row rule.settled).customer, (rule.row rule.settled).merchant]⟩ ∧
    SettledBy customer merchant (rule.row rule.settled) customerMove merchantMove ∧
    2 * (customerMove.delta.1 + merchantMove.delta.1) +
      (customerMove.delta.2 + merchantMove.delta.2) = 0
  /-- Otherwise the decision fails on the first quantity, those of the customer before those of the
  merchant, that is no amount: below zero, or beyond the unsigned numbers of 64 bits. -/
  fails : rule.soft = none → ∀ p, outOfRange? (rule.planned customer merchant) = some p →
    result = .error (if p.value < 0
      then .underflow p.account p.quantity (rule.row rule.settled).amount
      else .overflow p.account p.quantity (rule.row rule.settled).amount)

variable {rule : Rule} {customer merchant : Account} {status : PaymentStatus}
  {result : Except MoveError Decision}

/-- Money is neither made nor lost: what is blocked counts once for each of the two accounts. -/
theorem settlement_balanced (status : PaymentStatus) (amount : ℤ) :
    2 * ((status.settlement amount).1.1 + (status.settlement amount).2.1) +
      ((status.settlement amount).1.2 + (status.settlement amount).2.2) = 0 := by
  cases status <;> simp only [PaymentStatus.settlement, Prod.fst_zero, Prod.snd_zero] <;> omega

theorem outOfRange?_eq_none_iff {ps : List Planned} :
    outOfRange? ps = none ↔ ∀ p ∈ ps, IsAmount p.value := by
  simp only [outOfRange?, List.find?_eq_none, decide_eq_true_eq, not_not]

/-- A soft outcome follows the rule. -/
theorem follows_of_soft (h : rule.soft = some status) :
    rule.Follows customer merchant (.ok (.merchantOnly (rule.row status))) where
  soft status' h' := by
    cases h.symm.trans h'
    rfl
  moves_iff := iff_of_false (fun ⟨d, hd, hne⟩ => by cases hd; exact hne rfl)
    fun ⟨hnone, _⟩ => by cases h.symm.trans hnone
  moves d hd hne := by
    cases hd
    exact absurd rfl hne
  fails hnone := by cases h.symm.trans hnone

/-- So does one that settles the row. -/
theorem follows_of_transfers (h : rule.soft = none)
    (htransfers : Transfers customer merchant (rule.row rule.settled) result) :
    rule.Follows customer merchant result := by
  cases htransfers with
  | @impossible p first =>
    have hout : ¬ ∀ p ∈ rule.planned customer merchant, IsAmount p.value := fun hall => by
      cases first.symm.trans (outOfRange?_eq_none_iff.mpr hall)
    refine ⟨fun status hstatus => ?_, ?_, fun d hd => ?_, fun _ p' hp' => ?_⟩
    · cases h.symm.trans hstatus
    · exact iff_of_false (fun ⟨d, hd, _⟩ => by cases hd) fun ⟨_, hall⟩ => hout hall
    · cases hd
    · cases first.symm.trans hp'
      rfl
  | @possible customerMove merchantMove none_out settled =>
    refine ⟨fun status hstatus => ?_, ?_, fun d hd hne => ?_, fun _ p hp => ?_⟩
    · cases h.symm.trans hstatus
    · exact iff_of_true ⟨_, rfl, List.cons_ne_nil _ _⟩ ⟨h, outOfRange?_eq_none_iff.mp none_out⟩
    · cases hd
      refine ⟨customerMove, merchantMove, rfl, settled, ?_⟩
      rw [settled.customer_delta, settled.merchant_delta]
      exact settlement_balanced _ _
    · cases none_out.symm.trans hp

end Rule

theorem decideAuthorization_follows (request : PaymentRequest) (customer merchant : Account) :
    (authorizationRule request customer merchant).Follows customer merchant
      (decideAuthorization request customer merchant) := by
  by_cases hcard : customer.card = request.card
  · by_cases hfunds : customer.balance < request.amount
    · have hsoft : (authorizationRule request customer merchant).soft =
          some .insufficientFunds := by
        simp only [authorizationRule, hcard, ne_eq, not_true_eq_false, if_false, hfunds, if_true]
      rw [decideAuthorization_of_balance_lt hcard.symm hfunds]
      exact Rule.follows_of_soft hsoft
    · have hsoft : (authorizationRule request customer merchant).soft = none := by
        simp only [authorizationRule, hcard, ne_eq, not_true_eq_false, if_false, hfunds]
      exact Rule.follows_of_transfers hsoft
        (decideAuthorization_transfers hcard (Nat.le_of_not_lt hfunds))
  · have hsoft : (authorizationRule request customer merchant).soft =
        some .wrongPaymentRequest := by
      simp only [authorizationRule, ne_eq, hcard, not_false_eq_true, if_true]
    rw [decideAuthorization_of_card_ne (Ne.symm hcard)]
    exact Rule.follows_of_soft hsoft

theorem Reaction.decide_follows (reaction : Reaction) (referenced : Payment)
    (customer merchant : Account) (amount : Amount) :
    (reactionRule reaction referenced amount).Follows customer merchant
      (reaction.decide referenced customer merchant amount) := by
  by_cases hworth : referenced.amount < amount
  · rw [Reaction.decide_of_amount_lt hworth]
    exact Rule.follows_of_soft (if_pos hworth)
  · exact Rule.follows_of_transfers (if_neg hworth)
      (reaction.decide_transfers (Nat.le_of_not_lt hworth))

/-- **The decisions of all four steps follow their rules**, whatever the two accounts hold and whatever
amount is asked for. -/
theorem decisions_follow_rules :
    (∀ request customer merchant,
      (authorizationRule request customer merchant).Follows customer merchant
        (decideAuthorization request customer merchant)) ∧
    ∀ reaction referenced customer merchant amount,
      (reactionRule reaction referenced amount).Follows customer merchant
        (reaction.decide referenced customer merchant amount) :=
  ⟨decideAuthorization_follows, Reaction.decide_follows⟩

end CardHolds

import CardHolds.Proofs.Lifecycle.Instruction

/-!
# Sums over payments

`total` sums up the amounts of the payments of one operation and status in which an account takes a
given part.  What several payments do to an account comes to such sums (`sum_effect`), as long as they
are `Regular`: on two different accounts, and with no status that moves money other than that of
their operation.
-/

namespace CardHolds

/-- The status of a step that moves money. -/
def Operation.settled : Operation → PaymentStatus
  | authorization => .approved
  | capture => .successfulPayment
  | cancel => .successfulCancel
  | refund => .successfulRefund

@[simp] theorem Reaction.settled_operation (reaction : Reaction) :
    reaction.operation.settled = reaction.settled := by
  cases reaction <;> rfl

/-- The statuses of recorded steps that move nothing. -/
def PaymentStatus.isSoft : PaymentStatus → Bool
  | wrongPaymentRequest | insufficientFunds | invalidAmount => true
  | _ => false

namespace Payment

/-- The rules can have recorded the payment. -/
structure Regular (p : Payment) : Prop where
  accounts : p.customer ≠ p.merchant
  status : p.status.isSoft = true ∨ p.status = p.operation.settled

/-- The account pays. -/
def paidBy (x : AccountId) (p : Payment) : Bool := decide (p.customer = x)

/-- The account is paid. -/
def paidTo (x : AccountId) (p : Payment) : Bool := decide (p.merchant = x)

/-- The account pays or is paid. -/
def involves (x : AccountId) (p : Payment) : Bool := p.paidBy x || p.paidTo x

/-- The amount of a payment of the given operation and status in which an account takes the given
part, and nothing of any other. -/
def stake (operation : Operation) (status : PaymentStatus) (part : Payment → Bool) (p : Payment) : ℤ :=
  if p.operation = operation ∧ p.status = status ∧ part p then p.amount.units else 0

end Payment

open Payment (paidBy paidTo involves stake)

/-- The sum of the amounts of all payments of the given operation and status in which an account takes
the given part. -/
def total (ps : List Payment) (operation : Operation) (status : PaymentStatus)
    (part : Payment → Bool) : ℤ :=
  (ps.map (stake operation status part)).sum

/-- What the payments leave of the balance of an account: holds and refunds go out of it, cancelled
holds, captures and refunds into it. -/
def recordedBalance (ps : List Payment) (x : AccountId) : ℤ :=
  -total ps .authorization .approved (paidBy x) + total ps .cancel .successfulCancel (paidBy x) +
    total ps .refund .successfulRefund (paidBy x) + total ps .capture .successfulPayment (paidTo x) -
    total ps .refund .successfulRefund (paidTo x)

/-- What the payments leave blocked on an account: the holds that it takes part in, without what was
captured and cancelled of them. -/
def recordedBlocked (ps : List Payment) (x : AccountId) : ℤ :=
  total ps .authorization .approved (involves x) - total ps .capture .successfulPayment (involves x) -
    total ps .cancel .successfulCancel (involves x)

section Totals
variable {p : Payment} {ps : List Payment} {x : AccountId}

@[simp] theorem total_nil (operation : Operation) (status : PaymentStatus) (part : Payment → Bool) :
    total [] operation status part = 0 := rfl

@[simp] theorem total_cons (p : Payment) (ps : List Payment) (operation : Operation)
    (status : PaymentStatus) (part : Payment → Bool) :
    total (p :: ps) operation status part =
      stake operation status part p + total ps operation status part := rfl

theorem total_singleton (p : Payment) (operation : Operation) (status : PaymentStatus)
    (part : Payment → Bool) : total [p] operation status part = stake operation status part p :=
  add_zero _

theorem stake_of_status_ne {operation : Operation} {status : PaymentStatus} (part : Payment → Bool)
    (h : p.status ≠ status) : stake operation status part p = 0 :=
  if_neg fun hp => h hp.2.1

theorem recordedBalance_cons (p : Payment) (ps : List Payment) (x : AccountId) :
    recordedBalance (p :: ps) x = recordedBalance [p] x + recordedBalance ps x := by
  simp only [recordedBalance, total_cons, total_nil]
  omega

theorem recordedBlocked_cons (p : Payment) (ps : List Payment) (x : AccountId) :
    recordedBlocked (p :: ps) x = recordedBlocked [p] x + recordedBlocked ps x := by
  simp only [recordedBlocked, total_cons, total_nil]
  omega

namespace Payment

/-- What a payment does to an account that pays, to one that is paid and to any other. -/
theorem effect_apply (p : Payment) (x : AccountId) :
    p.effect x = (if p.customer = x then (p.status.settlement p.amount.units).1 else 0) +
      if p.merchant = x then (p.status.settlement p.amount.units).2 else 0 := by
  simp only [effect, Pi.add_apply, Pi.single_apply, eq_comm]

theorem settlement_of_isSoft {status : PaymentStatus} (h : status.isSoft = true) (amount : ℤ) :
    status.settlement amount = 0 := by
  cases status <;> first | rfl | cases h

theorem stake_of_isSoft (h : p.status.isSoft = true) (operation : Operation)
    (part : Payment → Bool) : stake operation operation.settled part p = 0 := by
  refine stake_of_status_ne part fun hstatus => ?_
  rw [hstatus] at h
  cases operation <;> cases h

/-- **A payment that was recorded by the rules counts in the sums for what it does.** -/
theorem Regular.effect_eq (h : p.Regular) (x : AccountId) :
    p.effect x = (recordedBalance [p] x, recordedBlocked [p] x) := by
  rw [effect_apply]
  simp only [recordedBalance, recordedBlocked, total_cons, total_nil]
  rcases h.status with hsoft | hsettled
  · have hauthorization := fun part => stake_of_isSoft hsoft .authorization part
    have hcapture := fun part => stake_of_isSoft hsoft .capture part
    have hcancel := fun part => stake_of_isSoft hsoft .cancel part
    have hrefund := fun part => stake_of_isSoft hsoft .refund part
    simp only [Operation.settled] at hauthorization hcapture hcancel hrefund
    rw [settlement_of_isSoft hsoft]
    simp [hauthorization, hcapture, hcancel, hrefund, Prod.ext_iff]
  · -- no account is on both sides, so one part of the effect counts at most
    by_cases hpays : p.customer = x
    · have hpaid : p.merchant ≠ x := fun hx => h.accounts (hpays.trans hx.symm)
      cases hoperation : p.operation <;> rw [hoperation] at hsettled <;>
        simp [stake, paidBy, paidTo, involves, PaymentStatus.settlement, Operation.settled,
          hoperation, hsettled, hpays, hpaid]
    · by_cases hpaid : p.merchant = x
      · cases hoperation : p.operation <;> rw [hoperation] at hsettled <;>
          simp [stake, paidBy, paidTo, involves, PaymentStatus.settlement, Operation.settled,
            hoperation, hsettled, hpays, hpaid]
      · simp [stake, paidBy, paidTo, involves, hpays, hpaid, Prod.ext_iff]

end Payment

/-- **What payments do to an account comes to the sums.** -/
theorem sum_effect (h : ∀ p ∈ ps, p.Regular) (x : AccountId) :
    (ps.map fun p => p.effect x).sum = (recordedBalance ps x, recordedBlocked ps x) := by
  induction ps with
  | nil => rfl
  | cons p rest ih =>
    have hp := (h p List.mem_cons_self).effect_eq x
    have hrest := ih fun q hq => h q (List.mem_cons_of_mem _ hq)
    rw [List.map_cons, List.sum_cons, hp, hrest, recordedBalance_cons p rest,
      recordedBlocked_cons p rest]
    rfl

end Totals

/-! ## Recorded decisions -/

/-- What an instruction records is regular, if what it refers to is. -/
theorem Instruction.Decides.regular {instruction : Instruction} {found : Option Payment}
    {d : Decision} (h : instruction.Decides found d) (hfound : ∀ q, found = some q → q.Regular)
    (id : PaymentId) (now : Timestamp) : (d.row.recorded id now).Regular := by
  cases instruction with
  | authorize request =>
    obtain ⟨hne, c, m, hc, hm, hd⟩ := h
    obtain ⟨status, hrow, hstatus⟩ := decideAuthorization_row hd
    rw [hrow]
    constructor
    · intro hsame
      have hsame : c.id = m.id := hsame
      exact hne (hm.symm.trans (hsame.symm.trans hc))
    · rcases hstatus with rfl | rfl | rfl
      · exact Or.inl rfl
      · exact Or.inl rfl
      · exact Or.inr rfl
  | react reaction name amount =>
    obtain ⟨q, hq, -, -, c, m, -, -, hd⟩ := h
    obtain ⟨status, hrow, hstatus⟩ := reaction.decide_row hd
    rw [hrow]
    constructor
    · exact (hfound q hq).accounts
    · rcases hstatus with rfl | rfl
      · exact Or.inl rfl
      · exact Or.inr reaction.settled_operation.symm

end CardHolds

import CardHolds.Proofs.Engine.Reconciliation

/-!
# What is drawn on a payment

Captures and cancels draw on an authorization, and refunds on a capture.  A call compares its amount
with that of the payment it refers to, but what has been drawn before shows only in the blocked money
of the two accounts, or in the balance of the merchant, which all their payments share.

So a payment is drawn on for no more than it is worth just as long as what an account holds covers
everything else that is held there (`System.drawn_le_iff`).  Otherwise the hold of another
authorization, or other money of the merchant, has paid for what was drawn on this one too often
(`Overdraft`).
-/

namespace CardHolds

open Payment (involves paidBy paidTo stake)
open PaymentRow (ReadAs)

/-- The operation that a reaction reacts to. -/
def Reaction.predecessor : Reaction → Operation
  | capture => .authorization
  | cancel => .authorization
  | refund => .capture

theorem Reaction.accepts_iff (reaction : Reaction) (p : Payment) :
    accepts p reaction.operation = true ↔
      p.operation = reaction.predecessor ∧ p.status = reaction.predecessor.settled := by
  cases reaction <;> simp [accepts, requiredPredecessor, operation, predecessor, Operation.settled]

theorem Reaction.operation_injective : Function.Injective Reaction.operation := by
  intro r r' h
  cases r <;> cases r' <;> first | rfl | cases h

theorem Reaction.settled_ne_invalidTransaction (reaction : Reaction) :
    PaymentStatus.invalidTransaction ≠ reaction.settled := by
  cases reaction <;> exact PaymentStatus.noConfusion

namespace Instruction
variable {instruction : Instruction} {found : Option Payment} {d : Decision}

theorem Decides.operation_react {r : Reaction} {name : PaymentId} {amount : Amount}
    (h : (react r name amount).Decides found d) : d.row.operation = r.operation := by
  obtain ⟨q, -, -, -, customer, merchant, -, -, hdecide⟩ := h
  obtain ⟨status, hrow, -⟩ := r.decide_row hdecide
  rw [hrow]
  rfl

/-- The row of a reaction refers to the payment that was found. -/
theorem Decides.reacts (h : instruction.Decides found d) {reaction : Reaction}
    (hoperation : d.row.operation = reaction.operation) :
    ∃ q amount status, found = some q ∧ instruction = .react reaction q.id amount ∧
      accepts q reaction.operation = true ∧
        d.row = .reactingTo q reaction.operation status amount := by
  cases instruction with
  | authorize request =>
    obtain ⟨-, customer, merchant, -, -, hdecide⟩ := h
    obtain ⟨status, hrow, -⟩ := decideAuthorization_row hdecide
    rw [hrow] at hoperation
    cases reaction <;> cases hoperation
  | react r name amount =>
    have hr : r = reaction := Reaction.operation_injective (h.operation_react.symm.trans hoperation)
    subst hr
    obtain ⟨q, hq, rfl, haccepts, customer, merchant, -, -, hdecide⟩ := h
    obtain ⟨status, hrow, -⟩ := r.decide_row hdecide
    exact ⟨q, amount, status, hq, rfl, haccepts, hrow⟩

end Instruction

/-! ## Payments that moved money -/

/-- The payments of the given operation that moved money and in which an account takes the given
part. -/
def settledOf (ps : List Payment) (operation : Operation) (part : Payment → Bool) : Finset Payment :=
  ps.toFinset.filter fun p => p.operation = operation ∧ p.status = operation.settled ∧ part p

theorem mem_settledOf {ps : List Payment} {operation : Operation} {part : Payment → Bool}
    {p : Payment} : p ∈ settledOf ps operation part ↔
      p ∈ ps ∧ p.operation = operation ∧ p.status = operation.settled ∧ part p = true := by
  rw [settledOf, Finset.mem_filter, List.mem_toFinset]

theorem total_eq_sum {ps : List Payment} (nodup : ps.Nodup) (operation : Operation)
    (part : Payment → Bool) :
    total ps operation operation.settled part =
      ∑ p ∈ settledOf ps operation part, (p.amount.units : ℤ) := by
  rw [settledOf, Finset.sum_filter, List.sum_toFinset _ nodup]
  rfl

/-! ## Drawing -/

namespace Caller
variable {c : Caller} {e : Engine}

/-- The amount that the call has drawn on the payment of the given name by the given reaction. -/
def drew (c : Caller) (reaction : Reaction) (id : PaymentId) : ℤ :=
  match c.instruction, c.result? with
  | .react r name amount, some (.ok outcome) =>
    if r = reaction ∧ name = id ∧ outcome.status = reaction.settled then amount.units else 0
  | _, _ => 0

theorem drew_of_result_ne {reaction : Reaction} (id : PaymentId)
    (h : ∀ outcome, c.result? = some (.ok outcome) → outcome.status ≠ reaction.settled) :
    c.drew reaction id = 0 := by
  unfold drew
  split
  · rename_i r name amount outcome _ hresult
    exact if_neg fun hp => h outcome hresult hp.2.2
  · rfl

/-- A call that has ended has drawn on the payment that it found and recorded this, or has neither
drawn nor recorded a drawing. -/
theorem Kept.drew_cases (h : c.Kept e) (ended : c.result?.isSome = true) (reaction : Reaction) :
    ((∀ id, c.drew reaction id = 0) ∧
      ∀ part, total c.book.log.committed reaction.operation reaction.settled part = 0) ∨
    ∃ q amount id now, c.book.log.found = some q ∧ accepts q reaction.operation = true ∧
      (∀ name, c.drew reaction name = if q.id = name then (amount.units : ℤ) else 0) ∧
      c.book.log.committed =
        [(NewPayment.reactingTo q reaction.operation reaction.settled amount).recorded id now] := by
  obtain ⟨result, hresult⟩ := Option.isSome_iff_exists.mp ended
  have hconcludes := h.concludes hresult
  cases result with
  | error error =>
    left
    refine ⟨fun id => drew_of_result_ne id fun outcome ho => ?_, fun part => ?_⟩
    · rw [hresult] at ho
      cases ho
    · rw [hconcludes.1]
      rfl
  | ok outcome =>
    rcases hconcludes with ⟨d, p, hd, ⟨id, now, rfl⟩, rfl, hcommitted, -⟩ | ⟨hstatus, hnone, -⟩
    · rw [hcommitted]
      by_cases hdraws : d.row.operation = reaction.operation ∧ d.row.status = reaction.settled
      · right
        obtain ⟨q, amount, status, hq, hinstruction, haccepts, hrow⟩ := hd.reacts hdraws.1
        have hstatus : status = reaction.settled := by
          have hsettled := hdraws.2
          rw [hrow] at hsettled
          exact hsettled
        refine ⟨q, amount, id, now, hq, haccepts, fun name => ?_, by rw [hrow, hstatus]⟩
        unfold drew
        rw [hinstruction, hresult]
        exact if_congr ⟨fun h => h.2.1, fun h => ⟨rfl, h, hdraws.2⟩⟩ rfl rfl
      · left
        refine ⟨fun name => ?_, fun part => ?_⟩
        · unfold drew
          split
          · rename_i r _ amount outcome hinstruction houtcome
            rw [hresult] at houtcome
            cases houtcome
            rw [hinstruction] at hd
            refine if_neg fun hdrew => hdraws ⟨?_, hdrew.2.2⟩
            rw [hd.operation_react, hdrew.1]
          · rfl
        · rw [total_singleton]
          exact if_neg fun hstake => hdraws ⟨hstake.1, hstake.2.1⟩
    · left
      refine ⟨fun id => drew_of_result_ne id fun outcome' ho => ?_, fun part => ?_⟩
      · rw [hresult] at ho
        cases ho
        rw [hstatus]
        exact reaction.settled_ne_invalidTransaction
      · rw [hnone]
        rfl

end Caller

namespace System
variable {ι κ : Type} [Fintype ι] [Fintype κ] {s : System ι κ} {e : Engine}

/-- What has been drawn altogether on the payment of the given name by the given reaction. -/
def drawn (s : System ι κ) (reaction : Reaction) (id : PaymentId) : ℤ :=
  ∑ k, (s.callers k).drew reaction id

/-- What an authorization still holds. -/
def onHold (s : System ι κ) (p : Payment) : ℤ :=
  p.amount.units - s.drawn .capture p.id - s.drawn .cancel p.id

/-- What is left of a capture. -/
def refundable (s : System ι κ) (p : Payment) : ℤ := p.amount.units - s.drawn .refund p.id

/-- What is blocked on an account for anything but the authorization: what other authorizations hold
there, and what failed calls have left. -/
def otherHolds (s : System ι κ) (ps : List Payment) (p : Payment) (x : AccountId) : ℤ :=
  ∑ q ∈ (settledOf ps .authorization (involves x)).erase p, s.onHold q + (s.left x).2

/-- What the balance of an account consists of beside the capture: deposits, what it pays as a
customer, what is left of other captures, and what failed calls have left. -/
def otherFunds (s : System ι κ) (ps : List Payment) (p : Payment) (x : AccountId) : ℤ :=
  ∑ k, ((s.depositors k).credited x).1 - total ps .authorization .approved (paidBy x) +
    total ps .cancel .successfulCancel (paidBy x) + total ps .refund .successfulRefund (paidBy x) +
      ∑ q ∈ (settledOf ps .capture (paidTo x)).erase p, s.refundable q + (s.left x).1

omit [Fintype κ] in
/-- No two payments have the same name. -/
theorem Logged.nodup_ids {ps : List Payment} (h : s.Logged ps) : (ps.map Payment.id).Nodup :=
  h.read.nodup_ids

omit [Fintype κ] in
theorem Logged.nodup {ps : List Payment} (h : s.Logged ps) : ps.Nodup := .of_map _ h.nodup_ids

/-- **What reactions have recorded, they have drawn on payments of the log**, in which the same
accounts take part. -/
theorem Balanced.total_eq_sum_drawn (h : s.Balanced e) {ps : List Payment} (logged : s.Logged ps)
    (ended : ∀ k, (s.callers k).result?.isSome = true) (reaction : Reaction) {part : Payment → Bool}
    (hpart : ∀ p q : Payment, p.customer = q.customer → p.merchant = q.merchant → part p = part q) :
    total ps reaction.operation reaction.settled part =
      ∑ q ∈ settledOf ps reaction.predecessor part, s.drawn reaction q.id := by
  have hcalls : ∑ q ∈ settledOf ps reaction.predecessor part, s.drawn reaction q.id =
      ∑ k, ∑ q ∈ settledOf ps reaction.predecessor part, (s.callers k).drew reaction q.id :=
    Finset.sum_comm
  rw [hcalls, total, sum_map_committed logged.committed]
  refine Finset.sum_congr rfl fun k _ => ?_
  show total (s.callers k).book.log.committed reaction.operation reaction.settled part = _
  rcases (h.callers k).drew_cases (ended k) reaction with
    ⟨hnothing, hnone⟩ | ⟨q, amount, id, now, hfound, haccepts, hdrew, hcommitted⟩
  · rw [hnone, Finset.sum_eq_zero fun q _ => hnothing q.id]
  · obtain ⟨row, hrow, hread⟩ := h.found k q hfound
    have hq : q ∈ ps := logged.read.mem_of_read hrow hread
    have hkind := (reaction.accepts_iff q).mp haccepts
    have hsame : part ((NewPayment.reactingTo q reaction.operation reaction.settled amount).recorded
        id now) = part q := hpart _ _ rfl rfl
    have hstake : total (s.callers k).book.log.committed reaction.operation reaction.settled part =
        if part q then (amount.units : ℤ) else 0 := by
      rw [hcommitted, total_singleton, ← hsame]
      exact if_congr ⟨fun h => h.2.2, fun h => ⟨rfl, rfl, h⟩⟩ rfl rfl
    -- the name stands for one payment only
    have hdrawn : ∀ q' ∈ settledOf ps reaction.predecessor part,
        (s.callers k).drew reaction q'.id = if q = q' then (amount.units : ℤ) else 0 := by
      intro q' hq'
      rw [hdrew]
      refine if_congr ⟨fun hid => ?_, congrArg Payment.id⟩ rfl rfl
      exact List.inj_on_of_nodup_map logged.nodup_ids hq (mem_settledOf.mp hq').1 hid
    rw [hstake, Finset.sum_congr rfl hdrawn, Finset.sum_ite_eq]
    refine if_congr ?_ rfl rfl
    exact ⟨fun hp => mem_settledOf.mpr ⟨hq, hkind.1, hkind.2, hp⟩, fun hp => (mem_settledOf.mp hp).2.2.2⟩

/-- What is blocked on an account is what authorizations still hold there, and what failed calls have
left. -/
theorem Balanced.blocked_eq_onHold (h : s.Balanced e) (fresh : e.Fresh) {ps : List Payment}
    (logged : s.Logged ps) (ended : ∀ k, (s.callers k).result?.isSome = true) {x : AccountId}
    {a : Account} (ha : s.engine.ledger.account x = .ok a) :
    (a.blocked.units : ℤ) =
      ∑ q ∈ settledOf ps .authorization (involves x), s.onHold q + (s.left x).2 := by
  have hpart : ∀ p q : Payment, p.customer = q.customer → p.merchant = q.merchant →
      involves x p = involves x q := by
    intro p q hc hm
    rw [involves, involves, paidBy, paidBy, paidTo, paidTo, hc, hm]
  have happroved := total_eq_sum logged.nodup .authorization (involves x)
  have hcaptured := h.total_eq_sum_drawn logged ended .capture hpart
  have hcancelled := h.total_eq_sum_drawn logged ended .cancel hpart
  simp only [Operation.settled, Reaction.operation, Reaction.settled, Reaction.predecessor]
    at happroved hcaptured hcancelled
  rw [h.blocked_eq fresh logged ha, recordedBlocked, happroved, hcaptured, hcancelled,
    ← Finset.sum_sub_distrib, ← Finset.sum_sub_distrib]
  rfl

/-- The balance of an account consists of deposits, of what it has paid as a customer, of what is left
of its captures, and of what failed calls have left. -/
theorem Balanced.balance_eq_refundable (h : s.Balanced e) (fresh : e.Fresh) {ps : List Payment}
    (logged : s.Logged ps) (ended : ∀ k, (s.callers k).result?.isSome = true) {x : AccountId}
    {a : Account} (ha : s.engine.ledger.account x = .ok a) :
    (a.balance.units : ℤ) =
      ∑ k, ((s.depositors k).credited x).1 - total ps .authorization .approved (paidBy x) +
        total ps .cancel .successfulCancel (paidBy x) +
          total ps .refund .successfulRefund (paidBy x) +
            ∑ q ∈ settledOf ps .capture (paidTo x), s.refundable q + (s.left x).1 := by
  have hpart : ∀ p q : Payment, p.customer = q.customer → p.merchant = q.merchant →
      paidTo x p = paidTo x q := by
    intro p q _ hm
    rw [paidTo, paidTo, hm]
  have hpaid := total_eq_sum logged.nodup .capture (paidTo x)
  have hrefunded := h.total_eq_sum_drawn logged ended .refund hpart
  simp only [Operation.settled, Reaction.operation, Reaction.settled, Reaction.predecessor]
    at hpaid hrefunded
  have hrefundable : ∑ q ∈ settledOf ps .capture (paidTo x), s.refundable q =
      total ps .capture .successfulPayment (paidTo x) -
        total ps .refund .successfulRefund (paidTo x) := by
    rw [hpaid, hrefunded, ← Finset.sum_sub_distrib]
    rfl
  rw [h.balance_eq fresh logged ha, recordedBalance, hrefundable]
  omega

/-- No authorization of the log has had more captured and cancelled than it was approved for just as
long as the blocked money of its accounts covers all else that is blocked there. -/
theorem Balanced.captured_le_iff (h : s.Balanced e) (fresh : e.Fresh) {ps : List Payment}
    (logged : s.Logged ps) (ended : ∀ k, (s.callers k).result?.isSome = true) {p : Payment}
    (hp : p ∈ ps) (operation : p.operation = .authorization) (status : p.status = .approved)
    {x : AccountId} (hx : involves x p = true) {a : Account}
    (ha : s.engine.ledger.account x = .ok a) :
    s.drawn .capture p.id + s.drawn .cancel p.id ≤ p.amount.units ↔
      s.otherHolds ps p x ≤ a.blocked.units := by
  have hmem : p ∈ settledOf ps .authorization (involves x) :=
    mem_settledOf.mpr ⟨hp, operation, status, hx⟩
  have hsplit := Finset.add_sum_erase _ s.onHold hmem
  rw [h.blocked_eq_onHold fresh logged ended ha, ← hsplit, onHold, otherHolds]
  omega

/-- The same for captures and refunds, and the balance of the merchant. -/
theorem Balanced.refunded_le_iff (h : s.Balanced e) (fresh : e.Fresh) {ps : List Payment}
    (logged : s.Logged ps) (ended : ∀ k, (s.callers k).result?.isSome = true) {p : Payment}
    (hp : p ∈ ps) (operation : p.operation = .capture) (status : p.status = .successfulPayment)
    {a : Account} (ha : s.engine.ledger.account p.merchant = .ok a) :
    s.drawn .refund p.id ≤ p.amount.units ↔ s.otherFunds ps p p.merchant ≤ a.balance.units := by
  have hmem : p ∈ settledOf ps .capture (paidTo p.merchant) :=
    mem_settledOf.mpr ⟨hp, operation, status, decide_eq_true rfl⟩
  have hsplit := Finset.add_sum_erase _ s.refundable hmem
  rw [h.balance_eq_refundable fresh logged ended ha, ← hsplit, refundable, otherFunds]
  omega

section Runs
variable [DecidableEq ι] [DecidableEq κ]

/-- **When a payment has been drawn on for no more than it is worth**: whenever what an account holds
covers what anything else has to hold there. -/
theorem drawn_le_iff (fresh : e.Fresh) (instructions : ι → Instruction) {faults : ι → Interference}
    (clean : ∀ k, (faults k).FailsCleanly) (deposits : κ → String × Amount)
    (schedule : List (Action ι κ)) :
    let s := (start e instructions faults deposits).run schedule
    (∀ k, (s.callers k).result?.isSome = true) → ∃ ps, ReadAs s.engine.log.rows.rows ps ∧
      (∀ p ∈ ps, p.operation = .authorization → p.status = .approved →
        ∀ x a, involves x p = true → s.engine.ledger.account x = .ok a →
          (s.drawn .capture p.id + s.drawn .cancel p.id ≤ p.amount.units ↔
            s.otherHolds ps p x ≤ a.blocked.units)) ∧
      ∀ p ∈ ps, p.operation = .capture → p.status = .successfulPayment →
        ∀ a, s.engine.ledger.account p.merchant = .ok a →
          (s.drawn .refund p.id ≤ p.amount.units ↔
            s.otherFunds ps p p.merchant ≤ a.balance.units) := by
  intro s ended
  have hbalanced : s.Balanced e := balanced_run e instructions clean deposits schedule
  have hregular : s.LogRegular := logRegular_run fresh instructions clean deposits schedule
  obtain ⟨ps, logged⟩ := hbalanced.exists_logged fresh hregular
  refine ⟨ps, logged.read, ?_, ?_⟩
  · intro p hp operation status x a hx ha
    exact hbalanced.captured_le_iff fresh logged ended hp operation status hx ha
  · intro p hp operation status a ha
    exact hbalanced.refunded_le_iff fresh logged ended hp operation status ha

end Runs

end System

/-! ## A hold that pays for another -/

namespace Overdraft

open Sample

/-- Two holds of a hundred units each, and sixty units captured of the first one, twice. -/
def instruction (k : Fin 4) : Instruction :=
  match k with
  | 0 => .authorize (request (units 100))
  | 1 => .authorize (request (units 100))
  | 2 => .react .capture (Mint.unary.paymentId 0) (units 60)
  | 3 => .react .capture (Mint.unary.paymentId 0) (units 60)

/-- Nothing goes wrong. -/
def faults (_ : Fin 4) : Interference := .ofFaults []

def deposit (_ : Fin 1) : String × Amount := (card.number, units 200)

/-- One after the other. -/
def schedule : List (Action (Fin 4) (Fin 1)) :=
  [.openAccount customerDetails, .openAccount merchantDetails] ++
    (List.finRange 1).flatMap (fun k => List.replicate 2 (.deposit k)) ++
    (List.finRange 4).flatMap fun k => List.replicate 20 (.call k)

def after : System (Fin 4) (Fin 1) :=
  (System.start { mint := .unary } instruction faults deposit).run schedule

/-- A hundred and twenty units have been captured of a hundred.  The other authorization holds a
hundred still, of which only eighty are blocked. -/
theorem drawn_le_iff_overdraft :
    ({ mint := .unary } : Engine).Fresh ∧ (∀ k, (faults k).FailsCleanly) ∧
      (∀ k, (after.callers k).result?.isSome = true) ∧
      (∃ ps, ReadAs after.engine.log.rows.rows ps ∧
        ∀ p ∈ ps, p.operation = .authorization → p.status = .approved →
          ∀ x a, involves x p = true → after.engine.ledger.account x = .ok a →
            (after.drawn .capture p.id + after.drawn .cancel p.id ≤ p.amount.units ↔
              after.otherHolds ps p x ≤ a.blocked.units)) ∧
      (findPayment after.engine.log.rows (Mint.unary.paymentId 0)).map
        (Option.map fun p => (p.operation, p.status, p.amount.units)) =
          .ok (some (.authorization, .approved, 100)) ∧
      after.drawn .capture (Mint.unary.paymentId 0) = 120 ∧
      after.engine.ledger.store.holdings customer = (0, 80) := by
  have fresh : ({ mint := .unary } : Engine).Fresh := ⟨rfl, rfl⟩
  have clean : ∀ k, (faults k).FailsCleanly := fun _ =>
    Interference.failsCleanly_ofFaults fun _ hf => absurd hf List.not_mem_nil
  have ended : ∀ k, (after.callers k).result?.isSome = true := by decide +kernel
  refine ⟨fresh, clean, ended, ?_, by decide +kernel, by decide +kernel, by decide +kernel⟩
  unfold after at ended ⊢
  obtain ⟨ps, hread, hcaptured, -⟩ :=
    System.drawn_le_iff fresh instruction clean deposit schedule ended
  exact ⟨ps, hread, hcaptured⟩

end Overdraft

end CardHolds

import CardHolds.Proofs.Engine.Readable
import CardHolds.Proofs.Engine.Undisturbed

/-!
# Quantities at the limits

A call plans in unsigned numbers of 64 bits, and the ledger stores signed ones.  So two limits are met
in different places.  A quantity that would fall below zero is met in the planning: the call fails
before anything is sent to the ledger.  A quantity of 2 ^ 63 or more is met by the ledger: it refuses
the move of that account, and what was already carried out for the customer is taken back, so that
every quantity is as before and the version of the customer is two higher (`Engine.StopsOutOfRange`).

The limit of the unsigned numbers is never met, because what is stored is below 2 ^ 63, and so are the
amounts that come to a plan.

Main statement: `Engine.out_of_range`.
-/

namespace CardHolds

open Execution (answer)
open CardHolds.Flow (Task)
open Program

/-! ## Planned quantities that are too large -/

section TooLarge
variable {c m : Account} {row : NewPayment} {mv mc mm : BalanceMove} {a : Account} {p : Planned}
  {l : Ledger}

/-- The ledger refuses a move for the first quantity that it cannot hold. -/
theorem BalanceMove.PlannedOn.updateBalance_tooLarge (hp : mv.PlannedOn a)
    (h : tooLarge? (a.planned mv.delta) = some p) :
    ∃ v : Amount, v.units = p.value ∧ ∀ l : Ledger, l.closed = false →
      l.updateBalance mv.account mv.forward =
        (.error (.conversion (.quantity (.tooLarge v))), l) := by
  rw [tooLarge?_planned, hp.held_add_delta] at h
  split at h
  · rename_i hbalance
    cases h
    exact ⟨mv.newBalance, rfl, fun l hopen =>
      Ledger.updateBalance_tooLarge hopen (Or.inl ⟨by omega, rfl⟩) _ _⟩
  · rename_i hbalance
    split at h
    · rename_i hblocked
      cases h
      exact ⟨mv.newBlocked, rfl, fun l hopen =>
        Ledger.updateBalance_tooLarge hopen (Or.inr ⟨by omega, by omega, rfl⟩) _ _⟩
    · cases h

theorem BalanceMove.PlannedOn.toStorable (hp : mv.PlannedOn a)
    (h : tooLarge? (a.planned mv.delta) = none) : mv.ToStorable :=
  hp.toStorable_of_mem fun p hmem =>
    not_le.mp (of_decide_eq_false (Bool.eq_false_iff.mpr (List.find?_eq_none.mp h p hmem)))

/-- The quantities of the customer come first. -/
theorem tooLarge?_settledBy (h : SettledBy c m row mc mm) : tooLarge? (planned c m row) =
    (tooLarge? (c.planned mc.delta)).or (tooLarge? (m.planned mm.delta)) := by
  rw [h.customer_delta, h.merchant_delta]
  exact List.find?_append

/-- What is left on the ledger of two moves one of which it cannot hold, where the first of them was to
change the customer. -/
structure Ledger.GivesUp (l : Ledger) (c : Account) (change : Delta) (l' : Ledger) : Prop where
  of_customer : tooLarge? (c.planned change) ≠ none → l' = l
  /-- It is the second one: the move of the customer was carried out and taken back. -/
  of_merchant : tooLarge? (c.planned change) = none →
    l.Replaces { c with version := c.version + 2 } l'

theorem Saga.run_tooLarge (hread : l.account c.id = .ok c) (hc : c.Storable)
    (h : SettledBy c m row mc mm) (hp : tooLarge? (planned c m row) = some p)
    (hv : tooLarge? (c.planned mc.delta) = none → c.version.toInt + 2 < 2 ^ 63) :
    ∃ v : Amount, v.units = p.value ∧ ∃ saga l₁ l₂,
      (({} : Saga).applyAll [mc, mm]).run Ledger.answer l =
          ((.error (.conversion (.quantity (.tooLarge v))), saga), l₁) ∧
        saga.compensate.run Ledger.answer l₁ = ([], l₂) ∧ l.GivesUp c mc.delta l₂ := by
  have hopen := Ledger.open_of_account hread
  rw [tooLarge?_settledBy h] at hp
  cases hcustomer : tooLarge? (c.planned mc.delta) with
  | some p' =>
    rw [hcustomer, Option.some_or] at hp
    cases hp
    obtain ⟨v, hvalue, hrefused⟩ := h.customer_planned.updateBalance_tooLarge hcustomer
    refine ⟨v, hvalue, {}, l, l, Saga.run_applyAll_of_error (hrefused l hopen), rfl,
      fun _ => rfl, fun hnone => ?_⟩
    cases hcustomer.symm.trans hnone
  | none =>
    rw [hcustomer, Option.none_or] at hp
    obtain ⟨v, hvalue, hrefused⟩ := h.merchant_planned.updateBalance_tooLarge hp
    have hv := hv hcustomer
    obtain ⟨l₁, hupdate, hreplaces⟩ := Ledger.updateBalance_forward hread h.customer_planned
      (h.customer_planned.toStorable hcustomer) (by omega)
    -- the account of the customer is as the move has left it
    have haccount : l₁.account c.id = .ok (mc.result c) := hreplaces.account_self rfl
    rw [← h.customer_planned.account] at haccount
    have hversion : (mc.result c).version.toInt = c.version.toInt + 1 :=
      Int64.toInt_add_one (by omega)
    obtain ⟨l₂, hundo, hreplaces'⟩ := BalanceMove.run_undo haccount rfl rfl
      (h.customer_planned.fromStorable hc) (by omega) 4
    have hresult : (mc.result c).write mc.oldBalance mc.oldBlocked =
        { c with version := c.version + 2 } := by
      rw [h.customer_planned.balance, h.customer_planned.blocked]
      simp only [BalanceMove.result, Account.write, Int64.add_assoc]
      rfl
    rw [hresult] at hreplaces'
    refine ⟨v, hvalue, { applied := [mc] }, l₁, l₂, ?_, Saga.run_compensate_singleton hundo,
      fun hsome => absurd hcustomer hsome, fun _ => hreplaces.trans hreplaces' rfl⟩
    rw [Saga.run_applyAll_of_ok hupdate]
    exact Saga.run_applyAll_of_error (hrefused l₁ (hreplaces.closed.trans hopen))

end TooLarge

/-! ## Whole calls -/

/-- No update was sent to the ledger. -/
def Execution.SendsNoUpdate (x : Execution) : Prop :=
  ∀ id u error, Occurrence.ledger (.updateBalance id u) error ∉ x.history

/-- How a call ends whose plan goes out of range: from a customer and a merchant as they were read, and
with the row that it was about to record. -/
structure Engine.StopsOutOfRange (e : Engine) (c m : Account) (row : NewPayment)
    (outcome : Except FlowError PaymentOutcome × Execution) : Prop where
  /-- Some quantity would fall below zero. -/
  below : ∀ p, belowZero? (planned c m row) = some p →
    outcome.1 = .error (.move (.underflow p.account p.quantity row.amount)) ∧
      outcome.2.engine = e ∧ outcome.2.SendsNoUpdate
  /-- None would, but some quantity is more than the ledger can hold. -/
  tooLarge : ∀ p, belowZero? (planned c m row) = none → tooLarge? (planned c m row) = some p →
    (tooLarge? (c.planned (row.status.settlement row.amount.units).1) = none →
      c.version.toInt + 2 < 2 ^ 63) →
    ∃ v : Amount, v.units = p.value ∧
      outcome.1 = .error (.ledger (.conversion (.quantity (.tooLarge v)))) ∧
      ∃ l, outcome.2.engine = { e with ledger := l } ∧
        e.ledger.GivesUp c (row.status.settlement row.amount.units).1 l

namespace Flow.Task
variable {t : Task} {x : Execution} {c m : Account} {row : NewPayment}

/-- A call that cannot be planned ends without having sent anything but two readings. -/
theorem run_attempt_of_impossible {error : MoveError}
    (hcustomer : x.engine.ledger.account t.customer = .ok c)
    (hmerchant : x.engine.ledger.account t.merchant = .ok m) (hd : t.decide c m = .error error) :
    ∃ y, t.attempt.run (answer .undisturbed) x = (.failed (.move error), y) ∧
      y.engine = x.engine ∧ y.history = x.history ++
        [.ledger (.account t.customer) none, .ledger (.account t.merchant) none] := by
  have hread : ∀ (x : Execution) id a, x.engine.ledger.account id = .ok a →
      ∃ y, (Ask.account id).onLedger.run (answer .undisturbed) x = (.ok a, y) ∧
        y.engine = x.engine ∧ y.history = x.history ++ [.ledger (.account id) none] := by
    intro x id a ha
    refine ⟨x.note (.ledger (.account id) none), ?_, rfl, rfl⟩
    show (x.engine.ledger.account id,
      x.note (.ledger (.account id) (errorOf (x.engine.ledger.account id)))) = _
    rw [ha]
    rfl
  obtain ⟨x₁, hread₁, hengine₁, hhistory₁⟩ := hread x t.customer c hcustomer
  rw [← hengine₁] at hmerchant
  obtain ⟨x₂, hread₂, hengine₂, hhistory₂⟩ := hread x₁ t.merchant m hmerchant
  refine ⟨x₂, ?_, hengine₂.trans hengine₁, by rw [hhistory₂, hhistory₁, List.append_assoc]; rfl⟩
  unfold attempt Flow.attempt
  rw [run_bind_of hread₁]
  simp only
  rw [run_bind_of hread₂]
  simp only [hd]
  rfl

/-- **A call whose decision settles its row stops out of range.** -/
theorem stopsOutOfRange_program (hopen : x.engine.log.closed = false) (hsilent : x.SendsNoUpdate)
    (hcustomer : x.engine.ledger.account t.customer = .ok c)
    (hmerchant : x.engine.ledger.account t.merchant = .ok m) (hc : c.Storable)
    (hsettles : Settles c m row (t.decide c m)) (retries : Nat) :
    x.engine.StopsOutOfRange c m row ((t.program retries).run (answer .undisturbed) x) := by
  cases hd : t.decide c m with
  | error error =>
    rw [hd] at hsettles
    obtain ⟨y, hattempt, hengine, hhistory⟩ := run_attempt_of_impossible hcustomer hmerchant hd
    rw [run_program_of_failed hattempt]
    cases hsettles with
    | impossible hfirst =>
      refine ⟨fun p hp => ?_, fun p hnone => ?_⟩
      · cases hfirst.symm.trans hp
        refine ⟨rfl, hengine, fun id u error hmem => ?_⟩
        rw [hhistory] at hmem
        simp only [List.mem_append, List.mem_cons, List.not_mem_nil, or_false] at hmem
        rcases hmem with hmem | hmem | hmem
        · exact hsilent id u error hmem
        · cases hmem
        · cases hmem
      · rw [hfirst] at hnone
        cases hnone
  | ok d =>
    rw [hd] at hsettles
    cases hsettles with
    | @possible mc mm hnone hsettled =>
      refine ⟨fun p hp => ?_, fun p _ hp hv => ?_⟩
      · rw [hnone] at hp
        cases hp
      · obtain ⟨-, -, hid, -⟩ := Ledger.account_spec hcustomer
        obtain ⟨y, hengine, -, hfailed⟩ := run_attempt hcustomer hmerchant hd
        rw [← hid] at hcustomer
        rw [← hsettled.customer_delta] at hv ⊢
        obtain ⟨v, hvalue, saga, l₁, l₂, happly, hundo, hgivesUp⟩ :=
          Saga.run_tooLarge hcustomer hc hsettled hp hv
        rw [← hengine] at hopen happly ⊢
        obtain ⟨z, hexecute, hz⟩ := Execution.run_execute_of_unapplied
          (d := .settled row mc mm) hopen happly hundo
        rw [run_program_of_failed (hfailed _ _ hexecute rfl)]
        exact ⟨v, hvalue, rfl, l₂, hz, hengine ▸ hgivesUp⟩

end Flow.Task

/-- No call fails on the limit of unsigned numbers, whatever its environment does. -/
theorem Engine.never_overflows (e : Engine) (i : Interference) (instruction : Instruction)
    (id : AccountId) (q : Quantity) (amount : Amount) :
    (e.call i (instruction.program e.retries)).1 ≠ .error (.move (.overflow id q amount)) := by
  intro h
  obtain ⟨-, havoids, -⟩ := (instruction.program_avoids e.retries).run_keeps (answer i)
    (fun _ _ => True) (fun c x _ _ _ => ⟨Execution.answer_storedReadings i x c, trivial⟩)
    (x := { engine := e }) trivial
  exact Bool.noConfusion (havoids.of_error h)

theorem Instruction.Opens.stopsOutOfRange {e : Engine} {instruction : Instruction} {t : Task}
    {x : Execution} {c m : Account} {row : NewPayment} (h : instruction.Opens e .undisturbed t x)
    (hx : x.engine = e) (hopen : e.log.closed = false) (hsilent : x.SendsNoUpdate)
    (hcustomer : e.ledger.account t.customer = .ok c)
    (hmerchant : e.ledger.account t.merchant = .ok m) (hc : c.Storable)
    (hsettles : Settles c m row (t.decide c m)) :
    e.StopsOutOfRange c m row (e.call .undisturbed (instruction.program e.retries)) := by
  have hrun : e.call .undisturbed (instruction.program e.retries) =
      (t.program e.retries).run (answer .undisturbed) x := h.run_program e.retries
  rw [hrun]
  subst hx
  exact Task.stopsOutOfRange_program hopen hsilent hcustomer hmerchant hc hsettles _

/-- What a ledger shows can be stored. -/
theorem Ledger.storable_of_account {l : Ledger} {id : AccountId} {a : Account}
    (h : l.account id = .ok a) : a.Storable := by
  obtain ⟨row, -, -, -, hheld⟩ := account_spec h
  exact Account.storable_of_held hheld

namespace Engine
variable {e : Engine}

/-- A payment is looked up without an update. -/
theorem sendsNoUpdate_paymentById {id : PaymentId} {r : Except FlowError Payment} {x : Execution}
    (h : (paymentById id).run (answer .undisturbed) { engine := e } = (r, x)) : x.SendsNoUpdate := by
  have hasked : (Ask.find id).run (answer .undisturbed) ({ engine := e } : Execution) =
      (e.log.find id, Execution.note { engine := e } (.log (.find id) (errorOf (e.log.find id)))) :=
    rfl
  have hhistory : ((paymentById id).run (answer .undisturbed) ({ engine := e } : Execution)).2.history =
      [.log (.find id) (errorOf (e.log.find id))] := by
    unfold paymentById
    rw [run_bind_of hasked]
    cases e.log.find id with
    | error error => rfl
    | ok found => cases found <;> rfl
  rw [h] at hhistory
  intro id u error hmem
  rw [hhistory] at hmem
  simp at hmem

/-- **What happens at the limits.** -/
theorem out_of_range (hopen : e.log.closed = false) :
    (∀ request c m, request.merchant ≠ request.customer →
        e.ledger.account request.customer = .ok c → e.ledger.account request.merchant = .ok m →
        request.card = c.card → request.amount ≤ c.balance →
        e.StopsOutOfRange c m (authorizationRow request c m .approved)
          (e.createPayment .undisturbed request)) ∧
      (∀ reaction p amount c m, e.log.find p.id = .ok (some p) →
        accepts p reaction.operation = true →
        e.ledger.account p.customer = .ok c → e.ledger.account p.merchant = .ok m →
        amount ≤ p.amount →
        e.StopsOutOfRange c m (.reactingTo p reaction.operation reaction.settled amount)
          (e.reactToPayment .undisturbed reaction p.id amount)) ∧
      ∀ i instruction id q amount,
        (e.call i (Instruction.program e.retries instruction)).1 ≠
          .error (.move (.overflow id q amount)) := by
  refine ⟨fun request c m hne hcustomer hmerchant hcard hle => ?_,
    fun reaction p amount c m hfind haccepts hcustomer hmerchant hle => ?_, e.never_overflows⟩
  · have hopens : (Instruction.authorize request).Opens e .undisturbed
        ⟨request.customer, request.merchant, decideAuthorization request⟩ { engine := e } :=
      ⟨hne, rfl, rfl⟩
    have hc := Ledger.storable_of_account hcustomer
    exact hopens.stopsOutOfRange rfl hopen (fun _ _ _ => List.not_mem_nil) hcustomer hmerchant hc
      (decideAuthorization_settles hc (Ledger.storable_of_account hmerchant) hcard.symm hle)
  · obtain ⟨x, hrun, hengine⟩ := run_paymentById hfind
    have hopens : (Instruction.react reaction p.id amount).Opens e .undisturbed
        ⟨p.customer, p.merchant, fun customer merchant => reaction.decide p customer merchant amount⟩
        x := ⟨p, hrun, haccepts, rfl⟩
    have hc := Ledger.storable_of_account hcustomer
    obtain ⟨-, row, -, hread⟩ := PaymentLog.find_spec hfind
    exact hopens.stopsOutOfRange hengine hopen (sendsNoUpdate_paymentById hrun) hcustomer hmerchant
      hc (reaction.decide_settles hc (Ledger.storable_of_account hmerchant) hle
        (PaymentRow.amount_lt_of_read hread))

end Engine

/-! ## A merchant without room, and one without funds -/

namespace Limits

open Sample

/-- As much is blocked on the account of the merchant as the ledger can hold. -/
def brimful : Engine :=
  engine.performAll [.updateBalance merchant ⟨none, some (units (2 ^ 63 - 1)), none⟩]

/-- A capture of 40 units, of which the merchant has kept 5. -/
def spent : Engine :=
  ((engine.createPayment .undisturbed (request (units 40))).2.engine.reactToPayment .undisturbed
    .capture (Mint.unary.paymentId 0) (units 40)).2.engine.performAll
      [.updateBalance merchant ⟨some (units 5), none, none⟩]

def capture : Payment :=
  ((spent.log.find (Mint.unary.paymentId 1)).toOption.join).getD default

/-- An authorization of one unit that does not fit on the merchant, and a refund of 40 units that the
merchant does not have. -/
theorem out_of_range_limits :
    (brimful.log.closed = false ∧
      brimful.ledger.account customer = .ok (shown brimful.ledger customer) ∧
      brimful.ledger.account merchant = .ok (shown brimful.ledger merchant) ∧
      (request (units 1)).card = (shown brimful.ledger customer).card ∧
      units 1 ≤ (shown brimful.ledger customer).balance ∧
      ∃ l, (brimful.createPayment .undisturbed (request (units 1))).2.engine =
          { brimful with ledger := l } ∧
        brimful.ledger.Replaces
          { shown brimful.ledger customer with version := (shown brimful.ledger customer).version + 2 } l) ∧
    spent.log.closed = false ∧ spent.log.find capture.id = .ok (some capture) ∧
      accepts capture Reaction.refund.operation = true ∧ units 40 ≤ capture.amount ∧
      (spent.reactToPayment .undisturbed .refund capture.id (units 40)).1 =
        .error (.move (.underflow merchant .balance (units 40))) ∧
      (spent.reactToPayment .undisturbed .refund capture.id (units 40)).2.engine = spent := by
  have hopen : brimful.log.closed = false := by decide +kernel
  have hopen' : spent.log.closed = false := by decide +kernel
  have hcustomer : brimful.ledger.account customer = .ok (shown brimful.ledger customer) := by decide +kernel
  have hmerchant : brimful.ledger.account merchant = .ok (shown brimful.ledger merchant) := by decide +kernel
  have hcard : (request (units 1)).card = (shown brimful.ledger customer).card := by decide +kernel
  have hle : units 1 ≤ (shown brimful.ledger customer).balance := by decide +kernel
  have hfind : spent.log.find capture.id = .ok (some capture) := by decide +kernel
  have haccepts : accepts capture Reaction.refund.operation = true := by decide +kernel
  have hle' : units 40 ≤ capture.amount := by decide +kernel
  obtain ⟨hauthorizations, -, -⟩ := Engine.out_of_range hopen
  obtain ⟨-, hreactions, -⟩ := Engine.out_of_range hopen'
  obtain ⟨v, -, -, l, hl, hgivesUp⟩ := (hauthorizations (request (units 1)) _ _ (by decide) hcustomer
    hmerchant hcard hle).tooLarge ⟨merchant, .blocked, 2 ^ 63⟩ (by decide +kernel) (by decide +kernel)
      (fun _ => by decide +kernel)
  obtain ⟨hresult, hengine, -⟩ := (hreactions .refund capture (units 40) (shown spent.ledger customer)
    (shown spent.ledger merchant) hfind haccepts (by decide +kernel) (by decide +kernel) hle').below
      ⟨merchant, .balance, -35⟩ (by decide +kernel)
  exact ⟨⟨hopen, hcustomer, hmerchant, hcard, hle, l, hl, hgivesUp.of_merchant (by decide +kernel)⟩,
    hopen', hfind, haccepts, hle', hresult, hengine⟩

/-- The first planned quantity that the ledger cannot hold is the blocked money of the merchant, but
the call does not fail with an overflow, and the version of the customer changes. -/
theorem tooLarge_not_caught :
    belowZero? (planned (shown brimful.ledger customer) (shown brimful.ledger merchant)
        (authorizationRow (request (units 1)) (shown brimful.ledger customer) (shown brimful.ledger merchant)
          .approved)) = none ∧
      tooLarge? (planned (shown brimful.ledger customer) (shown brimful.ledger merchant)
        (authorizationRow (request (units 1)) (shown brimful.ledger customer) (shown brimful.ledger merchant)
          .approved)) = some ⟨merchant, .blocked, 2 ^ 63⟩ ∧
      (brimful.createPayment .undisturbed (request (units 1))).1 =
        .error (.ledger (.conversion (.quantity (.tooLarge (units (2 ^ 63)))))) ∧
      (shown (brimful.createPayment .undisturbed (request (units 1))).2.engine.ledger customer).version ≠
        (shown brimful.ledger customer).version := by
  decide +kernel

end Limits

end CardHolds

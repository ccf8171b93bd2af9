import CardHolds.Proofs.Engine.Retry
import CardHolds.Proofs.Ledger.Entries

/-!
# Outcomes that move no money

A wrong card, missing funds and an amount that is too large are no errors.  Where nothing goes wrong
and nobody else writes, the call records the row, puts it on the statement of the merchant and changes
nothing else in either store, as long as the log can hold the amount (`Engine.soft_outcomes`).  An
amount that it cannot hold is refused by the log; then the call fails and has changed nothing.
-/

namespace CardHolds

open Execution (answer)
open CardHolds.Flow (Task)
open Program

/-! ## Recording a row for the merchant alone -/

namespace Execution
variable {x : Execution} {new : NewPayment} {p : Payment} {n : Nat} {l : Ledger}

/-- The ledger side of a fresh stream handles a request. -/
theorem answer_send (hpeer : x.peer = {}) {request : StatementRequest}
    (happend : x.engine.ledger.append request.account request.payment = (.ok n, l)) :
    answer .undisturbed (.stream (.send request)) x =
      (true,
        { x with
          engine := { x.engine with ledger := l }
          peer := { replies := [.ok ⟨request.account, request.payment, n⟩] }
          history := x.history ++ [.append request] }) := by
  have hhandle : Server.handle x.engine.ledger request =
      (.ok ⟨request.account, request.payment, n⟩, l) := by
    unfold Server.handle
    rw [happend]
  simp only [answer, streamCall, hpeer, if_true, serveRequest, Interference.undisturbed, interrupted,
    others, note, Engine.performAll, List.foldl_nil, hhandle]
  rfl

/-- A single request over a fresh stream. -/
theorem run_propagate_singleton (request : StatementRequest) (hpeer : x.peer = {})
    (happend : x.engine.ledger.append request.account request.payment = (.ok n, l)) :
    ∃ acks y, (propagate [request]).onStream.run (answer .undisturbed) x = (.ok acks, y) ∧
      y.engine = { x.engine with ledger := l } ∧ y.transaction = x.transaction := by
  have hack : request.acknowledgedBy ⟨request.account, request.payment, n⟩ = true := by
    simp [StatementRequest.acknowledgedBy]
  unfold Program.onStream propagate
  simp only [run_embed, Propagator.appendAll, Propagator.append, Propagator.send,
    StatementStream.send, bind_eq, pure_eq, bind_ask, bind_done, run_ask, answer_send hpeer happend,
    if_true, Bool.false_eq_true, if_false, Propagator.awaitAck, StatementStream.receive]
  -- the reply is there; it acknowledges the request
  simp only [answer, streamCall, hack, if_true, bind_done, Propagator.close]
  exact ⟨_, _, rfl, rfl, rfl⟩

/-- An open log starts a transaction. -/
theorem run_begin (hopen : x.engine.log.closed = false) :
    ∃ y, Ask.begin.run (answer .undisturbed) x = (.ok (), y) ∧ y.engine = x.engine ∧
      y.transaction = {} := by
  refine ⟨_, Prod.ext ?_ rfl, rfl, rfl⟩
  show x.engine.log.begin.map (fun _ => ()) = .ok ()
  unfold PaymentLog.begin PaymentLog.query
  rw [hopen]
  rfl

theorem run_insert {r : Except LogError Payment} {tx : LogTransaction}
    (hinsert : x.engine.log.insert x.transaction (x.engine.mint.paymentId x.engine.paymentsInserted)
      x.engine.mint.now new = (r, tx)) :
    ∃ y, (Ask.insert new).run (answer .undisturbed) x = (r, y) ∧
      y.engine = { x.engine with
        paymentsInserted := x.engine.paymentsInserted + if r.isOk then 1 else 0 } ∧
      y.transaction = tx := by
  have hrun : (Ask.insert new).run (answer .undisturbed) x =
      ((x.insertPayment new).1, (x.insertPayment new).2.note
        (.log (.insert new) (errorOf (x.insertPayment new).1))) := rfl
  simp only [insertPayment, hinsert] at hrun
  exact ⟨_, hrun, rfl, rfl⟩

theorem run_commit {log : PaymentLog} (hcommit : x.engine.log.commit x.transaction = .ok log) :
    ∃ y, Ask.commit.run (answer .undisturbed) x = (.ok (), y) ∧
      y.engine = { x.engine with log := log } := by
  have hrun : Ask.commit.run (answer .undisturbed) x =
      (x.commitTransaction.1, { x.commitTransaction.2 with transaction := {} }.note
        (.log .commit (errorOf x.commitTransaction.1))) := rfl
  simp only [commitTransaction, hcommit] at hrun
  exact ⟨_, hrun, rfl⟩

/-- A row is inserted and put on the statement of the merchant. -/
theorem run_record_merchantOnly {tx : LogTransaction}
    (hinsert : x.engine.log.insert x.transaction (x.engine.mint.paymentId x.engine.paymentsInserted)
      x.engine.mint.now new = (.ok p, tx))
    (happend : x.engine.ledger.append new.merchant p.id = (.ok n, l)) :
    ∃ y, (Flow.record (.merchantOnly new)).run (answer .undisturbed) x = (.ok p, y) ∧
      y.engine =
        { x.engine with ledger := l, paymentsInserted := x.engine.paymentsInserted + 1 } ∧
      y.transaction = tx := by
  obtain ⟨x₁, hinserted, hengine₁, htransaction₁⟩ := run_insert hinsert
  obtain ⟨x₂, hopened, hengine₂, htransaction₂, hpeer⟩ : ∃ x₂,
      Ask.openStream.onLedger.run (answer .undisturbed) x₁ = (.ok (), x₂) ∧
        x₂.engine = x₁.engine ∧ x₂.transaction = x₁.transaction ∧ x₂.peer = {} :=
    ⟨_, rfl, rfl, rfl, rfl⟩
  have happend₂ : x₂.engine.ledger.append new.merchant p.id = (.ok n, l) := by
    rw [hengine₂, hengine₁]
    exact happend
  obtain ⟨acks, y, hpropagated, hengine, htransaction⟩ :=
    run_propagate_singleton ⟨new.merchant, p.id⟩ hpeer happend₂
  refine ⟨y, ?_, by rw [hengine, hengine₂, hengine₁]; rfl,
    htransaction.trans (htransaction₂.trans htransaction₁)⟩
  simp only [Flow.record, Decision.merchantOnly, List.map_cons, List.map_nil]
  rw [run_bind_of hinserted]
  simp only
  rw [run_bind_of hopened]
  simp only
  rw [run_bind_of hpropagated]
  rfl

/-- Without moves a decision is carried out by recording it. -/
theorem run_applyAndRecord_merchantOnly {r : Except FlowError Payment} {y : Execution}
    (h : (Flow.record (.merchantOnly new)).run (answer .undisturbed) x = (r, y)) :
    (Flow.applyAndRecord (.merchantOnly new)).run (answer .undisturbed) x = ((r, {}), y) := by
  show ((Flow.record (.merchantOnly new)).bind fun r => .done (r, ({} : Saga))).run _ x = _
  rw [run_bind, h]
  rfl

/-- A row that the log takes is committed. -/
theorem run_execute_merchantOnly {tx : LogTransaction} {log : PaymentLog}
    (hopen : x.engine.log.closed = false)
    (hinsert : x.engine.log.insert {} (x.engine.mint.paymentId x.engine.paymentsInserted)
      x.engine.mint.now new = (.ok p, tx))
    (happend : x.engine.ledger.append new.merchant p.id = (.ok n, l))
    (hcommit : x.engine.log.commit tx = .ok log) :
    ∃ y, (Flow.execute (.merchantOnly new)).run (answer .undisturbed) x = (.ok p, y) ∧
      y.engine =
        { x.engine with
          ledger := l, log := log, paymentsInserted := x.engine.paymentsInserted + 1 } := by
  obtain ⟨x₁, hbegun, hengine₁, htransaction₁⟩ := run_begin hopen
  rw [← hengine₁, ← htransaction₁] at hinsert
  rw [← hengine₁] at happend hcommit
  obtain ⟨x₂, hrecorded, hengine₂, htransaction₂⟩ := run_record_merchantOnly hinsert happend
  have hcommit₂ : x₂.engine.log.commit x₂.transaction = .ok log := by
    rw [hengine₂, htransaction₂]
    exact hcommit
  obtain ⟨y, hcommitted, hengine⟩ := run_commit hcommit₂
  refine ⟨y, ?_, by rw [hengine, hengine₂, hengine₁]⟩
  have hfinished : (Flow.finish (.ok p)).run (answer .undisturbed) x₂ = (.ok p, y) := by
    unfold Flow.finish
    rw [run_bind_of hcommitted]
    rfl
  unfold Flow.execute
  rw [run_bind_of hbegun]
  simp only
  rw [run_bind_of (run_applyAndRecord_merchantOnly hrecorded)]
  simp only
  rw [run_bind_of hfinished]
  rfl

/-- A row that the log refuses is given up, and nothing has changed. -/
theorem run_execute_of_refused {e : LogError} (hopen : x.engine.log.closed = false)
    (hinsert : x.engine.log.insert {} (x.engine.mint.paymentId x.engine.paymentsInserted)
      x.engine.mint.now new = (.error e, {})) :
    ∃ y, (Flow.execute (.merchantOnly new)).run (answer .undisturbed) x = (.error (.ofLog e), y) ∧
      y.engine = x.engine := by
  obtain ⟨x₁, hbegun, hengine₁, htransaction₁⟩ := run_begin hopen
  rw [← hengine₁, ← htransaction₁] at hinsert
  obtain ⟨x₂, hinserted, hengine₂, -⟩ := run_insert hinsert
  have hrecorded : (Flow.record (.merchantOnly new)).run (answer .undisturbed) x₁ =
      (.error (.ofLog e), x₂) := by
    simp only [Flow.record, Decision.merchantOnly]
    rw [run_bind_of hinserted]
    rfl
  refine ⟨(Ask.rollback.run (answer .undisturbed) x₂).2, ?_, ?_⟩
  · unfold Flow.execute
    rw [run_bind_of hbegun]
    simp only
    rw [run_bind_of (run_applyAndRecord_merchantOnly hrecorded)]
    rfl
  · show x₂.engine = x.engine
    rw [hengine₂, hengine₁]
    rfl

end Execution

/-! ## Whole calls -/

namespace Engine

/-- A row is committed and put on one statement, and nothing else is different in either store. -/
structure AddsRow (e : Engine) (new : NewPayment) (merchant : AccountId) (e' : Engine) : Prop where
  rows : ∃ row, e'.log.rows.rows = e.log.rows.rows ++ [row] ∧
    row.read = .ok (new.recorded (e.mint.paymentId e.paymentsInserted) e.mint.now)
  accounts : e'.ledger.store.accounts = e.ledger.store.accounts
  entries : e'.ledger.store.entries =
    e.ledger.store.entries ++ [⟨merchant, e.mint.paymentId e.paymentsInserted⟩]

/-- How a call ends that moves no money. -/
structure EndsSoftly (e : Engine) (new : NewPayment) (merchant : AccountId)
    (outcome : Except FlowError PaymentOutcome × Execution) : Prop where
  recorded : new.amount.units < 2 ^ 63 →
    outcome.1 = .ok ⟨e.mint.paymentId e.paymentsInserted, new.status⟩ ∧
      e.AddsRow new merchant outcome.2.engine
  /-- The log cannot hold the amount. -/
  refused : 2 ^ 63 ≤ new.amount.units →
    outcome.1 = .error (.database (.quantity (.tooLarge new.amount))) ∧
      outcome.2.engine.log = e.log ∧ outcome.2.engine.ledger = e.ledger

end Engine

namespace Flow.Task
variable {t : Task} {x : Execution} {c m : Account} {d : Decision} {new : NewPayment}

/-- An attempt on two accounts that can be read carries its decision out. -/
theorem run_attempt (hcustomer : x.engine.ledger.account t.customer = .ok c)
    (hmerchant : x.engine.ledger.account t.merchant = .ok m) (hd : t.decide c m = .ok d) :
    ∃ y, y.engine = x.engine ∧
      (∀ p z, (execute d).run (answer .undisturbed) y = (.ok p, z) →
        t.attempt.run (answer .undisturbed) x = (.recorded p, z)) ∧
      ∀ e z, (execute d).run (answer .undisturbed) y = (.error e, z) →
        e.isBalanceConflict = false →
        t.attempt.run (answer .undisturbed) x = (.failed e, z) := by
  have hread : ∀ (x : Execution) id, ∃ y, (Ask.account id).onLedger.run (answer .undisturbed) x =
      (x.engine.ledger.account id, y) ∧ y.engine = x.engine := fun _ _ => ⟨_, rfl, rfl⟩
  obtain ⟨x₁, hread₁, hengine₁⟩ := hread x t.customer
  obtain ⟨x₂, hread₂, hengine₂⟩ := hread x₁ t.merchant
  rw [hcustomer] at hread₁
  rw [hengine₁, hmerchant] at hread₂
  refine ⟨x₂, hengine₂.trans hengine₁, fun p z hexecute => ?_, fun e z hexecute he => ?_⟩
  all_goals
    unfold attempt Flow.attempt
    rw [run_bind_of hread₁]
    simp only
    rw [run_bind_of hread₂]
    simp only [hd]
    rw [run_bind_of hexecute]
  · rfl
  · simp only [he]
    rfl

theorem exists_attemptsFor_eq (retries : Nat) : ∃ left, attemptsFor retries = left + 1 :=
  ⟨attemptsFor retries - 1, by unfold attemptsFor; omega⟩

theorem run_program_of_recorded {i : Interference} {p : Payment} {y : Execution}
    (h : t.attempt.run (answer i) x = (.recorded p, y)) (retries : Nat) :
    (t.program retries).run (answer i) x =
      (.ok (.ofPayment p), { y with engine := y.engine.publish (.paymentRecorded ⟨p⟩) }) := by
  obtain ⟨left, hleft⟩ := exists_attemptsFor_eq retries
  rw [program_eq, hleft, run_bind_of (run_attempts_of_recorded h _ _)]
  rfl

theorem run_program_of_failed {i : Interference} {e : FlowError} {y : Execution}
    (h : t.attempt.run (answer i) x = (.failed e, y)) (retries : Nat) :
    (t.program retries).run (answer i) x = (.error e, y) := by
  obtain ⟨left, hleft⟩ := exists_attemptsFor_eq retries
  rw [program_eq, hleft, run_bind_of (run_attempts_of_failed h _ _)]
  rfl

/-- **A call without moves ends softly.** -/
theorem endsSoftly_program (hopen : x.engine.log.closed = false)
    (unused : x.engine.log.rows.find? (x.engine.mint.paymentId x.engine.paymentsInserted) = none)
    (hcustomer : x.engine.ledger.account t.customer = .ok c)
    (hmerchant : x.engine.ledger.account t.merchant = .ok m)
    (hd : t.decide c m = .ok (.merchantOnly new)) (hnew : new.merchant = t.merchant) (retries : Nat) :
    x.engine.EndsSoftly new t.merchant ((t.program retries).run (answer .undisturbed) x) := by
  obtain ⟨y, hengine, hrecorded, hfailed⟩ := run_attempt hcustomer hmerchant hd
  rw [← hengine] at hopen unused hmerchant ⊢
  constructor
  · intro hamount
    obtain ⟨row, log, hinsert, hread, hcommit, hrows⟩ :=
      PaymentLog.insert_commit_of_lt y.engine.mint.now unused hamount
    obtain ⟨n, l, happend, haccounts, hentries⟩ := Ledger.append_of_account hmerchant
      (y.engine.mint.paymentId y.engine.paymentsInserted)
    rw [← hnew] at happend
    obtain ⟨z, hexecute, hz⟩ := Execution.run_execute_merchantOnly hopen hinsert happend hcommit
    rw [run_program_of_recorded (hrecorded _ _ hexecute)]
    refine ⟨rfl, ⟨row, ?_, hread⟩, ?_, ?_⟩
    · show (z.engine.publish _).log.rows.rows = _
      rw [Execution.log_publish, hz]
      exact hrows
    · show (z.engine.publish _).ledger.store.accounts = _
      rw [Execution.ledger_publish, hz]
      exact haccounts
    · show (z.engine.publish _).ledger.store.entries = _
      rw [Execution.ledger_publish, hz]
      exact hentries
  · intro hamount
    obtain ⟨z, hexecute, hz⟩ := Execution.run_execute_of_refused hopen
      (PaymentLog.insert_of_le y.engine.log _ _ hamount)
    rw [run_program_of_failed (hfailed _ _ hexecute rfl), hz]
    exact ⟨rfl, rfl, rfl⟩

end Flow.Task

/-- A lifecycle call that comes to a decision without moves ends softly. -/
theorem Instruction.Opens.endsSoftly {e : Engine} {instruction : Instruction} {t : Task}
    {x : Execution} {c m : Account} {new : NewPayment} (h : instruction.Opens e .undisturbed t x)
    (hx : x.engine = e) (hopen : e.log.closed = false)
    (unused : e.log.rows.find? (e.mint.paymentId e.paymentsInserted) = none)
    (hcustomer : e.ledger.account t.customer = .ok c)
    (hmerchant : e.ledger.account t.merchant = .ok m)
    (hd : t.decide c m = .ok (.merchantOnly new)) (hnew : new.merchant = t.merchant) :
    e.EndsSoftly new t.merchant (e.call .undisturbed (instruction.program e.retries)) := by
  have hrun : e.call .undisturbed (instruction.program e.retries) =
      (t.program e.retries).run (answer .undisturbed) x := h.run_program e.retries
  rw [hrun]
  subst hx
  exact Task.endsSoftly_program hopen unused hcustomer hmerchant hd hnew _

namespace Engine
variable {e : Engine}

/-- A payment that the log finds. -/
theorem run_paymentById {p : Payment} (h : e.log.find p.id = .ok (some p)) :
    ∃ x, (paymentById p.id).run (answer .undisturbed) { engine := e } = (.ok p, x) ∧ x.engine = e := by
  obtain ⟨x, hfind, hengine⟩ : ∃ x, (Ask.find p.id).run (answer .undisturbed) { engine := e } =
      (e.log.find p.id, x) ∧ x.engine = e := ⟨_, rfl, rfl⟩
  rw [h] at hfind
  refine ⟨x, ?_, hengine⟩
  unfold paymentById
  rw [run_bind_of hfind]
  rfl

/-- **Every outcome that moves no money is recorded**, if the log can hold its amount. -/
theorem soft_outcomes (hopen : e.log.closed = false)
    (unused : e.log.rows.find? (e.mint.paymentId e.paymentsInserted) = none) :
    (∀ request c m, request.merchant ≠ request.customer →
        e.ledger.account request.customer = .ok c → e.ledger.account request.merchant = .ok m →
        (request.card ≠ c.card →
          e.EndsSoftly (authorizationRow request c m .wrongPaymentRequest) request.merchant
            (e.createPayment .undisturbed request)) ∧
        (request.card = c.card → c.balance < request.amount →
          e.EndsSoftly (authorizationRow request c m .insufficientFunds) request.merchant
            (e.createPayment .undisturbed request))) ∧
      ∀ reaction p amount c m, e.log.find p.id = .ok (some p) →
        accepts p reaction.operation = true →
        e.ledger.account p.customer = .ok c → e.ledger.account p.merchant = .ok m →
        p.amount < amount →
        e.EndsSoftly (.reactingTo p reaction.operation .invalidAmount amount) p.merchant
          (e.reactToPayment .undisturbed reaction p.id amount) := by
  constructor
  · intro request c m hne hcustomer hmerchant
    have hopens : (Instruction.authorize request).Opens e .undisturbed
        ⟨request.customer, request.merchant, decideAuthorization request⟩ { engine := e } :=
      ⟨hne, rfl, rfl⟩
    obtain ⟨-, -, hid, -⟩ := Ledger.account_spec hmerchant
    exact ⟨fun hcard => hopens.endsSoftly rfl hopen unused hcustomer hmerchant
        (decideAuthorization_of_card_ne hcard) hid,
      fun hcard hbalance => hopens.endsSoftly rfl hopen unused hcustomer hmerchant
        (decideAuthorization_of_balance_lt hcard hbalance) hid⟩
  · intro reaction p amount c m hfind haccepts hcustomer hmerchant hamount
    obtain ⟨x, hrun, hengine⟩ := run_paymentById hfind
    have hopens : (Instruction.react reaction p.id amount).Opens e .undisturbed
        ⟨p.customer, p.merchant, fun customer merchant => reaction.decide p customer merchant amount⟩
        x := ⟨p, hrun, haccepts, rfl⟩
    exact hopens.endsSoftly hengine hopen unused hcustomer hmerchant
      (reaction.decide_of_amount_lt hamount) rfl

end Engine

/-! ## Too much -/

namespace TooMuch

open Sample

/-- More than any account holds, and more than the log can hold. -/
def excessive : Amount := units (2 ^ 63)

/-- After an authorization of 40 units. -/
def authorized : Engine :=
  (engine.createPayment .undisturbed (request (units 40))).2.engine

/-- The authorization. -/
def approved : Payment :=
  (authorizationRow (request (units 40)) (shown engine.ledger customer) (shown engine.ledger merchant)
    .approved).recorded (Mint.unary.paymentId 0) Mint.unary.now

/-- A customer with a hundred units asks for 101 and for 2 ^ 63; 41 units of an authorization of 40 are
to be captured. -/
theorem soft_outcomes_tooMuch :
    (engine.log.closed = false ∧
      engine.log.rows.find? (engine.mint.paymentId engine.paymentsInserted) = none ∧
      engine.ledger.account customer = .ok (shown engine.ledger customer) ∧
      engine.ledger.account merchant = .ok (shown engine.ledger merchant) ∧
      card = (shown engine.ledger customer).card ∧ (shown engine.ledger customer).balance < units 101 ∧
      engine.EndsSoftly
        (authorizationRow (request (units 101)) (shown engine.ledger customer) (shown engine.ledger merchant)
          .insufficientFunds) merchant
        (engine.createPayment .undisturbed (request (units 101))) ∧
      (engine.createPayment .undisturbed (request (units 101))).1 =
        .ok ⟨Mint.unary.paymentId 0, .insufficientFunds⟩ ∧
      (engine.createPayment .undisturbed (request excessive)).1 =
        .error (.database (.quantity (.tooLarge excessive)))) ∧
    authorized.log.closed = false ∧
      authorized.log.rows.find? (authorized.mint.paymentId authorized.paymentsInserted) = none ∧
      authorized.log.find approved.id = .ok (some approved) ∧
      accepts approved Reaction.capture.operation = true ∧ approved.amount < units 41 ∧
      authorized.EndsSoftly (.reactingTo approved .capture .invalidAmount (units 41)) merchant
        (authorized.reactToPayment .undisturbed .capture approved.id (units 41)) ∧
      (authorized.reactToPayment .undisturbed .capture approved.id (units 41)).1 =
        .ok ⟨Mint.unary.paymentId 1, .invalidAmount⟩ := by
  have hcustomer : engine.ledger.account customer = .ok (shown engine.ledger customer) := by decide +kernel
  have hmerchant : engine.ledger.account merchant = .ok (shown engine.ledger merchant) := by decide +kernel
  have hopen : engine.log.closed = false := by decide +kernel
  have unused : engine.log.rows.find? (engine.mint.paymentId engine.paymentsInserted) = none := by
    decide +kernel
  have hcard : card = (shown engine.ledger customer).card := by decide +kernel
  have hbalance : (shown engine.ledger customer).balance < units 101 := by decide +kernel
  have hopen' : authorized.log.closed = false := by decide +kernel
  have unused' : authorized.log.rows.find?
      (authorized.mint.paymentId authorized.paymentsInserted) = none := by decide +kernel
  have hfind : authorized.log.find approved.id = .ok (some approved) := by decide +kernel
  have hamount : approved.amount < units 41 := by decide +kernel
  obtain ⟨hauthorizations, -⟩ := Engine.soft_outcomes hopen unused
  obtain ⟨-, hreactions⟩ := Engine.soft_outcomes hopen' unused'
  obtain ⟨-, hfunds⟩ := hauthorizations (request (units 101)) _ _ (by decide) hcustomer
    hmerchant
  obtain ⟨-, hexcessive⟩ := hauthorizations (request excessive) _ _ (by decide) hcustomer hmerchant
  have hsoft := hfunds hcard hbalance
  have hcapture := hreactions .capture approved (units 41) (shown authorized.ledger customer)
    (shown authorized.ledger merchant) hfind rfl (by decide +kernel) (by decide +kernel) hamount
  exact ⟨⟨hopen, unused, hcustomer, hmerchant, hcard, hbalance, hsoft, (hsoft.recorded (by decide)).1,
      ((hexcessive hcard (by decide +kernel)).refused (by decide)).1⟩,
    hopen', unused', hfind, rfl, hamount, hcapture, (hcapture.recorded (by decide)).1⟩

/-- Insufficient funds are not always recorded: a request for 2 ^ 63 units fails, and the log stays
empty. -/
theorem insufficientFunds_not_recorded :
    engine.ledger.account customer = .ok (shown engine.ledger customer) ∧
      (engine.ledger.account merchant).isOk = true ∧ merchant ≠ customer ∧
      (request excessive).card = (shown engine.ledger customer).card ∧
      (shown engine.ledger customer).balance < (request excessive).amount ∧
      (engine.createPayment .undisturbed (request excessive)).1 =
        .error (.database (.quantity (.tooLarge excessive))) ∧
      (engine.createPayment .undisturbed (request excessive)).2.engine.log.rows.rows = [] := by
  decide +kernel

end TooMuch

end CardHolds

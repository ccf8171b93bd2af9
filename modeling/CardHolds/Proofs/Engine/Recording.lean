import CardHolds.Proofs.Engine.Limits

/-!
# Recording without interference

Where nobody else writes and nothing fails by itself, a batch of statement entries is appended
(`Execution.run_propagate`), and a decision whose moves the ledger takes is recorded
(`Execution.run_execute_of_applied`).  So a call that comes to a settled decision ends with its outcome:
both accounts show what the row settles, one version later, and the row is in the log
(`Flow.Task.records_program`).
-/

namespace CardHolds

open Execution (answer)
open CardHolds.Flow (Task)
open Program

/-! ## Entries on the ledger -/

/-- A row reads as the same account whatever is on its statement. -/
theorem AccountRow.read_statement {row : AccountRow} {statement : List PaymentId} {a : Account}
    (h : row.read statement = .ok a) (statement' : List PaymentId) :
    row.read statement' = .ok { a with statement := statement' } := by
  unfold read at h ⊢
  obtain ⟨version, hversion, h⟩ := ok_of_bind h
  obtain ⟨balance, hbalance, h⟩ := ok_of_bind h
  obtain ⟨blocked, hblocked, h⟩ := ok_of_bind h
  cases h
  rw [hversion, hbalance, hblocked]
  rfl

namespace Ledger
variable {l l' l'' : Ledger} {id : AccountId} {a : Account} {entries entries' : List StatementEntry}

/-- The ledger `l'` has more entries than `l` and is otherwise the same. -/
structure Appends (l : Ledger) (entries : List StatementEntry) (l' : Ledger) : Prop where
  accounts : l'.store.accounts = l.store.accounts
  entries : l'.store.entries = l.store.entries ++ entries
  closed : l'.closed = l.closed

theorem Appends.refl (l : Ledger) : l.Appends [] l := ⟨rfl, (List.append_nil _).symm, rfl⟩

theorem Appends.trans (h : l.Appends entries l') (h' : l'.Appends entries' l'') :
    l.Appends (entries ++ entries') l'' where
  accounts := h'.accounts.trans h.accounts
  entries := by rw [h'.entries, h.entries, List.append_assoc]
  closed := h'.closed.trans h.closed

/-- Entries are no part of what an account holds. -/
theorem Appends.account (h : l.Appends entries l') (ha : l.account id = .ok a) :
    ∃ statement, l'.account id = .ok { a with statement := statement } := by
  obtain ⟨row, hrow, hread⟩ := exists_row_of_account ha
  refine ⟨l'.store.statement row.id, ?_⟩
  rw [account_eq (h.closed.trans (open_of_account ha)), h.accounts, hrow]
  exact AccountRow.read_statement hread _

theorem closed_append (l : Ledger) (id : AccountId) (payment : PaymentId) :
    (l.append id payment).2.closed = l.closed := by
  unfold append change
  split <;> rfl

/-- An account that can be read gets its entry. -/
theorem appends_of_account (h : l.account id = .ok a) (payment : PaymentId) :
    ∃ n l', l.append id payment = (.ok n, l') ∧ l.Appends [⟨id, payment⟩] l' := by
  obtain ⟨n, l', happend, haccounts, hentries⟩ := append_of_account h payment
  have hclosed := l.closed_append id payment
  rw [happend] at hclosed
  exact ⟨n, l', happend, haccounts, hentries, hclosed⟩

end Ledger

/-! ## Batches of entries -/

namespace Execution
variable {x : Execution} {request : StatementRequest} {p : Propagator} {n : Nat} {l : Ledger}

/-- The ledger side of a stream answers by itself. -/
def streaming (c : StreamCall) (x : Execution) : streamCalls.Reply c × Execution :=
  answer .undisturbed (.stream c) x

/-- One turn on a stream whose ledger side has nothing left to say. -/
theorem run_append (hturn : p.turn = .readyToSend) (hstream : p.stream.sendClosed = false)
    (hpeer : x.peer = {})
    (happend : x.engine.ledger.append request.account request.payment = (.ok n, l)) :
    ∃ ack y, (p.append request).run streaming x =
        ((.ok ack, { p with acknowledged := p.acknowledged ++ [ack] }), y) ∧
      y.engine = { x.engine with ledger := l } ∧ y.transaction = x.transaction ∧ y.peer = {} := by
  have hack : request.acknowledgedBy ⟨request.account, request.payment, n⟩ = true := by
    simp [StatementRequest.acknowledgedBy]
  obtain ⟨stream, turn, acknowledged⟩ := p
  cases hturn
  simp only at hstream
  have hsent : streaming (.send request) x = _ := answer_send hpeer happend
  simp only [Propagator.append, Propagator.send, StatementStream.send, hstream, bind_eq, pure_eq,
    bind_ask, bind_done, run_ask, hsent, if_true, Bool.false_eq_true, if_false, Propagator.awaitAck,
    StatementStream.receive]
  -- the reply is there; it acknowledges the request
  simp only [streaming, answer, streamCall, hack, if_true, run_done]
  exact ⟨_, _, rfl, rfl, rfl, rfl⟩

/-- The entries that a batch of requests asks for. -/
def entriesOf (requests : List StatementRequest) : List StatementEntry :=
  requests.map fun request => ⟨request.account, request.payment⟩

theorem run_appendAll {requests : List StatementRequest} (hturn : p.turn = .readyToSend)
    (hstream : p.stream.sendClosed = false) (hpeer : x.peer = {})
    (haccounts : ∀ request ∈ requests, ∃ a, x.engine.ledger.account request.account = .ok a) :
    ∃ acks l y, (p.appendAll requests).run streaming x =
        ((.ok (), { p with acknowledged := acks }), y) ∧
      y.engine = { x.engine with ledger := l } ∧ x.engine.ledger.Appends (entriesOf requests) l ∧
      y.transaction = x.transaction ∧ y.peer = {} := by
  induction requests generalizing p x with
  | nil => exact ⟨p.acknowledged, x.engine.ledger, x, rfl, rfl, .refl _, rfl, hpeer⟩
  | cons request rest ih =>
    obtain ⟨a, ha⟩ := haccounts request List.mem_cons_self
    obtain ⟨n, l₁, happend, happends⟩ := Ledger.appends_of_account ha request.payment
    obtain ⟨ack, x₁, hrun₁, hengine₁, htransaction₁, hpeer₁⟩ := run_append hturn hstream hpeer happend
    obtain ⟨acks, l₂, y, hrun, hengine, happends', htransaction, hpeer'⟩ :=
      ih (p := { p with acknowledged := p.acknowledged ++ [ack] }) (x := x₁) hturn hstream hpeer₁
        fun r hr => by
          obtain ⟨b, hb⟩ := haccounts r (List.mem_cons_of_mem _ hr)
          obtain ⟨statement, hb'⟩ := happends.account hb
          exact ⟨_, by rw [hengine₁]; exact hb'⟩
    rw [hengine₁] at hengine happends'
    refine ⟨acks, l₂, y, ?_, hengine, happends.trans happends', htransaction.trans htransaction₁,
      hpeer'⟩
    unfold Propagator.appendAll
    rw [run_bind_of hrun₁]
    exact hrun

theorem run_close (hpeer : x.peer = {}) (acks : List StatementAck) : ∃ p y,
    (Propagator.close { acknowledged := acks }).run streaming x = ((.ok (), p), y) ∧
      y.engine = x.engine ∧ y.transaction = x.transaction := by
  obtain ⟨engine, transaction, peer, history⟩ := x
  cases hpeer
  exact ⟨_, _, rfl, rfl, rfl⟩

/-- **A batch for accounts that can be read is appended.** -/
theorem run_propagate {requests : List StatementRequest} (hpeer : x.peer = {})
    (haccounts : ∀ request ∈ requests, ∃ a, x.engine.ledger.account request.account = .ok a) :
    ∃ acks l y, (propagate requests).onStream.run (answer .undisturbed) x = (.ok acks, y) ∧
      y.engine = { x.engine with ledger := l } ∧ x.engine.ledger.Appends (entriesOf requests) l ∧
      y.transaction = x.transaction := by
  obtain ⟨acks, l, y, hrun, hengine, happends, htransaction, hpeer'⟩ :=
    run_appendAll (p := {}) rfl rfl hpeer haccounts
  obtain ⟨p', z, hclosed, hengine', htransaction'⟩ := run_close hpeer' acks
  refine ⟨p'.acknowledged, l, z, ?_, hengine'.trans hengine, happends,
    htransaction'.trans htransaction⟩
  unfold Program.onStream
  rw [run_embed]
  show (propagate requests).run streaming x = _
  unfold propagate
  rw [run_bind_of hrun]
  simp only
  rw [run_bind_of hclosed]
  rfl

/-! ## Decisions that are carried out -/

/-- A row is inserted and put on the statements. -/
theorem run_record {d : Decision} {payment : Payment} {tx : LogTransaction}
    (hinsert : x.engine.log.insert x.transaction (x.engine.mint.paymentId x.engine.paymentsInserted)
      x.engine.mint.now d.row = (.ok payment, tx))
    (haccounts : ∀ id ∈ d.statements, ∃ a, x.engine.ledger.account id = .ok a) :
    ∃ entries l y, (Flow.record d).run (answer .undisturbed) x = (.ok payment, y) ∧
      y.engine =
        { x.engine with ledger := l, paymentsInserted := x.engine.paymentsInserted + 1 } ∧
      x.engine.ledger.Appends entries l ∧ y.transaction = tx := by
  obtain ⟨x₁, hinserted, hengine₁, htransaction₁⟩ := run_insert hinsert
  obtain ⟨x₂, hopened, hengine₂, htransaction₂, hpeer⟩ : ∃ x₂,
      Ask.openStream.onLedger.run (answer .undisturbed) x₁ = (.ok (), x₂) ∧
        x₂.engine = x₁.engine ∧ x₂.transaction = x₁.transaction ∧ x₂.peer = {} :=
    ⟨_, rfl, rfl, rfl, rfl⟩
  have hledger : x₂.engine.ledger = x.engine.ledger := by rw [hengine₂, hengine₁]
  obtain ⟨acks, l, y, hpropagated, hengine, happends, htransaction⟩ :=
    @run_propagate x₂ (d.statements.map fun account => ⟨account, payment.id⟩) hpeer
      fun request hrequest => by
        obtain ⟨id, hid, rfl⟩ := List.mem_map.mp hrequest
        rw [hledger]
        exact haccounts id hid
  rw [hledger] at happends
  refine ⟨_, l, y, ?_, by rw [hengine, hengine₂, hengine₁]; rfl, happends,
    htransaction.trans (htransaction₂.trans htransaction₁)⟩
  unfold Flow.record
  rw [run_bind_of hinserted]
  simp only
  rw [run_bind_of hopened]
  simp only
  rw [run_bind_of hpropagated]
  rfl

/-- **A decision whose moves the ledger takes is recorded.** -/
theorem run_execute_of_applied {d : Decision} {payment : Payment} {tx : LogTransaction}
    {log : PaymentLog} {saga : Saga} {l₁ : Ledger} (hopen : x.engine.log.closed = false)
    (happly : (({} : Saga).applyAll d.moves).run Ledger.answer x.engine.ledger = ((.ok (), saga), l₁))
    (hinsert : x.engine.log.insert {} (x.engine.mint.paymentId x.engine.paymentsInserted)
      x.engine.mint.now d.row = (.ok payment, tx))
    (haccounts : ∀ id ∈ d.statements, ∃ a, l₁.account id = .ok a)
    (hcommit : x.engine.log.commit tx = .ok log) :
    ∃ entries l₂ y, (Flow.execute d).run (answer .undisturbed) x = (.ok payment, y) ∧
      y.engine =
        { x.engine with
          ledger := l₂, log := log, paymentsInserted := x.engine.paymentsInserted + 1 } ∧
      l₁.Appends entries l₂ := by
  obtain ⟨x₁, hbegun, hengine₁, htransaction₁⟩ := run_begin hopen
  obtain ⟨x₂, happlied, hengine₂, htransaction₂⟩ := run_onLedger (({} : Saga).applyAll d.moves) x₁
  rw [hengine₁, happly] at happlied hengine₂
  have hinsert₂ : x₂.engine.log.insert x₂.transaction
      (x₂.engine.mint.paymentId x₂.engine.paymentsInserted) x₂.engine.mint.now d.row =
        (.ok payment, tx) := by
    rw [hengine₂, htransaction₂, htransaction₁]
    exact hinsert
  obtain ⟨entries, l₂, x₃, hrecorded, hengine₃, happends, htransaction₃⟩ :=
    run_record hinsert₂ fun id hid => by rw [hengine₂]; exact haccounts id hid
  have hcommit₃ : x₃.engine.log.commit x₃.transaction = .ok log := by
    rw [hengine₃, hengine₂, htransaction₃]
    exact hcommit
  obtain ⟨y, hcommitted, hengine⟩ := run_commit hcommit₃
  have happlyAndRecord : (Flow.applyAndRecord d).run (answer .undisturbed) x₁ =
      ((.ok payment, saga), x₃) := by
    unfold Flow.applyAndRecord
    rw [run_bind_of happlied]
    simp only
    rw [run_bind_of hrecorded]
    rfl
  have hfinished : (Flow.finish (.ok payment)).run (answer .undisturbed) x₃ = (.ok payment, y) := by
    unfold Flow.finish
    rw [run_bind_of hcommitted]
    rfl
  rw [hengine₂] at happends
  refine ⟨entries, l₂, y, ?_, by rw [hengine, hengine₃, hengine₂], happends⟩
  unfold Flow.execute
  rw [run_bind_of hbegun]
  simp only
  rw [run_bind_of happlyAndRecord]
  simp only
  rw [run_bind_of hfinished]
  rfl

end Execution

/-- Both moves of a settled row are carried out. -/
theorem Saga.run_settled {l : Ledger} {c m : Account} {mc mm : BalanceMove}
    (hcustomer : l.account c.id = .ok c) (hmerchant : l.account m.id = .ok m) (hne : c.id ≠ m.id)
    (hcp : mc.PlannedOn c) (hmp : mm.PlannedOn m) (hcto : mc.ToStorable) (hmto : mm.ToStorable)
    (hvc : c.version.toInt + 1 < 2 ^ 63) (hvm : m.version.toInt + 1 < 2 ^ 63) : ∃ saga l',
    (({} : Saga).applyAll [mc, mm]).run Ledger.answer l = ((.ok (), saga), l') ∧
      l'.account c.id = .ok (mc.result c) ∧ l'.account m.id = .ok (mm.result m) := by
  obtain ⟨l₁, hupdate₁, hreplaces₁⟩ := Ledger.updateBalance_forward hcustomer hcp hcto hvc
  have hmerchant₁ : l₁.account m.id = .ok m := (hreplaces₁.account_of_ne hne.symm).trans hmerchant
  obtain ⟨l₂, hupdate₂, hreplaces₂⟩ := Ledger.updateBalance_forward hmerchant₁ hmp hmto hvm
  refine ⟨{ applied := [mc, mm] }, l₂, ?_, ?_, hreplaces₂.account_self rfl⟩
  · rw [run_applyAll_of_ok hupdate₁, run_applyAll_of_ok hupdate₂]
    rfl
  · exact (hreplaces₂.account_of_ne hne).trans (hreplaces₁.account_self rfl)

/-! ## Whole calls -/

theorem Execution.mint_publish (e : Engine) (event : Event) : (e.publish event).mint = e.mint := by
  unfold Engine.publish
  split <;> rfl

theorem Execution.paymentsInserted_publish (e : Engine) (event : Event) :
    (e.publish event).paymentsInserted = e.paymentsInserted := by
  unfold Engine.publish
  split <;> rfl

/-- The ledger shows an account with the given quantities and version. -/
def Ledger.Shows (l : Ledger) (id : AccountId) (held : Delta) (version : ℤ) : Prop :=
  ∃ a, l.account id = .ok a ∧ a.held = held ∧ a.version.toInt = version

theorem Ledger.Appends.shows {l l' : Ledger} {entries : List StatementEntry} {id : AccountId}
    {held : Delta} {version : ℤ} (h : l.Appends entries l') (hl : l.Shows id held version) :
    l'.Shows id held version := by
  obtain ⟨a, ha, rfl, rfl⟩ := hl
  obtain ⟨statement, ha'⟩ := h.account ha
  exact ⟨_, ha', rfl, rfl⟩

/-- A move leaves what it was planned from and its change, one version later. -/
theorem Ledger.shows_result {l : Ledger} {a : Account} {mv : BalanceMove}
    (haccount : l.account a.id = .ok (mv.result a)) (hp : mv.PlannedOn a)
    (hv : a.version.toInt + 1 < 2 ^ 63) :
    l.Shows a.id (a.held + mv.delta) (a.version.toInt + 1) :=
  ⟨_, haccount, hp.held_add_delta.symm, Int64.toInt_add_one hv⟩

theorem PaymentLog.closed_of_commit {log log' : PaymentLog} {tx : LogTransaction}
    (h : log.commit tx = .ok log') : log'.closed = log.closed := by
  unfold commit at h
  split at h
  · cases h
    rfl
  · cases h

/-- A call records a row and settles it, on a customer and a merchant as they were read. -/
structure Engine.Records (e : Engine) (c m : Account) (row : NewPayment)
    (outcome : Except FlowError PaymentOutcome × Execution) : Prop where
  result : outcome.1 = .ok ⟨e.mint.paymentId e.paymentsInserted, row.status⟩
  customer : outcome.2.engine.ledger.Shows c.id
    (c.held + (row.status.settlement row.amount.units).1) (c.version.toInt + 1)
  merchant : outcome.2.engine.ledger.Shows m.id
    (m.held + (row.status.settlement row.amount.units).2) (m.version.toInt + 1)
  rows : ∃ stored, outcome.2.engine.log.rows.rows = e.log.rows.rows ++ [stored] ∧
    stored.read = .ok (row.recorded (e.mint.paymentId e.paymentsInserted) e.mint.now)
  closed : outcome.2.engine.log.closed = e.log.closed
  mint : outcome.2.engine.mint = e.mint
  inserted : outcome.2.engine.paymentsInserted = e.paymentsInserted + 1

section InRange
variable {c m : Account} {row : NewPayment}

/-- Every planned quantity is one that the ledger can hold. -/
def InRange (c m : Account) (row : NewPayment) : Prop :=
  ∀ p ∈ planned c m row, 0 ≤ p.value ∧ p.value < 2 ^ 63

/-- In range nothing stands in the way of settling a row. -/
theorem Settles.possible_of_inRange {r : Except MoveError Decision} (h : Settles c m row r)
    (hrange : InRange c m row) : ∃ mc mm, r = .ok (.settled row mc mm) ∧
      SettledBy c m row mc mm ∧ mc.ToStorable ∧ mm.ToStorable := by
  cases h with
  | impossible hfirst =>
    obtain ⟨hmem, hneg⟩ := mem_of_belowZero? hfirst
    exact absurd hneg (not_lt.mpr (hrange _ hmem).1)
  | @possible mc mm _ hsettled =>
    refine ⟨mc, mm, rfl, hsettled, hsettled.customer_planned.toStorable_of_mem fun p hp => ?_,
      hsettled.merchant_planned.toStorable_of_mem fun p hp => ?_⟩
    · rw [hsettled.customer_delta] at hp
      exact (hrange p (List.mem_append_left _ hp)).2
    · rw [hsettled.merchant_delta] at hp
      exact (hrange p (List.mem_append_right _ hp)).2

end InRange

namespace Flow.Task
variable {t : Task} {x : Execution} {c m : Account} {row : NewPayment}

/-- **A call that comes to a settled decision ends with its outcome.** -/
theorem records_program (hopen : x.engine.log.closed = false)
    (unused : x.engine.log.rows.find? (x.engine.mint.paymentId x.engine.paymentsInserted) = none)
    (hcustomer : x.engine.ledger.account t.customer = .ok c)
    (hmerchant : x.engine.ledger.account t.merchant = .ok m) (hne : c.id ≠ m.id)
    (hrow : row.customer = c.id ∧ row.merchant = m.id) (hamount : row.amount.units < 2 ^ 63)
    (hsettles : Settles c m row (t.decide c m)) (hrange : InRange c m row)
    (hvc : c.version.toInt + 1 < 2 ^ 63) (hvm : m.version.toInt + 1 < 2 ^ 63) (retries : Nat) :
    x.engine.Records c m row ((t.program retries).run (answer .undisturbed) x) := by
  obtain ⟨mc, mm, hd, hsettled, hcto, hmto⟩ := hsettles.possible_of_inRange hrange
  obtain ⟨-, -, hcid, -⟩ := Ledger.account_spec hcustomer
  obtain ⟨-, -, hmid, -⟩ := Ledger.account_spec hmerchant
  obtain ⟨y, hengine, hrecorded, -⟩ := run_attempt hcustomer hmerchant hd
  rw [← hcid] at hcustomer
  rw [← hmid] at hmerchant
  rw [← hengine] at hopen unused hcustomer hmerchant ⊢
  obtain ⟨stored, log, hinsert, hread, hcommit, hrows⟩ :=
    PaymentLog.insert_commit_of_lt y.engine.mint.now unused hamount
  obtain ⟨saga, l₁, happly, hcustomer₁, hmerchant₁⟩ := Saga.run_settled hcustomer hmerchant hne
    hsettled.customer_planned hsettled.merchant_planned hcto hmto hvc hvm
  have haccounts : ∀ id ∈ (Decision.settled row mc mm).statements, ∃ a, l₁.account id = .ok a := by
    intro id hid
    rcases List.mem_pair.mp hid with rfl | rfl
    · exact ⟨_, hrow.1 ▸ hcustomer₁⟩
    · exact ⟨_, hrow.2 ▸ hmerchant₁⟩
  obtain ⟨entries, l₂, z, hexecute, hz, happends⟩ :=
    Execution.run_execute_of_applied (d := .settled row mc mm) hopen happly hinsert haccounts hcommit
  rw [run_program_of_recorded (hrecorded _ _ hexecute)]
  have hledger : ∀ event, (z.engine.publish event).ledger = l₂ := fun event => by
    rw [Execution.ledger_publish, hz]
  have hlog : ∀ event, (z.engine.publish event).log = log := fun event => by
    rw [Execution.log_publish, hz]
  exact {
    result := rfl
    customer := by
      show (z.engine.publish _).ledger.Shows _ _ _
      rw [hledger, ← hsettled.customer_delta]
      exact happends.shows (Ledger.shows_result hcustomer₁ hsettled.customer_planned hvc)
    merchant := by
      show (z.engine.publish _).ledger.Shows _ _ _
      rw [hledger, ← hsettled.merchant_delta]
      exact happends.shows (Ledger.shows_result hmerchant₁ hsettled.merchant_planned hvm)
    rows := ⟨stored, (congrArg (fun l : PaymentLog => l.rows.rows) (hlog _)).trans hrows, hread⟩
    closed := (congrArg PaymentLog.closed (hlog _)).trans (PaymentLog.closed_of_commit hcommit)
    mint := (Execution.mint_publish _ _).trans (by rw [hz])
    inserted := (Execution.paymentsInserted_publish _ _).trans (by rw [hz]) }

end Flow.Task

theorem Instruction.Opens.records {e : Engine} {instruction : Instruction} {t : Task}
    {x : Execution} {c m : Account} {row : NewPayment} (h : instruction.Opens e .undisturbed t x)
    (hx : x.engine = e) (hopen : e.log.closed = false)
    (unused : e.log.rows.find? (e.mint.paymentId e.paymentsInserted) = none)
    (hcustomer : e.ledger.account t.customer = .ok c)
    (hmerchant : e.ledger.account t.merchant = .ok m) (hne : c.id ≠ m.id)
    (hrow : row.customer = c.id ∧ row.merchant = m.id) (hamount : row.amount.units < 2 ^ 63)
    (hsettles : Settles c m row (t.decide c m)) (hrange : InRange c m row)
    (hvc : c.version.toInt + 1 < 2 ^ 63) (hvm : m.version.toInt + 1 < 2 ^ 63) :
    e.Records c m row (e.call .undisturbed (instruction.program e.retries)) := by
  have hrun : e.call .undisturbed (instruction.program e.retries) =
      (t.program e.retries).run (answer .undisturbed) x := h.run_program e.retries
  rw [hrun]
  subst hx
  exact Task.records_program hopen unused hcustomer hmerchant hne hrow hamount hsettles hrange hvc
    hvm _

namespace Engine
variable {e : Engine} {c m : Account} (hopen : e.log.closed = false)
  (unused : e.log.rows.find? (e.mint.paymentId e.paymentsInserted) = none)
  (hvc : c.version.toInt + 1 < 2 ^ 63) (hvm : m.version.toInt + 1 < 2 ^ 63)
include hopen unused hvc hvm

/-- An authorization in range is approved. -/
theorem records_createPayment {request : PaymentRequest} (hne : request.merchant ≠ request.customer)
    (hcustomer : e.ledger.account request.customer = .ok c)
    (hmerchant : e.ledger.account request.merchant = .ok m) (hcard : request.card = c.card)
    (hle : request.amount ≤ c.balance)
    (hrange : InRange c m (authorizationRow request c m .approved)) :
    e.Records c m (authorizationRow request c m .approved) (e.createPayment .undisturbed request) := by
  have hopens : (Instruction.authorize request).Opens e .undisturbed
      ⟨request.customer, request.merchant, decideAuthorization request⟩ { engine := e } :=
    ⟨hne, rfl, rfl⟩
  obtain ⟨-, -, hcid, -⟩ := Ledger.account_spec hcustomer
  obtain ⟨-, -, hmid, -⟩ := Ledger.account_spec hmerchant
  have hc := Ledger.storable_of_account hcustomer
  exact hopens.records rfl hopen unused hcustomer hmerchant
    (fun heq => hne (hmid.symm.trans (heq.symm.trans hcid))) ⟨rfl, rfl⟩
    (Nat.lt_of_le_of_lt hle hc.balance)
    (decideAuthorization_settles hc (Ledger.storable_of_account hmerchant) hcard.symm hle) hrange hvc hvm

/-- A reaction in range is settled. -/
theorem records_reactToPayment {reaction : Reaction} {p : Payment} {amount : Amount}
    (hfind : e.log.find p.id = .ok (some p)) (haccepts : accepts p reaction.operation = true)
    (hne : p.customer ≠ p.merchant) (hcustomer : e.ledger.account p.customer = .ok c)
    (hmerchant : e.ledger.account p.merchant = .ok m) (hle : amount ≤ p.amount)
    (hrange : InRange c m (.reactingTo p reaction.operation reaction.settled amount)) :
    e.Records c m (.reactingTo p reaction.operation reaction.settled amount)
      (e.reactToPayment .undisturbed reaction p.id amount) := by
  obtain ⟨x, hrun, hengine⟩ := run_paymentById hfind
  have hopens : (Instruction.react reaction p.id amount).Opens e .undisturbed
      ⟨p.customer, p.merchant, fun customer merchant => reaction.decide p customer merchant amount⟩
      x := ⟨p, hrun, haccepts, rfl⟩
  obtain ⟨-, -, hcid, -⟩ := Ledger.account_spec hcustomer
  obtain ⟨-, -, hmid, -⟩ := Ledger.account_spec hmerchant
  obtain ⟨-, row, -, hread⟩ := PaymentLog.find_spec hfind
  have hamount := PaymentRow.amount_lt_of_read hread
  exact hopens.records hengine hopen unused hcustomer hmerchant (hcid ▸ hmid ▸ hne)
    ⟨hcid.symm, hmid.symm⟩ (Nat.lt_of_le_of_lt hle hamount)
    (reaction.decide_settles (Ledger.storable_of_account hcustomer) (Ledger.storable_of_account hmerchant) hle
      hamount) hrange hvc hvm

end Engine

end CardHolds

import CardHolds.Proofs.Engine.AllOrReported
import Mathlib.Algebra.FreeMonoid.Basic

/-!
# What a call leaves, and what came before it

A `Report` is everything that a lifecycle call leaves: its result, the engine at its end, what it
contributed to the accounts, and the statement entries that it appended itself.

An interference may look at all that occurred so far.  A call that is made after some history
therefore has the same report as one without a past, in an environment that knows this history from
the start (`Execution.report_since`).
-/

namespace CardHolds

open Program

/-- The environment after a history. -/
def Interference.after (i : Interference) (past : List Occurrence) : Interference where
  ledger h c := i.ledger (past ++ h) c
  log h c := i.log (past ++ h) c
  append h r := i.append (past ++ h) r
  streamEnd h := i.streamEnd (past ++ h)

/-- What a lifecycle call leaves. -/
structure Report where
  result : Except FlowError PaymentOutcome
  engine : Engine
  /-- What its successful updates changed on every account. -/
  contribution : AccountId → Delta
  /-- The statement entries that it appended, in order. -/
  entries : FreeAddMonoid StatementEntry

namespace Execution
variable {ε α : Type} {i : Interference}

/-- The statement entries that a call appends when it is a request that the ledger side carries
out. -/
def ownEntries (i : Interference) (call : LifecycleCall) (x : Execution) :
    FreeAddMonoid StatementEntry :=
  match call with
  | .stream (.send request) =>
    let interruption := i.append x.history request
    let before := (x.others interruption.before).engine.ledger
    if x.peer.serving && !interruption.hangUp && interruption.instead.isNone then
      .ofList ((Server.handle before request).2.store.entries.drop before.store.entries.length)
    else
      0
  | _ => 0

/-- What is left by the program of a call from here on. -/
def report (i : Interference) (p : Program lifecycleCalls (Except FlowError PaymentOutcome))
    (x : Execution) : Report where
  result := (run i p x).1
  engine := (run i p x).2.engine
  contribution := p.accrued (answer i) (ownChange i) x
  entries := p.accrued (answer i) (ownEntries i) x

/-- The execution with a past. -/
def since (past : List Occurrence) (x : Execution) : Execution :=
  { x with history := past ++ x.history }

section Since
variable {past : List Occurrence} {x : Execution}

theorem note_since (o : Occurrence) : (x.since past).note o = (x.note o).since past := by
  simp only [note, since, List.append_assoc]

theorem interrupted_since (past : List Occurrence) (it : Interruption ε) (call : Execution → Except ε α × Execution)
    (hcall : ∀ y : Execution, call (y.since past) = ((call y).1, (call y).2.since past)) :
    (x.since past).interrupted it call =
      ((x.interrupted it call).1, (x.interrupted it call).2.since past) := by
  have hothers : ∀ (y : Execution) commands,
      (y.since past).others commands = (y.others commands).since past := fun _ _ => rfl
  unfold interrupted
  rw [hothers]
  cases it.instead with
  | some e => rfl
  | none =>
    simp only [hcall]
    rfl

/-- A call and the entry about it in the history. -/
theorem noted_since (it : Interruption ε) (call : Execution → Except ε α × Execution)
    (o : Except ε α → Occurrence)
    (hcall : ∀ y : Execution, call (y.since past) = ((call y).1, (call y).2.since past)) :
    (((x.since past).interrupted it call).1,
        ((x.since past).interrupted it call).2.note (o ((x.since past).interrupted it call).1)) =
      ((x.interrupted it call).1,
        ((x.interrupted it call).2.note (o (x.interrupted it call).1)).since past) := by
  rw [interrupted_since past it call hcall, note_since]

theorem ledgerCall_since (c : LedgerCall) :
    (x.since past).ledgerCall i c =
      ((x.ledgerCall (i.after past) c).1, (x.ledgerCall (i.after past) c).2.since past) := by
  cases c with
  | account id =>
    exact noted_since (i.ledger (past ++ x.history) (.account id))
      (fun x => (x.engine.ledger.account id, x)) (fun r => .ledger (.account id) (errorOf r))
      fun _ => rfl
  | updateBalance id u =>
    exact noted_since (i.ledger (past ++ x.history) (.updateBalance id u))
      (fun x => ((x.engine.ledger.updateBalance id u).1,
        { x with engine := { x.engine with ledger := (x.engine.ledger.updateBalance id u).2 } }))
      (fun r => .ledger (.updateBalance id u) (errorOf r)) fun _ => rfl
  | openStream =>
    exact noted_since (i.ledger (past ++ x.history) .openStream)
      (fun x => (.ok (), { x with peer := {} })) (fun r => .ledger .openStream (errorOf r))
      fun _ => rfl

/-- The transaction is over, whatever happened in it. -/
theorem noted_since_closed (it : Interruption ε) (call : Execution → Except ε α × Execution)
    (o : Except ε α → Occurrence)
    (hcall : ∀ y : Execution, call (y.since past) = ((call y).1, (call y).2.since past)) :
    (((x.since past).interrupted it call).1,
        { ((x.since past).interrupted it call).2 with transaction := {} }.note
          (o ((x.since past).interrupted it call).1)) =
      ((x.interrupted it call).1,
        ({ (x.interrupted it call).2 with transaction := {} }.note
          (o (x.interrupted it call).1)).since past) := by
  rw [interrupted_since past it call hcall, ← note_since]
  rfl

theorem commitTransaction_since (y : Execution) :
    (y.since past).commitTransaction = (y.commitTransaction.1, y.commitTransaction.2.since past) := by
  unfold commitTransaction since
  simp only
  cases y.engine.log.commit y.transaction <;> rfl

theorem logCall_since (c : LogCall) :
    (x.since past).logCall i c =
      ((x.logCall (i.after past) c).1, (x.logCall (i.after past) c).2.since past) := by
  cases c with
  | begin =>
    exact noted_since (i.log (past ++ x.history) .begin)
      (fun x => (x.engine.log.begin.map fun _ => (), { x with transaction := {} }))
      (fun r => .log .begin (errorOf r)) fun _ => rfl
  | insert payment =>
    exact noted_since (i.log (past ++ x.history) (.insert payment)) (·.insertPayment payment)
      (fun r => .log (.insert payment) (errorOf r)) fun _ => rfl
  | commit =>
    exact noted_since_closed (i.log (past ++ x.history) .commit) commitTransaction
      (fun r => .log .commit (errorOf r)) commitTransaction_since
  | rollback =>
    exact noted_since_closed (i.log (past ++ x.history) .rollback) (fun x => (.ok (), x))
      (fun r => .log .rollback (errorOf r)) fun _ => rfl
  | find id =>
    exact noted_since (i.log (past ++ x.history) (.find id)) (fun x => (x.engine.log.find id, x))
      (fun r => .log (.find id) (errorOf r)) fun _ => rfl
  | involving account =>
    exact noted_since (i.log (past ++ x.history) (.involving account))
      (fun x => (x.engine.log.involving account, x))
      (fun r => .log (.involving account) (errorOf r)) fun _ => rfl

theorem serveRequest_since (request : StatementRequest) :
    (x.since past).serveRequest i request =
      (x.serveRequest (i.after past) request).since past := by
  have happend : i.append (x.since past).history request =
      (i.after past).append x.history request := rfl
  have hcall := interrupted_since (x := x.note (.append request)) past
    ((i.after past).append x.history request).toInterruption
    (fun x => ((Server.handle x.engine.ledger request).1,
      { x with engine := { x.engine with ledger := (Server.handle x.engine.ledger request).2 } }))
    fun _ => rfl
  unfold serveRequest
  simp only [happend, note_since, hcall]
  split <;> rfl

theorem endStream_since : (x.since past).endStream i = (x.endStream (i.after past)).since past := by
  have hend : i.streamEnd (x.since past).history = (i.after past).streamEnd x.history := rfl
  have hpeer : (x.since past).peer = x.peer := rfl
  unfold endStream
  simp only [hend, hpeer, note_since]
  split <;> rfl

theorem streamCall_since (c : StreamCall) :
    (x.since past).streamCall i c =
      ((x.streamCall (i.after past) c).1, (x.streamCall (i.after past) c).2.since past) := by
  have hpeer : (x.since past).peer = x.peer := rfl
  cases c with
  | send request =>
    simp only [streamCall, hpeer, serveRequest_since]
    split <;> rfl
  | receive =>
    simp only [streamCall, hpeer]
    split <;> rfl
  | hangUp => exact congrArg (Prod.mk ()) endStream_since
  | drain => rfl

/-- The environment answers as if it knew the past from the start. -/
theorem answer_since (c : LifecycleCall) :
    answer i c (x.since past) =
      ((answer (i.after past) c x).1, (answer (i.after past) c x).2.since past) := by
  cases c with
  | ledger c => exact ledgerCall_since c
  | log c => exact logCall_since c
  | stream c => exact streamCall_since c
  | publish event => rfl

theorem ownChange_since (c : LifecycleCall) :
    ownChange i c (x.since past) = ownChange (i.after past) c x := by
  match c with
  | .ledger (.updateBalance id u) =>
    simp only [ownChange, ledgerCall_since]
    rfl
  | .ledger (.account _) | .ledger .openStream | .log _ | .stream _ | .publish _ => rfl

theorem ownEntries_since (c : LifecycleCall) :
    ownEntries i c (x.since past) = ownEntries (i.after past) c x := by
  match c with
  | .stream (.send _) => rfl
  | .stream .receive | .stream .hangUp | .stream .drain | .ledger _ | .log _ | .publish _ => rfl

theorem run_since (p : Program lifecycleCalls α) :
    run i p (x.since past) = ((run (i.after past) p x).1, (run (i.after past) p x).2.since past) := by
  unfold run
  induction p generalizing x with
  | done a => rfl
  | ask c next ih => rw [run_ask, run_ask, answer_since, ih]

theorem accrued_since {M : Type} [Zero M] [Add M] {worth worth' : LifecycleCall → Execution → M}
    (hworth : ∀ c (y : Execution), worth c (y.since past) = worth' c y)
    (p : Program lifecycleCalls α) :
    p.accrued (answer i) worth (x.since past) = p.accrued (answer (i.after past)) worth' x := by
  induction p generalizing x with
  | done a => rfl
  | ask c next ih => rw [accrued_ask, accrued_ask, hworth, answer_since, ih]

/-- **A call made after some history reports what it would report without a past**, in an environment
that knows this history. -/
theorem report_since (p : Program lifecycleCalls (Except FlowError PaymentOutcome)) :
    report i p (x.since past) = report (i.after past) p x := by
  unfold report
  rw [run_since, accrued_since fun c _ => ownChange_since c, accrued_since fun c _ => ownEntries_since c]
  rfl

end Since

end Execution

end CardHolds

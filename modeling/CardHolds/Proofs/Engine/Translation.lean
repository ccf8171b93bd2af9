import CardHolds.Engine.Execution
import CardHolds.Proofs.Lifecycle.Lockstep

/-!
# Engines that answer alike

A `Translation` changes what a ledger holds, and accounts and operations accordingly, in such a way
that operations on a translated ledger answer with translated accounts.  It may also change who hears
of events.

A call to a translated engine is answered with the translated reply, and leaves the translated engine
(`Execution.answer_translated`).  Telling the observers is left out here, since what they heard need
not be translated in step.
-/

namespace CardHolds

/-- Who hears of events, and what was heard. -/
structure Hearing where
  observers : Observers
  recorded : List Payment
  stranded : List CompensationFailed

namespace Engine

/-- Who hears of events of the engine, and what was heard. -/
def hearing (e : Engine) : Hearing := ⟨e.observers, e.recorded, e.stranded⟩

/-- The engine with other observers. -/
def heardBy (e : Engine) (h : Hearing) : Engine :=
  { e with observers := h.observers, recorded := h.recorded, stranded := h.stranded }

end Engine

/-- A change of what the ledger holds that is followed by all its operations, and one of what was
heard. -/
structure Translation where
  ledger : Ledger → Ledger
  account : Account → Account
  command : Ledger.Command → Ledger.Command
  hearing : Hearing → Hearing
  /-- What an operation answers. -/
  answer : Ledger.Answer → Ledger.Answer
  opens_command : ∀ c, (command c).opens = c.opens
  perform_ledger : ∀ l fresh now c, (ledger l).perform fresh now (command c) =
    ((l.perform fresh now c).1.map answer, ledger (l.perform fresh now c).2)
  account_ledger : ∀ l id, (ledger l).account id = (l.account id).map account
  updateBalance_ledger : ∀ l id u, (ledger l).updateBalance id u =
    ((l.updateBalance id u).1.map account, ledger (l.updateBalance id u).2)
  append_ledger : ∀ l id payment, (ledger l).append id payment =
    ((l.append id payment).1, ledger (l.append id payment).2)

namespace Translation
variable {ε α : Type} (t : Translation)

/-- Nothing is changed. -/
def identity : Translation where
  ledger l := l
  account a := a
  command c := c
  hearing h := h
  answer a := a
  opens_command _ := rfl
  perform_ledger l fresh now c := by
    rcases l.perform fresh now c with ⟨r, l'⟩
    cases r <;> rfl
  account_ledger l id := by cases l.account id <;> rfl
  updateBalance_ledger l id u := by
    rcases l.updateBalance id u with ⟨r, l'⟩
    cases r <;> rfl
  append_ledger _ _ _ := rfl

/-- The engine with a translated ledger. -/
def engine (e : Engine) : Engine :=
  { e with ledger := t.ledger e.ledger }.heardBy (t.hearing e.hearing)

/-- Other writers carry out translated operations. -/
def interruption (it : Interruption ε) : Interruption ε :=
  { it with before := it.before.map t.command, after := it.after.map t.command }

/-- The environment with translated operations. -/
def interference (i : Interference) : Interference where
  ledger h c := t.interruption (i.ledger h c)
  log h c := t.interruption (i.log h c)
  append h r :=
    { i.append h r with
      before := (i.append h r).before.map t.command
      after := (i.append h r).after.map t.command }
  streamEnd h :=
    { i.streamEnd h with
      before := (i.streamEnd h).before.map t.command
      after := (i.streamEnd h).after.map t.command }

theorem interference_eq_self (h : ∀ c, t.command c = c) (i : Interference) : t.interference i = i := by
  have hmap : ∀ commands : List Ledger.Command, commands.map t.command = commands := fun commands =>
    (List.map_congr_left fun c _ => h c).trans (List.map_id' commands)
  simp only [interference, interruption, hmap]

/-- The execution on the translated engine. -/
def execution (x : Execution) : Execution := { x with engine := t.engine x.engine }

/-- **An operation on a translated engine** answers with the translated answer. -/
theorem perform_engine (e : Engine) (c : Ledger.Command) :
    (t.engine e).perform (t.command c) =
      ((e.perform c).1.map t.answer, t.engine (e.perform c).2) := by
  have hperform := t.perform_ledger e.ledger (e.mint.accountId e.accountsOpened) e.mint.now c
  have hok : ((e.ledger.perform (e.mint.accountId e.accountsOpened) e.mint.now c).1.map
      t.answer).isOk =
        (e.ledger.perform (e.mint.accountId e.accountsOpened) e.mint.now c).1.isOk := by
    cases (e.ledger.perform (e.mint.accountId e.accountsOpened) e.mint.now c).1 <;> rfl
  show Engine.perform { e with ledger := t.ledger e.ledger, observers := _, recorded := _, stranded := _ } _ = _
  simp only [Engine.perform, hperform, t.opens_command, hok]
  rfl

theorem performAll_engine (e : Engine) (commands : List Ledger.Command) :
    (t.engine e).performAll (commands.map t.command) = t.engine (e.performAll commands) := by
  induction commands generalizing e with
  | nil => rfl
  | cons c rest ih =>
    show ((t.engine e).perform (t.command c)).2.performAll (rest.map t.command) = _
    rw [perform_engine]
    exact ih (e.perform c).2

theorem others_execution (x : Execution) (commands : List Ledger.Command) :
    (t.execution x).others (commands.map t.command) = t.execution (x.others commands) := by
  unfold Execution.others execution
  rw [performAll_engine]

theorem handle_ledger (l : Ledger) (request : StatementRequest) :
    Server.handle (t.ledger l) request =
      ((Server.handle l request).1, t.ledger (Server.handle l request).2) := by
  unfold Server.handle
  rw [t.append_ledger]
  rcases l.append request.account request.payment with ⟨r, l'⟩
  cases r <;> rfl

end Translation

namespace Execution
variable {ε α : Type} (t : Translation) {x : Execution}

/-- A call that is answered alike is answered alike under an interruption. -/
theorem interrupted_translated (x : Execution) (it : Interruption ε)
    (call : Execution → Except ε α × Execution) (f : α → α)
    (hcall : ∀ y, call (t.execution y) = ((call y).1.map f, t.execution (call y).2)) :
    (t.execution x).interrupted (t.interruption it) call =
      ((x.interrupted it call).1.map f, t.execution (x.interrupted it call).2) := by
  unfold interrupted Translation.interruption
  simp only [Translation.others_execution]
  cases it.instead with
  | some e =>
    simp only [Translation.others_execution]
    cases it.replacing <;> rfl
  | none =>
    simp only [hcall, Translation.others_execution]
    cases it.replacing <;> rfl

/-- The same for a call whose answer needs no translation. -/
theorem interrupted_translated_same (x : Execution) (it : Interruption ε)
    (call : Execution → Except ε α × Execution)
    (hcall : ∀ y, call (t.execution y) = ((call y).1, t.execution (call y).2)) :
    (t.execution x).interrupted (t.interruption it) call =
      ((x.interrupted it call).1, t.execution (x.interrupted it call).2) := by
  have hid : ∀ r : Except ε α, r.map id = r := fun r => by cases r <;> rfl
  rw [interrupted_translated t x it call id fun y => by rw [hcall, hid], hid]

theorem errorOf_map (f : α → α) (r : Except ε α) : errorOf (r.map f) = errorOf r := by
  cases r <;> rfl

/-- A call and the entry about it in the history. -/
theorem noted_translated (x : Execution) (it : Interruption ε)
    (call : Execution → Except ε α × Execution) (f : α → α) (o : Option ε → Occurrence)
    (hcall : ∀ y, call (t.execution y) = ((call y).1.map f, t.execution (call y).2)) :
    (((t.execution x).interrupted (t.interruption it) call).1,
        ((t.execution x).interrupted (t.interruption it) call).2.note
          (o (errorOf ((t.execution x).interrupted (t.interruption it) call).1))) =
      ((x.interrupted it call).1.map f,
        t.execution ((x.interrupted it call).2.note (o (errorOf (x.interrupted it call).1)))) := by
  rw [interrupted_translated t x it call f hcall, errorOf_map]
  rfl

theorem noted_translated_same (x : Execution) (it : Interruption ε)
    (call : Execution → Except ε α × Execution) (o : Option ε → Occurrence)
    (hcall : ∀ y, call (t.execution y) = ((call y).1, t.execution (call y).2)) :
    (((t.execution x).interrupted (t.interruption it) call).1,
        ((t.execution x).interrupted (t.interruption it) call).2.note
          (o (errorOf ((t.execution x).interrupted (t.interruption it) call).1))) =
      ((x.interrupted it call).1,
        t.execution ((x.interrupted it call).2.note (o (errorOf (x.interrupted it call).1)))) := by
  rw [interrupted_translated_same t x it call hcall]
  rfl

/-- The transaction is over, whatever happened in it. -/
theorem noted_translated_closed (x : Execution) (it : Interruption ε)
    (call : Execution → Except ε α × Execution) (o : Option ε → Occurrence)
    (hcall : ∀ y, call (t.execution y) = ((call y).1, t.execution (call y).2)) :
    (((t.execution x).interrupted (t.interruption it) call).1,
        { ((t.execution x).interrupted (t.interruption it) call).2 with transaction := {} }.note
          (o (errorOf ((t.execution x).interrupted (t.interruption it) call).1))) =
      ((x.interrupted it call).1,
        t.execution ({ (x.interrupted it call).2 with transaction := {} }.note
          (o (errorOf (x.interrupted it call).1)))) := by
  rw [interrupted_translated_same t x it call hcall]
  rfl

theorem ledgerCall_translated (i : Interference) (x : Execution) (c : LedgerCall) :
    (t.execution x).ledgerCall (t.interference i) c =
      (c.changed t.account (x.ledgerCall i c).1, t.execution (x.ledgerCall i c).2) := by
  cases c with
  | account id =>
    exact noted_translated t x (i.ledger x.history (.account id))
      (fun x => (x.engine.ledger.account id, x)) t.account (.ledger (.account id))
      fun y => congrArg (·, t.execution y) (t.account_ledger y.engine.ledger id)
  | updateBalance id u =>
    refine noted_translated t x (i.ledger x.history (.updateBalance id u))
      (fun x => ((x.engine.ledger.updateBalance id u).1,
        { x with engine := { x.engine with ledger := (x.engine.ledger.updateBalance id u).2 } }))
      t.account (.ledger (.updateBalance id u)) fun y => ?_
    have hledger : (t.execution y).engine.ledger = t.ledger y.engine.ledger := rfl
    simp only [hledger, t.updateBalance_ledger]
    rfl
  | openStream =>
    exact noted_translated_same t x (i.ledger x.history .openStream)
      (fun x => (.ok (), { x with peer := {} })) (.ledger .openStream) fun _ => rfl

theorem commitTransaction_translated (y : Execution) :
    (t.execution y).commitTransaction =
      (y.commitTransaction.1, t.execution y.commitTransaction.2) := by
  have hlog : (t.execution y).engine.log = y.engine.log := rfl
  have htransaction : (t.execution y).transaction = y.transaction := rfl
  unfold commitTransaction
  rw [hlog, htransaction]
  cases y.engine.log.commit y.transaction <;> rfl

theorem logCall_translated (i : Interference) (x : Execution) (c : LogCall) :
    (t.execution x).logCall (t.interference i) c =
      ((x.logCall i c).1, t.execution (x.logCall i c).2) := by
  cases c with
  | begin =>
    exact noted_translated_same t x (i.log x.history .begin)
      (fun x => (x.engine.log.begin.map fun _ => (), { x with transaction := {} }))
      (.log .begin) fun _ => rfl
  | insert payment =>
    exact noted_translated_same t x (i.log x.history (.insert payment))
      ((·.insertPayment payment)) (.log (.insert payment)) fun _ => rfl
  | commit =>
    exact noted_translated_closed t x (i.log x.history .commit) commitTransaction
      (.log .commit) (commitTransaction_translated t)
  | rollback =>
    exact noted_translated_closed t x (i.log x.history .rollback) (fun x => (.ok (), x))
      (.log .rollback) fun _ => rfl
  | find id =>
    exact noted_translated_same t x (i.log x.history (.find id))
      (fun x => (x.engine.log.find id, x)) (.log (.find id)) fun _ => rfl
  | involving account =>
    exact noted_translated_same t x (i.log x.history (.involving account))
      (fun x => (x.engine.log.involving account, x)) (.log (.involving account)) fun _ => rfl

theorem serveRequest_translated (i : Interference) (x : Execution) (request : StatementRequest) :
    (t.execution x).serveRequest (t.interference i) request =
      t.execution (x.serveRequest i request) := by
  have hcall := interrupted_translated_same t (x.note (.append request))
    (i.append x.history request).toInterruption
    (fun x => ((Server.handle x.engine.ledger request).1,
      { x with engine := { x.engine with ledger := (Server.handle x.engine.ledger request).2 } }))
    fun y => by
      have hledger : (t.execution y).engine.ledger = t.ledger y.engine.ledger := rfl
      simp only [hledger, t.handle_ledger]
      rfl
  -- there are no accounts in the history, so that both environments go by the same one
  have happend : (t.interference i).append (t.execution x).history request =
      { i.append x.history request with
        before := (i.append x.history request).before.map t.command
        after := (i.append x.history request).after.map t.command } := rfl
  have hnote : (t.execution x).note (.append request) = t.execution (x.note (.append request)) := rfl
  have hinterrupted : (t.execution (x.note (.append request))).interrupted
      ((t.interference i).append (t.execution x).history request).toInterruption _ = _ := hcall
  unfold serveRequest
  rw [happend] at hinterrupted ⊢
  simp only [hnote, hinterrupted, t.others_execution]
  split
  · rfl
  · rfl

theorem endStream_translated (i : Interference) (x : Execution) :
    (t.execution x).endStream (t.interference i) = t.execution (x.endStream i) := by
  have hend : (t.interference i).streamEnd (t.execution x).history =
      { i.streamEnd x.history with
        before := (i.streamEnd x.history).before.map t.command
        after := (i.streamEnd x.history).after.map t.command } := rfl
  have hpeer : (t.execution x).peer = x.peer := rfl
  have hbefore : ((t.execution x).note .streamEnd).others
      ((i.streamEnd x.history).before.map t.command) =
        t.execution ((x.note .streamEnd).others (i.streamEnd x.history).before) :=
    t.others_execution (x.note .streamEnd) _
  unfold endStream
  simp only [hend, hpeer, hbefore]
  split
  · generalize (x.note .streamEnd).others (i.streamEnd x.history).before = y
    exact t.others_execution
      { y with
        peer := {
          replies := y.peer.replies ++ (i.streamEnd x.history).surplus.toList.map .ok ++
            (i.streamEnd x.history).failure.toList.map .error
          serving := false } } _
  · rfl

theorem streamCall_translated (i : Interference) (x : Execution) (c : StreamCall) :
    (t.execution x).streamCall (t.interference i) c =
      ((x.streamCall i c).1, t.execution (x.streamCall i c).2) := by
  have hpeer : (t.execution x).peer = x.peer := rfl
  cases c with
  | send request =>
    simp only [streamCall, hpeer, serveRequest_translated]
    split <;> rfl
  | receive =>
    simp only [streamCall, hpeer]
    split <;> rfl
  | hangUp => exact congrArg (Prod.mk ()) (endStream_translated t i x)
  | drain => rfl

/-- **A call to a translated engine is answered with the translated reply**, and leaves the translated
engine. -/
theorem answer_translated (i : Interference) (x : Execution) {c : LifecycleCall}
    (hc : ∀ event, c ≠ .publish event) :
    answer (t.interference i) c (t.execution x) =
      (c.changed t.account (answer i c x).1, t.execution (answer i c x).2) := by
  cases c with
  | ledger c => exact ledgerCall_translated t i x c
  | log c => exact logCall_translated t i x c
  | stream c => exact streamCall_translated t i x c
  | publish event => exact absurd rfl (hc event)

end Execution

end CardHolds

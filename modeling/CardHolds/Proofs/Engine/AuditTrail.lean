import CardHolds.Proofs.Engine.Concurrent
import CardHolds.Proofs.Engine.Filing

/-!
# The payment log is an audit trail

A `Workload` is an engine with any number of lifecycle calls in progress, each with faults of its own,
while others operate on the ledger as they like: they may write balances, delete accounts and close the
stores.

Whatever happens, every row of the log was added by one of the calls, which asked for it
(`Instruction.Explains`): an authorization by its request, and a reaction for a payment that was in the
log before, in the right state, and not for more than its amount unless the row says so
(`Workload.audit_trail`).  A reaction to a payment in any other state changes nothing.
-/

namespace CardHolds

open PaymentRow (ReadAs)
open Program

/-- The statuses with which a step of each kind is recorded. -/
def Operation.recordable : Operation → List PaymentStatus
  | authorization => [.wrongPaymentRequest, .insufficientFunds, .approved]
  | capture => [.invalidAmount, .successfulPayment]
  | cancel => [.invalidAmount, .successfulCancel]
  | refund => [.invalidAmount, .successfulRefund]

theorem Instruction.Explains.recordable {instruction : Instruction} {earlier : List Payment}
    {p : Payment} (h : instruction.Explains earlier p) : p.status ∈ p.operation.recordable := by
  cases instruction with
  | authorize request =>
    obtain ⟨hoperation, hstatus, -⟩ := h
    rw [hoperation]
    rcases hstatus with hstatus | hstatus | hstatus <;> rw [hstatus] <;> decide
  | react reaction id amount =>
    obtain ⟨q, -, -, -, -, hoperation, hstatus, -⟩ := h
    rw [hoperation]
    rcases hstatus with ⟨hstatus, -⟩ | ⟨hstatus, -⟩ <;> rw [hstatus] <;> cases reaction <;> decide

/-! ## Calls -/

/-- The log goes on: rows are added at the end, and names are given in order. -/
structure Engine.LogOnward (e e' : Engine) : Prop where
  names : e'.mint.paymentId = e.mint.paymentId
  inserted : e.paymentsInserted ≤ e'.paymentsInserted
  rows : ∃ new, e'.log.rows.rows = e.log.rows.rows ++ new

theorem Engine.LogOnward.of_rows_eq {e e' : Engine} (names : e'.mint.paymentId = e.mint.paymentId)
    (inserted : e.paymentsInserted ≤ e'.paymentsInserted) (rows : e'.log.rows = e.log.rows) :
    e.LogOnward e' :=
  ⟨names, inserted, [], by rw [rows, List.append_nil]⟩

/-- Everything that the row refers to is in the log. -/
def Engine.Knows (e : Engine) (found : Option Payment) : Prop :=
  ∀ q, found = some q → ∃ row ∈ e.log.rows.rows, row.read = .ok q

theorem Engine.LogOnward.knows {e e' : Engine} (h : e.LogOnward e') {found : Option Payment}
    (hfound : e.Knows found) : e'.Knows found := by
  intro q hq
  obtain ⟨row, hrow, hread⟩ := hfound q hq
  obtain ⟨new, hnew⟩ := h.rows
  exact ⟨row, hnew ▸ List.mem_append_left new hrow, hread⟩

/-- A row that a call adds to the log, by a decision of its own. -/
def Caller.Adds (c : Caller) (e : Engine) (row : PaymentRow) : Prop :=
  ∃ found d id now, c.instruction.Decides found d ∧ e.Knows found ∧
    row.read = .ok (d.row.recorded id now)

/-- The call keeps its file from here on, and the file is right. -/
structure Caller.Filing (c : Caller) (e : Engine) (f : File) : Prop where
  follows : c.rest.Ensures (filing fun found => c.instruction.Decides found) f Instruction.Closes
  drafted : f.Drafted 0 e c.transaction
  inOrder : f.InOrder fun found => c.instruction.Decides found
  found : e.Knows f.found

namespace Caller
variable {c : Caller} {e e' : Engine} {f : File}

theorem filing_start (e : Engine) (instruction : Instruction) (faults : Interference) :
    Caller.Filing ⟨instruction, faults, instruction.program e.retries, {}, { serving := false }, [], {}⟩
      e {} :=
  ⟨instruction.program_files e.retries, File.drafted_of_none rfl, File.inOrder_start,
    fun q hq => by cases hq⟩

theorem Filing.onward (h : c.Filing e f) (he : e.LogOnward e') : c.Filing e' f := by
  refine ⟨h.follows, fun ds hds => ?_, h.inOrder, he.knows h.found⟩
  obtain ⟨hread, hminted⟩ := h.drafted ds hds
  exact ⟨hread, fun p hp => (hminted p hp).mono he.names he.inserted⟩

section Step
variable {call : LifecycleCall}
  {next : lifecycleCalls.Reply call → Program lifecycleCalls (Except FlowError PaymentOutcome)}

/-- What the file of a call shows after the next reply. -/
def fileAfter (c : Caller) (e : Engine) (f : File) (call : LifecycleCall) : File :=
  (filing fun found => c.instruction.Decides found).observe f call
    (Execution.answer c.faults.alone call (c.execution e)).1

theorem Filing.asks (h : c.Filing e f) (hrest : c.rest = .ask call next) :
    (filing fun found => c.instruction.Decides found).Asks f call := by
  have hfollows := h.follows
  rw [hrest] at hfollows
  exact hfollows.1

theorem Filing.answer_follows (h : c.Filing e f) (hrest : c.rest = .ask call next) :
    File.Follows 0 e (c.step e).2 (c.step e).1.transaction f (c.fileAfter e f call) := by
  rw [step_ask hrest]
  exact Execution.answer_follows (i := c.faults.alone) (x := c.execution e) h.drafted
    (Nat.zero_le _) call (h.asks hrest)

theorem Filing.logOnward (h : c.Filing e f) : e.LogOnward (c.step e).2 := by
  cases hrest : c.rest with
  | done result =>
    rw [step_done hrest]
    exact .of_rows_eq rfl le_rfl rfl
  | ask call next =>
    have hanswer := h.answer_follows hrest
    refine ⟨hanswer.names, hanswer.inserted, ?_⟩
    rcases hanswer.rows with ⟨hrows, -⟩ | ⟨row, -, -, -, -, -, -, hrows⟩
    · exact ⟨[], by rw [hrows, List.append_nil]⟩
    · exact ⟨[row], hrows⟩

/-- The call goes on to keep its file. -/
theorem Filing.observe (h : c.Filing e f) (hrest : c.rest = .ask call next) :
    (c.step e).1.Filing (c.step e).2 (c.fileAfter e f call) := by
  have hanswer := h.answer_follows hrest
  have honward := h.logOnward
  have hfollows := h.follows
  rw [hrest] at hfollows
  have hnext := hfollows.2 _ (Execution.answer_replies c.faults.alone (c.execution e) f call)
  rw [step_ask hrest] at hanswer honward ⊢
  refine ⟨hnext, hanswer.drafted, h.inOrder.observe call (h.asks hrest) _, ?_⟩
  rcases hanswer.found with hfound | ⟨-, hfound⟩
  · exact honward.knows (hfound ▸ h.found)
  · exact honward.knows hfound

/-- **A step of a call adds a row of its own, or none.** -/
theorem Filing.step (h : c.Filing e f) :
    (∃ f', (c.step e).1.Filing (c.step e).2 f') ∧ e.LogOnward (c.step e).2 ∧
      ((c.step e).2.log.rows = e.log.rows ∨
        ∃ row, c.Adds e row ∧ (c.step e).2.log.rows.rows = e.log.rows.rows ++ [row]) := by
  refine ⟨?_, h.logOnward, ?_⟩
  · cases hrest : c.rest with
    | done result =>
      rw [step_done hrest]
      exact ⟨f, h⟩
    | ask call next => exact ⟨_, h.observe hrest⟩
  · cases hrest : c.rest with
    | done result =>
      rw [step_done hrest]
      exact Or.inl rfl
    | ask call next =>
      rcases (h.answer_follows hrest).rows with ⟨hrows, -⟩ | ⟨row, p, -, hfiled, hfound, hread, -, hrows⟩
      · exact Or.inl hrows
      · have hinOrder := (h.observe hrest).inOrder
        rw [step_ask hrest] at hinOrder
        obtain ⟨d, id, now, hd, rfl, -⟩ := hinOrder p hfiled
        exact Or.inr ⟨row, ⟨_, d, id, now, hd, hfound ▸ h.found, hread⟩, hrows⟩

end Step

end Caller

/-! ## Workloads -/

/-- An engine with lifecycle calls in progress. -/
structure Workload (ι : Type) where
  engine : Engine
  callers : ι → Caller

namespace Workload

/-- What may happen next. -/
inductive Act (ι : Type) where
  /-- A lifecycle call goes on. -/
  | goOn (k : ι)
  /-- Somebody operates on the ledger. -/
  | operate (command : Ledger.Command)
  | setClock (now : Timestamp)
  | closeLedger
  | closeLog
  | reopen

variable {ι : Type} [DecidableEq ι] {w : Workload ι} {schedule : List (Act ι)} {ps : List Payment}

/-- Nothing has been done yet. -/
def start (e : Engine) (instructions : ι → Instruction) (faults : ι → Interference) :
    Workload ι where
  engine := e
  callers k :=
    { instruction := instructions k
      faults := faults k
      rest := (instructions k).program e.retries }

/-- One act. -/
def step (w : Workload ι) : Act ι → Workload ι
  | .goOn k =>
    { engine := ((w.callers k).step w.engine).2
      callers := Function.update w.callers k ((w.callers k).step w.engine).1 }
  | .operate command => { w with engine := (w.engine.perform command).2 }
  | .setClock now => { w with engine := { w.engine with mint := { w.engine.mint with now := now } } }
  | .closeLedger => { w with engine := w.engine.closeLedger }
  | .closeLog => { w with engine := w.engine.closeLog }
  | .reopen => { w with engine := w.engine.reopen }

/-- A schedule, act by act. -/
def run (w : Workload ι) (schedule : List (Act ι)) : Workload ι := schedule.foldl step w

@[simp] theorem run_concat (w : Workload ι) (schedule : List (Act ι)) (a : Act ι) :
    w.run (schedule ++ [a]) = (w.run schedule).step a := List.foldl_concat ..

/-- In the schedule there is a step of a call that added the payment to those before, and the call
explains it. -/
def Records (w : Workload ι) (schedule : List (Act ι)) (earlier : List Payment) (p : Payment) :
    Prop :=
  ∃ k before after, schedule = before ++ .goOn k :: after ∧
    ReadAs (w.run before).engine.log.rows.rows earlier ∧
    ReadAs (w.run (before ++ [.goOn k])).engine.log.rows.rows (earlier ++ [p]) ∧
    (w.callers k).instruction.Explains earlier p

theorem Records.append {earlier : List Payment} {p : Payment} (h : w.Records schedule earlier p)
    (a : Act ι) : w.Records (schedule ++ [a]) earlier p := by
  obtain ⟨k, before, after, rfl, hbefore, hafter, hexplains⟩ := h
  exact ⟨k, before, after ++ [a], by simp, hbefore, hafter, hexplains⟩

/-- What is known after a schedule, where the log reads as the given payments. -/
structure Traced (w : Workload ι) (schedule : List (Act ι)) (ps : List Payment) : Prop where
  read : ReadAs (w.run schedule).engine.log.rows.rows ps
  regular : ∀ p ∈ ps, p.Regular
  filing : ∀ k, ∃ f, ((w.run schedule).callers k).Filing (w.run schedule).engine f
  instruction : ∀ k, ((w.run schedule).callers k).instruction = (w.callers k).instruction
  recorded : ∀ earlier p later, ps = earlier ++ p :: later → w.Records schedule earlier p

theorem traced_start {e : Engine} (rows : e.log.rows.rows = []) (instructions : ι → Instruction)
    (faults : ι → Interference) : (start e instructions faults).Traced [] [] where
  read := congrArg (List.map PaymentRow.read) rows
  regular := by simp
  filing k := ⟨{}, Caller.filing_start e (instructions k) (faults k)⟩
  instruction _ := rfl
  recorded earlier p later h := by simp at h

/-- Somebody else acts, and the rows stay as they are. -/
theorem Traced.outside (h : w.Traced schedule ps) {a : Act ι} {e : Engine}
    (hstep : (w.run schedule).step a = { w.run schedule with engine := e })
    (onward : (w.run schedule).engine.LogOnward e) (rows : e.log.rows = (w.run schedule).engine.log.rows) :
    w.Traced (schedule ++ [a]) ps := by
  refine ⟨?_, h.regular, fun k => ?_, fun k => ?_, fun earlier p later hps =>
    (h.recorded earlier p later hps).append a⟩
  · rw [run_concat, hstep, rows]
    exact h.read
  · rw [run_concat, hstep]
    obtain ⟨f, hf⟩ := h.filing k
    exact ⟨f, hf.onward onward⟩
  · rw [run_concat, hstep]
    exact h.instruction k

/-- What a call knows is among the payments of the log. -/
theorem Traced.mem (h : w.Traced schedule ps) {found : Option Payment}
    (hknows : (w.run schedule).engine.Knows found) : ∀ q, found = some q → q ∈ ps := by
  intro q hq
  obtain ⟨row, hrow, hread⟩ := hknows q hq
  exact h.read.mem_of_read hrow hread

/-- **A step of a call keeps the trail**: the row that it may add has its explanation. -/
theorem Traced.goOn (h : w.Traced schedule ps) (k : ι) :
    ∃ ps', w.Traced (schedule ++ [.goOn k]) ps' := by
  obtain ⟨f, hf⟩ := h.filing k
  obtain ⟨⟨f', hf'⟩, honward, hrows⟩ := hf.step
  have hfiling : ∀ j, ∃ f, ((w.run (schedule ++ [.goOn k])).callers j).Filing
      (w.run (schedule ++ [.goOn k])).engine f := by
    rw [run_concat]
    refine forall_update (P := fun c : Caller => ∃ f, c.Filing _ f) ⟨f', hf'⟩ fun j => ?_
    obtain ⟨f, hf⟩ := h.filing j
    exact ⟨f, hf.onward honward⟩
  have hinstruction : ∀ j, ((w.run (schedule ++ [.goOn k])).callers j).instruction =
      (w.callers j).instruction := by
    intro j
    rw [run_concat, ← h.instruction j]
    show (Function.update (w.run schedule).callers k _ j).instruction = _
    by_cases hj : j = k
    · rw [hj, Function.update_self, Caller.step_instruction]
    · rw [Function.update_of_ne hj]
  rcases hrows with hsame | ⟨row, ⟨found, d, id, now, hd, hknows, hread⟩, hrows⟩
  · refine ⟨ps, ?_, h.regular, hfiling, hinstruction, fun earlier p later hps =>
      (h.recorded earlier p later hps).append _⟩
    rw [run_concat]
    show ReadAs ((w.run schedule).callers k |>.step (w.run schedule).engine).2.log.rows.rows ps
    rw [hsame]
    exact h.read
  · have hfound := h.mem hknows
    have hread' : ReadAs (w.run (schedule ++ [.goOn k])).engine.log.rows.rows
        (ps ++ [d.row.recorded id now]) := by
      rw [run_concat]
      show ReadAs ((w.run schedule).callers k |>.step (w.run schedule).engine).2.log.rows.rows _
      rw [hrows]
      exact h.read.append (PaymentRow.readAs_singleton hread)
    refine ⟨ps ++ [d.row.recorded id now], hread', fun p hp => ?_, hfiling, hinstruction,
      fun earlier p later hps => ?_⟩
    · rcases List.mem_append.mp hp with hp | hp
      · exact h.regular p hp
      · rw [List.mem_singleton.mp hp]
        exact hd.regular (fun q hq => h.regular q (hfound q hq)) id now
    · -- the payment is the new one, or it was there before
      rcases List.eq_nil_or_concat later with rfl | ⟨later, last, rfl⟩
      · obtain ⟨rfl, hp⟩ := List.append_inj' hps rfl
        cases hp
        refine ⟨k, schedule, [], rfl, h.read, hread', ?_⟩
        rw [← h.instruction k]
        exact hd.explains hfound id now
      · have hps : ps ++ [d.row.recorded id now] = (earlier ++ p :: later) ++ [last] := by
          rw [hps]
          simp
        exact (h.recorded earlier p later (List.append_inj_left' hps rfl)).append _

theorem Traced.step (h : w.Traced schedule ps) (a : Act ι) :
    ∃ ps', w.Traced (schedule ++ [a]) ps' := by
  cases a with
  | goOn k => exact h.goOn k
  | operate command => exact ⟨ps, h.outside rfl (.of_rows_eq rfl le_rfl rfl) rfl⟩
  | setClock now => exact ⟨ps, h.outside rfl (.of_rows_eq rfl le_rfl rfl) rfl⟩
  | closeLedger => exact ⟨ps, h.outside rfl (.of_rows_eq rfl le_rfl rfl) rfl⟩
  | closeLog => exact ⟨ps, h.outside rfl (.of_rows_eq rfl le_rfl rfl) rfl⟩
  | reopen => exact ⟨ps, h.outside rfl (.of_rows_eq rfl le_rfl rfl) rfl⟩

theorem traced_run {e : Engine} (rows : e.log.rows.rows = []) (instructions : ι → Instruction)
    (faults : ι → Interference) (schedule : List (Act ι)) :
    ∃ ps, (start e instructions faults).Traced schedule ps := by
  induction schedule using List.reverseRecOn with
  | nil => exact ⟨[], traced_start rows instructions faults⟩
  | append_singleton schedule a ih =>
    obtain ⟨ps, h⟩ := ih
    exact h.step a

end Workload

/-! ## Payments in another state -/

/-- A reaction to the payment changes neither store, whatever the amount; the caller gets the name of
the payment back as an invalid transaction, or learns that the log could not be read. -/
def Engine.Refuses (e : Engine) (reaction : Reaction) (p : Payment) : Prop :=
  ∀ (i : Interference) (amount : Amount),
    let find := i.log [] (.find p.id)
    (e.reactToPayment i reaction p.id amount).2.engine =
        (e.performAll find.before).performAll find.after ∧
      (e.reactToPayment i reaction p.id amount).1 =
        match find.replacing.or find.instead with
        | some error => .error (.ofLog error)
        | none =>
          if e.log.closed then .error (.database .closed) else .ok (.invalidTransaction p.id)

/-- **A payment in another state is left alone.** -/
theorem Engine.refuses_of_mem {e : Engine} {row : PaymentRow} {p : Payment}
    (hrow : row ∈ e.log.rows.rows) (hread : row.read = .ok p) {reaction : Reaction}
    (hstate : ¬ (p.operation = reaction.predecessor ∧ p.status = reaction.predecessor.settled)) :
    e.Refuses reaction p := by
  intro i amount
  have haccepts : accepts p reaction.operation = false :=
    Bool.eq_false_iff.mpr fun h => hstate ((reaction.accepts_iff p).mp h)
  have hfind : (e.performAll (i.log [] (.find p.id)).before).log.find p.id =
      if e.log.closed then .error (.database .closed) else .ok (some p) := by
    rw [Engine.log_performAll, ← findPayment_of_mem hrow hread]
    rfl
  -- the call asks for the payment, and for nothing else
  unfold Engine.reactToPayment Engine.call Execution.run CardHolds.reactToPayment paymentById Ask.find
  simp only [bind_eq, bind_ask, bind_done, run_ask, Execution.answer, Execution.logCall,
    Execution.interrupted, Execution.others]
  cases hreplacing : (i.log [] (.find p.id)).replacing with
  | some error =>
    cases (i.log [] (.find p.id)).instead with
    | some _ => exact ⟨rfl, rfl⟩
    | none => exact ⟨rfl, rfl⟩
  | none =>
    cases (i.log [] (.find p.id)).instead with
    | some error => exact ⟨rfl, rfl⟩
    | none =>
      simp only [hfind]
      cases e.log.closed with
      | true => exact ⟨rfl, rfl⟩
      | false =>
        simp only [Bool.false_eq_true, if_false, pure_eq, bind_done, haccepts]
        exact ⟨rfl, rfl⟩

namespace Workload
variable {ι : Type} [DecidableEq ι]

/-- The log is a legal audit trail: its rows read back, under different names.  Each is on two
accounts, has a status that fits its operation, and was recorded after the rows before it by a call
that asked for it. -/
def Audited (w : Workload ι) (schedule : List (Act ι)) : Prop :=
  ∃ ps, ReadAs (w.run schedule).engine.log.rows.rows ps ∧ (ps.map Payment.id).Nodup ∧
    ∀ earlier p later, ps = earlier ++ p :: later →
      p.merchant ≠ p.customer ∧ p.status ∈ p.operation.recordable ∧ w.Records schedule earlier p

/-- **Every reachable log is a legal audit trail**, and a reaction to a payment in any other state
than the required one is refused. -/
theorem audit_trail {e : Engine} (rows : e.log.rows.rows = []) (instructions : ι → Instruction)
    (faults : ι → Interference) (schedule : List (Act ι)) :
    let w := start e instructions faults
    w.Audited schedule ∧
      ∀ row ∈ (w.run schedule).engine.log.rows.rows, ∀ (p : Payment) (reaction : Reaction),
        row.read = .ok p →
          ¬ (p.operation = reaction.predecessor ∧ p.status = reaction.predecessor.settled) →
            (w.run schedule).engine.Refuses reaction p := by
  obtain ⟨ps, h⟩ := traced_run rows instructions faults schedule
  refine ⟨⟨ps, h.read, h.read.nodup_ids, fun earlier p later hps => ?_⟩,
    fun row hrow p reaction hread hstate => Engine.refuses_of_mem hrow hread hstate⟩
  have hp : p ∈ ps := by
    rw [hps]
    exact List.mem_append_right _ List.mem_cons_self
  have hrecorded := h.recorded earlier p later hps
  obtain ⟨k, -, -, -, -, -, hexplains⟩ := id hrecorded
  exact ⟨(h.regular p hp).accounts.symm, hexplains.recordable, hrecorded⟩

end Workload

/-! ## A trail of three rows -/

namespace EarlyRefund

open Sample

/-- An authorization, a capture of more than was authorized, and a cancellation. -/
def instruction : Fin 3 → Instruction
  | 0 => .authorize (request (units 40))
  | 1 => .react .capture (Mint.unary.paymentId 0) (units 60)
  | 2 => .react .cancel (Mint.unary.paymentId 0) (units 40)

/-- While the authorization is on its way somebody deposits money, so that it has to start again. -/
def schedule : List (Workload.Act (Fin 3)) :=
  ((List.finRange 3).take 1).flatMap (fun k => List.replicate 2 (.goOn k)) ++
    .operate (.deposit card.number (units 5)) ::
      (List.finRange 3).flatMap fun k => List.replicate 30 (.goOn k)

def workload : Workload (Fin 3) := .start engine instruction fun _ => .ofFaults []

/-- The row of the authorization. -/
def authorization : Payment where
  id := Mint.unary.paymentId 0
  merchant := merchant
  customer := customer
  card := card.snapshot
  currency := "EUR"
  operation := .authorization
  status := .approved
  amount := units 40
  recordedAt := Mint.unary.now

/-- All three calls are on record, and the authorization cannot be refunded. -/
theorem audit_trail_earlyRefund :
    engine.log.rows.rows = [] ∧ workload.Audited schedule ∧
      (workload.run schedule).engine.log.rows.rows.map (fun row => (row.operation, row.status)) =
        [("Authorization", "Approved"), ("Capture", "Invalid amount"),
          ("Cancel", "Successful cancel")] ∧
      (workload.run schedule).engine.Refuses .refund authorization := by
  obtain ⟨audited, refuses⟩ :=
    Workload.audit_trail (e := engine) rfl instruction (fun _ => .ofFaults []) schedule
  have hfind : (workload.run schedule).engine.log.find (Mint.unary.paymentId 0) =
      .ok (some authorization) := by decide +kernel
  obtain ⟨-, row, hrow, hread⟩ := PaymentLog.find_spec hfind
  unfold workload at hrow ⊢
  exact ⟨rfl, audited, by decide +kernel, refuses row hrow authorization .refund hread
    fun hstate => Operation.noConfusion hstate.1⟩

end EarlyRefund

end CardHolds

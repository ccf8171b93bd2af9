import CardHolds.Proofs.Engine.Concurrent
import CardHolds.Proofs.Ledger.Tally

/-!
# One party of a system

What one step of a lifecycle call (`Caller.Kept.step`) or of a deposit (`Depositor.Kept.step`) keeps:
the party goes on under its contract and its readings can be relied on.  And what the step counts for
(`Caller.Kept.tally`, `Depositor.Kept.tally`): the accounts change by what the party enters as moved
or credited.

Updates and commits that fail have to fail cleanly, or the books would miss them.
-/

namespace CardHolds

open Program

/-! ## Readings over time -/

namespace Engine
variable {e e' : Engine}

/-- Whatever reading could be relied on still can. -/
def Onward (e e' : Engine) : Prop := ∀ id r, e.Backs id r → e'.Backs id r

theorem Advances.onward (h : e.Advances e') : e.Onward e' := fun _ _ hr => h.backs hr

theorem advances_amend (e : Engine) (id : AccountId) (update : AccountUpdate) :
    e.Advances (e.perform (.amend id update)).2 := by
  refine ⟨rfl, rfl, fun x => ?_⟩
  rcases e.ledger.store_change (fun s => (Ledger.require (.accountNotFound id) (s.amend id update).1,
    (s.amend id update).2)) with hstore | hstore
  · exact LedgerStore.advances_of_eq (congrArg (fun s => s.accounts.find? x) hstore)
  · have hadvances : LedgerStore.Advances x e.ledger.store (e.ledger.store.amend id update).2 :=
      LedgerStore.advances_amend id update
    rw [LedgerStore.Advances, ← hstore] at hadvances
    exact hadvances

/-- A new account takes the name of no account that was read. -/
theorem onward_create (e : Engine) (details : NewAccount) :
    e.Onward (e.perform (.create details)).2 := by
  intro id r hr
  have hsame : (e.perform (.create details)).2.ledger.store.accounts.find? id =
      e.ledger.store.accounts.find? id := by
    rcases e.ledger.store_change (fun s => s.insert (e.mint.accountId e.accountsOpened) e.mint.now
      details) with hstore | hstore
    · exact congrArg (fun s => s.accounts.find? id) hstore
    · refine (congrArg (fun s => s.accounts.find? id) hstore).trans ?_
      refine (LedgerStore.find?_insert _ _ _ _ id).trans ?_
      split
      · -- the name is taken, or the reading could not be relied on
        rename_i hid
        cases hrow : e.ledger.store.accounts.find? id with
        | none => exact absurd hid (hr.settled hrow _ (le_refl _))
        | some row => rw [← hid, hrow, Option.getD_some]
      · rfl
  refine ⟨fun row hrow => hr.precedes row (hsame ▸ hrow), fun hnone => ?_⟩
  exact settled_perform _ (hr.settled (hsame ▸ hnone))

end Engine

/-! ## Calls -/

namespace Execution
variable {x : Execution} {i : Interference}

/-- Where nobody else writes, a call to the environment is carried out or it is not. -/
theorem engine_interrupted_alone {ε α : Type} (x : Execution) (it : Interruption ε)
    (call : Execution → Except ε α × Execution) :
    (x.interrupted it.alone call).2.engine = x.engine ∨
      (x.interrupted it.alone call).2.engine = (call x).2.engine := by
  unfold interrupted Interruption.alone
  cases it.instead with
  | none => exact Or.inr rfl
  | some e => exact Or.inl rfl

/-- An update that fails cleanly is carried out and answered, or refused. -/
theorem updateBalance_alone (clean : i.FailsCleanly) (x : Execution) (id : AccountId)
    (u : BalanceUpdate) :
    (∃ e, (x.ledgerCall i.alone (.updateBalance id u)).1 = .error e ∧
      (x.ledgerCall i.alone (.updateBalance id u)).2.engine = x.engine) ∨
    ((x.ledgerCall i.alone (.updateBalance id u)).1 = (x.engine.ledger.updateBalance id u).1 ∧
      (x.ledgerCall i.alone (.updateBalance id u)).2.engine =
        { x.engine with ledger := (x.engine.ledger.updateBalance id u).2 }) := by
  have hreplacing : (i.alone.ledger x.history (.updateBalance id u)).replacing = none :=
    clean.updates x.history id u
  -- no answer is taken away, so an error given instead is the only fault
  simp only [ledgerCall, interrupted, hreplacing]
  cases (i.alone.ledger x.history (.updateBalance id u)).instead with
  | none => exact Or.inr ⟨rfl, rfl⟩
  | some e => exact Or.inl ⟨e, rfl, rfl⟩

/-- What an interrupted call leaves of the ledger, if the call leaves it alone. -/
theorem ledger_interrupted_alone {ε α : Type} (x : Execution) (it : Interruption ε)
    (call : Execution → Except ε α × Execution)
    (h : (call x).2.engine.ledger = x.engine.ledger) :
    (x.interrupted it.alone call).2.engine.ledger = x.engine.ledger := by
  rcases engine_interrupted_alone x it call with hengine | hengine
  · rw [hengine]
  · rw [hengine, h]

theorem ledger_logCall_alone (i : Interference) (x : Execution) (c : LogCall) :
    (x.logCall i.alone c).2.engine.ledger = x.engine.ledger := by
  cases c with
  | begin =>
    exact ledger_interrupted_alone x (i.log x.history .begin)
      (fun x => (x.engine.log.begin.map fun _ => (), { x with transaction := {} })) rfl
  | insert payment =>
    exact ledger_interrupted_alone x (i.log x.history (.insert payment)) (·.insertPayment payment) rfl
  | rollback =>
    exact ledger_interrupted_alone x (i.log x.history .rollback) (fun x => (.ok (), x)) rfl
  | find id =>
    exact ledger_interrupted_alone x (i.log x.history (.find id))
      (fun x => (x.engine.log.find id, x)) rfl
  | involving account =>
    exact ledger_interrupted_alone x (i.log x.history (.involving account))
      (fun x => (x.engine.log.involving account, x)) rfl
  | commit =>
    refine ledger_interrupted_alone x (i.log x.history .commit) commitTransaction ?_
    unfold commitTransaction
    split <;> rfl

/-- Statement entries are no part of the accounts. -/
theorem find?_streamCall_alone (i : Interference) (x : Execution) (c : StreamCall) (y : AccountId) :
    (x.streamCall i.alone c).2.engine.ledger.store.accounts.find? y =
      x.engine.ledger.store.accounts.find? y := by
  cases c with
  | receive =>
    simp only [streamCall]
    split <;> rfl
  | drain => rfl
  | hangUp =>
    show (x.endStream i.alone).engine.ledger.store.accounts.find? y = _
    unfold endStream
    split <;> rfl
  | send request =>
    simp only [streamCall]
    split
    · unfold serveRequest
      simp only
      split
      · rfl
      · rcases engine_interrupted_alone (x.note (.append request))
          (i.append x.history request).toInterruption
          (fun x => ((Server.handle x.engine.ledger request).1,
            { x with engine := { x.engine with ledger := (Server.handle x.engine.ledger request).2 } }))
          with hengine | hengine
        · exact congrArg (fun e => e.ledger.store.accounts.find? y) hengine
        · exact (congrArg (fun e => e.ledger.store.accounts.find? y) hengine).trans
            (find?_handle x.engine.ledger request y)
    · rfl

/-- Only updates touch the accounts. -/
theorem find?_answer_alone (i : Interference) (x : Execution) (c : LifecycleCall)
    (hc : ∀ id u, c ≠ .ledger (.updateBalance id u)) (y : AccountId) :
    (answer i.alone c x).2.engine.ledger.store.accounts.find? y =
      x.engine.ledger.store.accounts.find? y := by
  cases c with
  | ledger c =>
    cases c with
    | account id =>
      exact congrArg (fun l => l.store.accounts.find? y)
        (ledger_interrupted_alone x (i.ledger x.history (.account id))
          (fun x => (x.engine.ledger.account id, x)) rfl)
    | updateBalance id u => exact absurd rfl (hc id u)
    | openStream =>
      exact congrArg (fun l => l.store.accounts.find? y)
        (ledger_interrupted_alone x (i.ledger x.history .openStream)
          (fun x => (.ok (), { x with peer := {} })) rfl)
  | log c => exact congrArg (fun l => l.store.accounts.find? y) (ledger_logCall_alone i x c)
  | stream c => exact find?_streamCall_alone i x c y
  | publish event =>
    show (x.engine.publish event).ledger.store.accounts.find? y = _
    unfold Engine.publish
    split <;> rfl

/-- An answer that is no error is the answer of the call, with its effect. -/
theorem interrupted_alone_of_ok {ε α : Type} (it : Interruption ε)
    (call : Execution → Except ε α × Execution) {a : α}
    (h : (x.interrupted it.alone call).1 = .ok a) : x.interrupted it.alone call = call x := by
  unfold interrupted Interruption.alone at h ⊢
  cases hreplacing : it.replacing with
  | some e =>
    simp only [hreplacing] at h
    cases h
  | none =>
    cases hinstead : it.instead with
    | some e =>
      simp only [hreplacing, hinstead] at h
      cases h
    | none => rfl

end Execution

/-- The result of a call that left no moves in place. -/
def leavesNothing : Except FlowError PaymentOutcome → Bool
  | .error (.compensationFailed _ _) => false
  | .error _ => true
  | .ok _ => true

namespace Caller
variable {c : Caller} {e e' : Engine}

/-- The call keeps its contract from here on, and its book is right. -/
structure Kept (c : Caller) (e : Engine) : Prop where
  follows : c.rest.Ensures bookkeeping c.book c.instruction.Concludes
  agrees : Agrees c.faults.alone e c.transaction c.book

theorem step_done {result : Except FlowError PaymentOutcome} (h : c.rest = .done result) :
    c.step e = (c, e) := by
  rw [step, h]

theorem step_ask {call : LifecycleCall}
    {next : lifecycleCalls.Reply call → Program lifecycleCalls (Except FlowError PaymentOutcome)}
    (h : c.rest = .ask call next) :
    c.step e =
      ({ c with
          rest := next (Execution.answer c.faults.alone call (c.execution e)).1
          transaction := (Execution.answer c.faults.alone call (c.execution e)).2.transaction
          peer := (Execution.answer c.faults.alone call (c.execution e)).2.peer
          history := (Execution.answer c.faults.alone call (c.execution e)).2.history
          book := bookkeeping.observe c.book call
            (Execution.answer c.faults.alone call (c.execution e)).1 },
        (Execution.answer c.faults.alone call (c.execution e)).2.engine) := by
  rw [step, h]

theorem Kept.onward (h : c.Kept e) (he : e.Onward e') : c.Kept e' := by
  refine ⟨h.follows, Or.inl c.faults.alone_alone, fun id r hr => ?_, h.agrees.drafts⟩
  exact he id r (h.agrees.seen id r hr)

/-- A call that has ended has come to what it can come to. -/
theorem Kept.concludes (h : c.Kept e) {result : Except FlowError PaymentOutcome}
    (hresult : c.result? = some result) : c.instruction.Concludes result c.book := by
  have hfollows := h.follows
  unfold result? at hresult
  cases hrest : c.rest with
  | done result' =>
    rw [hrest] at hresult hfollows
    cases hresult
    exact hfollows
  | ask call next =>
    rw [hrest] at hresult
    cases hresult

/-- Whether it has ended or not, its book shows a decision in force or moves that may be undone. -/
theorem Kept.inProgress (h : c.Kept e) : c.instruction.InProgress c.book :=
  Instruction.inProgress_of_ensures h.follows

/-- **A call keeps its contract by every step**, whoever else is on the way. -/
theorem Kept.step (h : c.Kept e) (clean : c.faults.CommitsCleanly) :
    (c.step e).1.Kept (c.step e).2 ∧ e.Advances (c.step e).2 ∧
      LogBook.Grows e.log (c.step e).2.log c.book.log (c.step e).1.book.log := by
  cases hrest : c.rest with
  | done result =>
    rw [step_done hrest]
    exact ⟨h, .refl e, .of_eq rfl rfl rfl⟩
  | ask call next =>
    have hfollows := h.follows
    rw [hrest] at hfollows
    obtain ⟨hask, hnext⟩ := hfollows
    have hanswer := Execution.answer_spec (x := c.execution e) clean.alone h.agrees call hask
    rw [step_ask hrest]
    exact ⟨⟨hnext _ hanswer.replies, hanswer.agrees⟩, hanswer.advances c.faults.alone_alone,
      hanswer.grows⟩

/-- What an update of the call changes, if it is answered with the account. -/
theorem Kept.update_exact (h : c.Kept e) {id : AccountId} {u : BalanceUpdate}
    {next : Except LedgerError Account → Program lifecycleCalls (Except FlowError PaymentOutcome)}
    (hrest : c.rest = .ask (.ledger (.updateBalance id u)) next) {a : Account}
    (hok : ((c.execution e).ledgerCall c.faults.alone (.updateBalance id u)).1 = .ok a) :
    ∃ r, c.book.ledger.seen id = some r ∧
      (c.step e).2.ledger.store.holdings =
        e.ledger.store.holdings + Pi.single id (u.change r.held) := by
  have hfollows := h.follows
  rw [hrest] at hfollows
  have hask : ledgerBookkeeping.Asks c.book.ledger (.updateBalance id u) := hfollows.1
  obtain ⟨r, -, hr, -, -⟩ := hask
  have hcall := (c.execution e).interrupted_alone_of_ok
    (c.faults.ledger c.history (.updateBalance id u))
    (fun x => ((x.engine.ledger.updateBalance id u).1,
      { x with engine := { x.engine with ledger := (x.engine.ledger.updateBalance id u).2 } })) hok
  have hengine : (c.step e).2 = { e with ledger := (e.ledger.updateBalance id u).2 } := by
    rw [step_ask hrest]
    exact congrArg (fun y => y.2.engine) hcall
  have hreply : (e.ledger.updateBalance id u).1 = .ok a :=
    (congrArg Prod.fst hcall).symm.trans hok
  have hholdings := h.agrees.holdings_of_ok hfollows.1 hreply
  rw [LedgerBook.planned, hr, Option.elim_some] at hholdings
  exact ⟨r, hr, by rw [hengine]; exact hholdings⟩

/-- A call that is no update moves nothing. -/
theorem moved_of_not_update (b : Book) {call : LifecycleCall} (r : lifecycleCalls.Reply call)
    (hcall : ∀ id u, call ≠ .ledger (.updateBalance id u)) :
    (bookkeeping.observe b call r).ledger.moved = b.ledger.moved := by
  cases call with
  | log c => rfl
  | stream c => rfl
  | publish event => rfl
  | ledger c =>
    cases c with
    | openStream => rfl
    | updateBalance id u => exact absurd rfl (hcall id u)
    | account id => cases r <;> rfl

/-- What an update of the call moves is counted. -/
theorem Kept.tally_update (h : c.Kept e) (clean : c.faults.FailsCleanly)
    {v₀ v : AccountId → Delta} (hv : ∀ x, Tally v₀ v e.ledger.store x) {id : AccountId}
    {u : BalanceUpdate} (hask : ledgerBookkeeping.Asks c.book.ledger (.updateBalance id u))
    (x : AccountId) :
    Tally v₀
      (v + ((ledgerBookkeeping.observe c.book.ledger (.updateBalance id u)
        ((c.execution e).ledgerCall c.faults.alone (.updateBalance id u)).1).moved -
          c.book.ledger.moved))
      ((c.execution e).ledgerCall c.faults.alone (.updateBalance id u)).2.engine.ledger.store x := by
  rcases Execution.updateBalance_alone clean (c.execution e) id u with
    ⟨error, hreply, hengine⟩ | ⟨hreply, hengine⟩
  · rw [hreply, hengine]
    show Tally v₀ (v + (c.book.ledger.moved - c.book.ledger.moved)) e.ledger.store x
    rw [sub_self, add_zero]
    exact hv x
  · rw [hreply, hengine]
    refine Tally.updateBalance hv (fun error herror => ?_) (fun row row' hw => ?_) x
    · have herror : ((c.execution e).engine.ledger.updateBalance id u).1 = .error error := herror
      rw [herror]
      exact sub_self _
    · -- what is written meets the last reading, so the book enters the change of the row
      obtain ⟨r, hr, hversion, hheld⟩ := h.agrees.of_written hask hw
      have hrow : row.version = .counted r.version := by
        have hexpected := hw.expected
        rw [hversion] at hexpected
        exact of_decide_eq_true hexpected
      refine ⟨r.version, hrow, fun a ha => ?_⟩
      have ha : ((c.execution e).engine.ledger.updateBalance id u).1 = .ok a := ha
      rw [ha]
      show c.book.ledger.moved + c.book.ledger.planned id u - c.book.ledger.moved = _
      rw [add_sub_cancel_left, LedgerBook.planned, hr, Option.elim_some, hheld]

/-- What the call moves is counted. -/
theorem Kept.tally (h : c.Kept e) (clean : c.faults.FailsCleanly) {v₀ v : AccountId → Delta}
    (hv : ∀ x, Tally v₀ v e.ledger.store x) (x : AccountId) :
    Tally v₀ (v + ((c.step e).1.book.ledger.moved - c.book.ledger.moved))
      (c.step e).2.ledger.store x := by
  cases hrest : c.rest with
  | done result =>
    rw [step_done hrest, sub_self, add_zero]
    exact hv x
  | ask call next =>
    rw [step_ask hrest]
    by_cases hcall : ∀ id u, call ≠ .ledger (.updateBalance id u)
    · rw [moved_of_not_update c.book _ hcall, sub_self, add_zero]
      exact (hv x).of_find?_eq (Execution.find?_answer_alone c.faults (c.execution e) call hcall x)
    · simp only [not_forall, not_not] at hcall
      obtain ⟨id, u, rfl⟩ := hcall
      have hfollows := h.follows
      rw [hrest] at hfollows
      exact h.tally_update clean hv hfollows.1 x

/-! ### Calls at their end -/

/-- The call has ended and left no moves in place. -/
def EndedClean (c : Caller) : Prop := c.result?.any leavesNothing = true

instance (c : Caller) : Decidable c.EndedClean := inferInstanceAs (Decidable (_ = true))

theorem EndedClean.exists_result (h : c.EndedClean) :
    ∃ result, c.result? = some result ∧ leavesNothing result = true :=
  (Option.any_eq_true _ _).mp h

/-- What the call has moved without a payment that stands for it. -/
def left (c : Caller) : AccountId → Delta :=
  if c.book.log.committed = [] then c.book.ledger.moved else 0

/-- What a call has moved is what the payment stands for that it recorded, or it is left in place. -/
theorem Kept.moved_eq (h : c.Kept e) :
    c.book.ledger.moved = (c.book.log.committed.map Payment.effect).sum + c.left := by
  rcases h.inProgress with ⟨d, p, hd, ⟨id, now, rfl⟩, hcommitted, hmoved⟩ | ⟨hnone, -⟩
  · have hleft : c.left = 0 := if_neg (by rw [hcommitted]; exact List.cons_ne_nil _ _)
    rw [hleft, add_zero, hcommitted, hmoved, hd.effect_eq, List.map_singleton, List.sum_singleton,
      NewPayment.effect_recorded]
  · have hleft : c.left = c.book.ledger.moved := if_pos hnone
    rw [hleft, hnone, List.map_nil, List.sum_nil, zero_add]

theorem Kept.left_eq_zero (h : c.Kept e) (ended : c.EndedClean) : c.left = 0 := by
  unfold left
  split
  · rename_i hnone
    obtain ⟨result, hresult, hclean⟩ := ended.exists_result
    have hconcludes := h.concludes hresult
    cases result with
    | ok outcome =>
      rcases hconcludes with ⟨_, _, _, _, _, hcommitted, _⟩ | ⟨-, -, hmoved⟩
      · rw [hcommitted] at hnone
        cases hnone
      · exact hmoved
    | error error =>
      obtain ⟨-, stranded, hreports, hmoved, -⟩ := hconcludes
      cases error with
      | compensationFailed cause accounts => cases hclean
      | _ =>
        have hstranded : stranded = [] := hreports
        rw [hmoved, hstranded, BalanceMove.effects_nil]
  · rfl

end Caller

/-! ## Deposits -/

namespace Depositor
variable {d : Depositor} {e e' : Engine}

/-- A deposit that has read its account plans to credit its amount, and can rely on the reading. -/
structure Kept (d : Depositor) (e : Engine) : Prop where
  backs : ∀ plan, d.phase = .planned plan → e.Backs plan.account plan.reading
  expected : ∀ plan, d.phase = .planned plan →
    plan.update.expectedVersion = some plan.reading.version
  change : ∀ plan, d.phase = .planned plan →
    plan.update.change plan.reading.held = ((d.amount.units : ℤ), 0)

theorem Kept.of_not_planned (h : ∀ plan, d.phase ≠ .planned plan) : d.Kept e :=
  ⟨fun plan hp => absurd hp (h plan), fun plan hp => absurd hp (h plan),
    fun plan hp => absurd hp (h plan)⟩

theorem Kept.onward (h : d.Kept e) (he : e.Onward e') : d.Kept e' :=
  ⟨fun plan hp => he _ _ (h.backs plan hp), h.expected, h.change⟩

/-- An update that is written meets the reading of the deposit. -/
theorem Kept.of_written (h : d.Kept e) {plan : LedgerStore.DepositPlan}
    (hp : d.phase = .planned plan) {row row' : AccountRow}
    (hw : e.ledger.store.Written plan.account plan.update row row') :
    row.version = .counted plan.reading.version ∧ row.held = plan.reading.held := by
  have hexpected := hw.expected
  rw [h.expected plan hp] at hexpected
  have hversion : row.version = .counted plan.reading.version := of_decide_eq_true hexpected
  exact ⟨hversion, ((h.backs plan hp).precedes row hw.found).2 hversion⟩

theorem step_due (h : d.phase = .due) :
    d.step e = ({ d with phase := .afterReading (d.reading e.ledger) }, e) := by
  rw [step, h]

theorem step_planned {plan : LedgerStore.DepositPlan} (h : d.phase = .planned plan) :
    d.step e = ({ d with phase := .ended (e.ledger.updateBalance plan.account plan.update).1 },
      { e with ledger := (e.ledger.updateBalance plan.account plan.update).2 }) := by
  rw [step, h]

theorem step_ended {result : Except LedgerError Account} (h : d.phase = .ended result) :
    d.step e = (d, e) := by
  rw [step, h]

theorem planDeposit_of_reading {l : Ledger} {plan : LedgerStore.DepositPlan}
    (h : d.reading l = .ok (some plan)) :
    l.store.planDeposit d.cardNumber d.amount = .ok (some plan) := by
  unfold reading Ledger.read at h
  split at h
  · cases h
  · exact h

theorem kept_afterReading (d : Depositor) (e : Engine) :
    ({ d with phase := .afterReading (d.reading e.ledger) } : Depositor).Kept e := by
  cases hreading : d.reading e.ledger with
  | error error => exact .of_not_planned fun plan => DepositPhase.noConfusion
  | ok plan? =>
    cases plan? with
    | none => exact .of_not_planned fun plan => DepositPhase.noConfusion
    | some plan =>
      obtain ⟨row, hrow, hversion, hheld, hexpected, hchange⟩ :=
        LedgerStore.planDeposit_spec (planDeposit_of_reading hreading)
      refine ⟨fun plan' hp => ?_, fun plan' hp => ?_, fun plan' hp => ?_⟩
      · cases hp
        exact Engine.backs_of_row hrow hversion hheld
      · cases hp
        exact hexpected
      · cases hp
        exact hchange

/-- A deposit goes on as planned. -/
theorem Kept.step (h : d.Kept e) :
    (d.step e).1.Kept (d.step e).2 ∧ e.Advances (d.step e).2 ∧ (d.step e).2.log = e.log := by
  cases hphase : d.phase with
  | due =>
    rw [step_due hphase]
    exact ⟨d.kept_afterReading e, .refl e, rfl⟩
  | planned plan =>
    rw [step_planned hphase]
    exact ⟨.of_not_planned fun plan => DepositPhase.noConfusion,
      Execution.advances_update e plan.account plan.update, rfl⟩
  | ended result =>
    rw [step_ended hphase]
    exact ⟨h, .refl e, rfl⟩

theorem credits_afterReading (amount : Amount)
    (r : Except LedgerError (Option LedgerStore.DepositPlan)) :
    (DepositPhase.afterReading r).credits amount = 0 := by
  cases r with
  | error error => rfl
  | ok plan? => cases plan? <;> rfl

/-- What the deposit credits is counted. -/
theorem Kept.tally (h : d.Kept e) {v₀ v : AccountId → Delta}
    (hv : ∀ x, Tally v₀ v e.ledger.store x) (x : AccountId) :
    Tally v₀ (v + ((d.step e).1.credited - d.credited)) (d.step e).2.ledger.store x := by
  cases hphase : d.phase with
  | due =>
    have hcredited : d.credited = 0 := by rw [credited, hphase, DepositPhase.credits]
    rw [step_due hphase, hcredited, sub_zero]
    show Tally v₀ (v + (DepositPhase.afterReading (d.reading e.ledger)).credits d.amount)
      e.ledger.store x
    rw [credits_afterReading, add_zero]
    exact hv x
  | planned plan =>
    have hcredited : d.credited = 0 := by rw [credited, hphase, DepositPhase.credits]
    rw [step_planned hphase, hcredited, sub_zero]
    show Tally v₀ (v + (DepositPhase.ended (e.ledger.updateBalance plan.account plan.update).1).credits
      d.amount) (e.ledger.updateBalance plan.account plan.update).2.store x
    refine Tally.updateBalance hv (fun error herror => ?_) (fun row row' hw => ?_) x
    · rw [herror, DepositPhase.credits]
    · obtain ⟨hversion, hheld⟩ := h.of_written hphase hw
      have hchange : plan.update.change row.held = ((d.amount.units : ℤ), 0) :=
        hheld ▸ h.change plan hphase
      refine ⟨plan.reading.version, hversion, fun a ha => ?_⟩
      rw [ha, DepositPhase.credits, hchange, hw.account a]
      rcases e.ledger.updateBalance_cases plan.account plan.update with
        ⟨error, herror⟩ | ⟨-, hanswer, -⟩
      · rw [herror] at ha
        cases ha
      · exact hanswer.symm.trans ha
  | ended result =>
    rw [step_ended hphase, sub_self, add_zero]
    exact hv x

/-- What the update of a deposit changes, if it is answered with the account. -/
theorem Kept.update_exact (h : d.Kept e) {plan : LedgerStore.DepositPlan}
    (hp : d.phase = .planned plan) {a : Account}
    (hok : (e.ledger.updateBalance plan.account plan.update).1 = .ok a) :
    (d.step e).2.ledger.store.holdings =
      e.ledger.store.holdings + Pi.single plan.account (plan.update.change plan.reading.held) := by
  rw [step_planned hp]
  rcases e.ledger.updateBalance_cases plan.account plan.update with
    ⟨error, herror⟩ | ⟨⟨row, row', hw⟩, -, hstore⟩
  · rw [herror] at hok
    cases hok
  · show (e.ledger.updateBalance plan.account plan.update).2.store.holdings = _
    rw [hstore, hw.holdings_eq, (h.of_written hp hw).2]

end Depositor

end CardHolds

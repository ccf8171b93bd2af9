import CardHolds.Proofs.Engine.AuditTrail
import CardHolds.Proofs.Engine.Reconciliation
import CardHolds.Proofs.Ledger.Quantities
import CardHolds.Proofs.Lifecycle.Overflow
import CardHolds.Proofs.PaymentLog.Conversion

/-!
# Nothing that is written is unreadable

A `Workload` starts from empty stores, others operate on the ledger with any arguments, and any number
of lifecycle calls with any amounts are in progress, each with faults of its own.

At any time all that is stored can be read (`Engine.Readable`), and an error of conversion is the answer
to a write that is too large (`Engine.Converts`).  No call ends with an overflow, and none tells the
observers of one (`Caller.NeverOverflows`); the calls need no more for it than that what they read was
stored.
-/

namespace CardHolds

open PaymentRow (ReadAs)
open Program

/-- What a row shows can be stored. -/
theorem Account.storable_of_held {a : Account} {row : AccountRow} (h : row.held = a.held) :
    a.Storable := by
  obtain ⟨hbalance, hblocked⟩ := Prod.mk.inj h
  have hbalance : row.balance.toInt = a.balance.units := hbalance
  have hblocked : row.blocked.toInt = a.blocked.units := hblocked
  have := row.balance.toInt_lt
  have := row.blocked.toInt_lt
  exact ⟨by omega, by omega⟩

namespace Execution
variable {x : Execution}

/-- **The engine shows nothing but what is stored.** -/
theorem answer_storedReadings (i : Interference) (x : Execution) (c : LifecycleCall) :
    storedReadings.Replies () c (answer i c x).1 := by
  match c with
  | .ledger (.account id) =>
    show storedReadings.Replies () (.ledger (.account id)) (x.ledgerCall i (.account id)).1
    cases hreply : (x.ledgerCall i (.account id)).1 with
    | error e => trivial
    | ok a =>
      obtain ⟨row, -, hid, -, hheld⟩ := Ledger.account_spec (called_of_interrupted_ok
        (i.ledger x.history (.account id)) (fun x => (x.engine.ledger.account id, x)) hreply)
      exact ⟨hid, Account.storable_of_held hheld⟩
  | .ledger (.updateBalance id u) => trivial
  | .ledger .openStream => trivial
  | .log .begin => trivial
  | .log (.insert payment) => trivial
  | .log .commit => trivial
  | .log .rollback => trivial
  | .log (.find id) =>
    show storedReadings.Replies () (.log (.find id)) (x.logCall i (.find id)).1
    cases hreply : (x.logCall i (.find id)).1 with
    | error e => trivial
    | ok found =>
      have hcalled := called_of_interrupted_ok (i.log x.history (.find id))
        (fun x => (x.engine.log.find id, x)) hreply
      cases found with
      | none => trivial
      | some p =>
        obtain ⟨-, row, -, hread⟩ := PaymentLog.find_spec hcalled
        exact PaymentRow.amount_lt_of_read hread
  | .log (.involving account) => trivial
  | .stream c => trivial
  | .publish event => trivial

/-- No call takes a quantity below zero. -/
theorem nonneg_answer_alone (i : Interference) (h : x.engine.ledger.store.Nonneg)
    (c : LifecycleCall) : (answer i.alone c x).2.engine.ledger.store.Nonneg := by
  by_cases hc : ∃ id u, c = .ledger (.updateBalance id u)
  · obtain ⟨id, u, rfl⟩ := hc
    rcases engine_interrupted_alone x (i.ledger x.history (.updateBalance id u))
      (fun x => ((x.engine.ledger.updateBalance id u).1,
        { x with engine := { x.engine with ledger := (x.engine.ledger.updateBalance id u).2 } }))
      with hengine | hengine
    · exact (congrArg (fun e => e.ledger.store.Nonneg) hengine).mpr h
    · refine (congrArg (fun e => e.ledger.store.Nonneg) hengine).mpr ?_
      exact Ledger.nonneg_change h (h.updateBalance id u)
  · -- only an update touches the accounts
    have hsame := find?_answer_alone i x c fun id u hupdate => hc ⟨id, u, hupdate⟩
    exact fun y row hrow => h y row ((hsame y).symm.trans hrow)

end Execution

/-! ## Engines -/

/-- Every quantity that is stored is one that a signed number of 64 bits holds, and not below zero;
every operation and every status is one that is known; and nothing that is asked fails to convert. -/
structure Engine.Readable (e : Engine) : Prop where
  accounts : ∀ row ∈ e.ledger.store.accounts.rows,
    (0 ≤ row.balance.toInt ∧ row.balance.toInt < 2 ^ 63) ∧
      0 ≤ row.blocked.toInt ∧ row.blocked.toInt < 2 ^ 63
  payments : ∀ row ∈ e.log.rows.rows, (0 ≤ row.amount.toInt ∧ row.amount.toInt < 2 ^ 63) ∧
    (∃ operation : Operation, row.operation = operation.text) ∧
      ∃ status : PaymentStatus, row.status = status.text
  account : ∀ id error, e.ledger.account id = .error error → error.isConversion = false
  statement : ∀ id error, e.ledger.statement id = .error error → error.isConversion = false
  page : ∀ after limit error, e.ledger.page after limit = .error error → error.isConversion = false
  payment : ∀ id error, (e.call .undisturbed (paymentById id)).1 = .error error →
    error = .paymentNotFound id ∨ error = .database .closed
  paymentsOf : ∀ account error,
    (e.call .undisturbed (paymentsForAccount account)).1 = .error error → error = .database .closed

/-- An error of conversion is the answer to a write that is too large. -/
structure Engine.Converts (e : Engine) : Prop where
  operation : ∀ command error, (e.perform command).1 = .error error → error.isConversion = true →
    e.ledger.store.TooLarge command
  row : ∀ tx id now payment error, (e.log.insert tx id now payment).1 = .error error →
    error.isConversion = true → 2 ^ 63 ≤ payment.amount.units
  commit : ∀ tx error, e.log.commit tx = .error error → error.isConversion = false

/-- What a lookup answers when nothing comes in between. -/
theorem Engine.call_paymentById (e : Engine) (id : PaymentId) :
    (e.call .undisturbed (paymentById id)).1 =
      match e.log.find id with
      | .error error => .error (.ofLog error)
      | .ok none => .error (.paymentNotFound id)
      | .ok (some p) => .ok p := by
  unfold Engine.call Execution.run paymentById Ask.find
  simp only [bind_eq, bind_ask, bind_done, run_ask, Execution.answer, Execution.logCall,
    Execution.interrupted, Execution.others, Interference.undisturbed, Engine.performAll,
    List.foldl_nil]
  cases e.log.find id with
  | error error => rfl
  | ok found => cases found <;> rfl

theorem Engine.call_paymentsForAccount (e : Engine) (account : AccountId) :
    (e.call .undisturbed (paymentsForAccount account)).1 =
      (e.log.involving account).mapError .ofLog := by
  unfold Engine.call Execution.run paymentsForAccount Ask.involving
  simp only [bind_eq, bind_ask, bind_done, run_ask, Execution.answer, Execution.logCall,
    Execution.interrupted, Execution.others, Interference.undisturbed, Engine.performAll,
    List.foldl_nil]
  cases e.log.involving account <;> rfl

theorem Engine.readable_of_nonneg {e : Engine} (h : e.ledger.store.Nonneg) {ps : List Payment}
    (hlog : ReadAs e.log.rows.rows ps) : e.Readable where
  accounts row hrow := by
    obtain ⟨hbalance, hblocked⟩ := AccountRow.nonneg_of_belowZero? (h.of_mem hrow)
    exact ⟨⟨hbalance, row.balance.toInt_lt⟩, hblocked, row.blocked.toInt_lt⟩
  payments row hrow := by
    cases hread : row.read with
    | error error => exact absurd hread (hlog.read_ne_error hrow error)
    | ok p =>
      obtain ⟨hoperation, hstatus, hamount⟩ := PaymentRow.stored_of_read hread
      refine ⟨⟨?_, row.amount.toInt_lt⟩, ⟨_, hoperation⟩, _, hstatus⟩
      rw [hamount]
      exact Int.natCast_nonneg p.amount.units
  account id error herror := Ledger.isConversion_of_account h herror
  statement id error herror := Ledger.isConversion_of_account h (error_of_map herror)
  page after limit error herror := by
    rcases Ledger.page_error h herror with rfl | rfl <;> rfl
  payment id error herror := by
    rw [call_paymentById] at herror
    split at herror
    · rename_i hfind
      cases herror
      rw [PaymentLog.find_error hlog hfind]
      exact Or.inr rfl
    · cases herror
      exact Or.inl rfl
    · cases herror
  paymentsOf account error herror := by
    rw [call_paymentsForAccount] at herror
    cases hinvolving : e.log.involving account with
    | error error' =>
      rw [hinvolving] at herror
      cases herror
      rw [PaymentLog.involving_error hlog hinvolving]
      rfl
    | ok payments =>
      rw [hinvolving] at herror
      cases herror

theorem Engine.converts_of_nonneg {e : Engine} (h : e.ledger.store.Nonneg) : e.Converts where
  operation _ _ herror hconversion := Ledger.tooLarge_of_conversion h herror hconversion
  row _ _ _ _ _ herror hconversion := PaymentLog.tooLarge_of_insert herror hconversion
  commit tx error herror := by
    unfold PaymentLog.commit at herror
    split at herror
    · cases herror
    · cases herror
      rfl

/-! ## Workloads -/

/-- The call does not end with an overflow, and whenever it is about to tell the observers of a move
that stays in place, the reason is no overflow. -/
structure Caller.NeverOverflows (c : Caller) : Prop where
  result : ∀ error, c.rest = .done (.error error) → error.isOverflow = false
  events : ∀ event next, c.rest = .ask (.publish (.compensationFailed event)) next →
    ¬ event.TellsOverflow

namespace Caller
variable {c : Caller} {e : Engine}

/-- The call keeps the contract from here on. -/
def ReadsStored (c : Caller) : Prop :=
  c.rest.Ensures storedReadings () fun r _ => Avoids FlowError.isOverflow r

theorem ReadsStored.step (h : c.ReadsStored) (e : Engine) : (c.step e).1.ReadsStored := by
  cases hrest : c.rest with
  | done result =>
    rw [step_done hrest]
    exact h
  | ask call next =>
    unfold ReadsStored at h
    rw [hrest] at h
    rw [step_ask hrest]
    exact h.2 _ (Execution.answer_storedReadings c.faults.alone (c.execution e) call)

theorem ReadsStored.neverOverflows (h : c.ReadsStored) : c.NeverOverflows := by
  unfold ReadsStored at h
  refine ⟨fun error hrest => ?_, fun event next hrest => ?_⟩
  · rw [hrest] at h
    exact h
  · rw [hrest] at h
    exact h.1

theorem nonneg_step (c : Caller) (h : e.ledger.store.Nonneg) :
    (c.step e).2.ledger.store.Nonneg := by
  cases hrest : c.rest with
  | done result =>
    rw [step_done hrest]
    exact h
  | ask call next =>
    rw [step_ask hrest]
    exact Execution.nonneg_answer_alone (x := c.execution e) c.faults h call

end Caller

namespace Workload
variable {ι : Type} {w : Workload ι}

/-- Nothing is below zero, and all calls keep the contract. -/
structure Sound (w : Workload ι) : Prop where
  accounts : w.engine.ledger.store.Nonneg
  callers : ∀ k, (w.callers k).ReadsStored

theorem sound_start {e : Engine} (accounts : e.ledger.store.accounts.rows = [])
    (instructions : ι → Instruction) (faults : ι → Interference) :
    (start e instructions faults).Sound where
  accounts := LedgerStore.nonneg_of_rows_eq_nil accounts
  callers k := (instructions k).program_avoids e.retries

variable [DecidableEq ι]

theorem Sound.step (h : w.Sound) (a : Act ι) : (w.step a).Sound := by
  cases a with
  | goOn k =>
    refine ⟨(w.callers k).nonneg_step h.accounts, ?_⟩
    exact forall_update ((h.callers k).step w.engine) h.callers
  | operate command => exact ⟨Ledger.nonneg_perform h.accounts _ _ command, h.callers⟩
  | setClock now => exact ⟨h.accounts, h.callers⟩
  | closeLedger => exact ⟨h.accounts, h.callers⟩
  | closeLog => exact ⟨h.accounts, h.callers⟩
  | reopen => exact ⟨h.accounts, h.callers⟩

theorem Sound.run (h : w.Sound) (schedule : List (Act ι)) : (w.run schedule).Sound := by
  induction schedule generalizing w with
  | nil => exact h
  | cons a rest ih => exact ih (h.step a)

/-- **Nothing that is written is unreadable.**  From empty stores, after any operations on the ledger
and any steps of lifecycle calls, whatever their amounts and faults, all that is stored can be read, an
error of conversion is the answer to a write that is too large, and no call ends with an overflow or
tells the observers of one.  A scan that reads its pages at any such times does not fail to convert an
account either. -/
theorem nothing_unreadable {e : Engine} (fresh : e.Fresh) (instructions : ι → Instruction)
    (faults : ι → Interference) :
    let w := start e instructions faults
    (∀ schedule : List (Act ι), (w.run schedule).engine.Readable ∧ (w.run schedule).engine.Converts ∧
      ∀ k, ((w.run schedule).callers k).NeverOverflows) ∧
    ∀ (scan : Scan) (schedules : List (List (Act ι))) (error : LedgerError),
      .error error ∈ (scan.run (schedules.map fun schedule => (w.run schedule).engine.ledger)).1 →
        error.isConversion = false := by
  intro w
  have hsound := fun schedule => (sound_start fresh.accounts instructions faults).run schedule
  have hreadable : ∀ schedule : List (Act ι), (w.run schedule).engine.Readable := fun schedule => by
    obtain ⟨ps, htraced⟩ := traced_run fresh.payments instructions faults schedule
    exact Engine.readable_of_nonneg (hsound schedule).accounts htraced.read
  refine ⟨fun schedule => ⟨hreadable schedule, Engine.converts_of_nonneg (hsound schedule).accounts,
    fun k => ((hsound schedule).callers k).neverOverflows⟩, fun scan schedules error h => ?_⟩
  obtain ⟨l, hl, after, limit, hpage⟩ := Scan.page_of_error h
  obtain ⟨schedule, -, rfl⟩ := List.mem_map.mp hl
  exact (hreadable schedule).page after limit error hpage

end Workload

/-! ## Amounts that no store can hold -/

namespace HugeAmounts

open Sample

/-- An authorization, one of more than can be stored, and a capture of the largest amount. -/
def instruction : Fin 3 → Instruction
  | 0 => .authorize ⟨merchant, customer, card, "EUR", units 40⟩
  | 1 => .authorize ⟨merchant, customer, card, "EUR", units (2 ^ 63)⟩
  | 2 => .react .capture (Mint.unary.paymentId 0) (units (2 ^ 64 - 1))

/-- The customer has a hundred units; then the calls go on one after the other. -/
def schedule : List (Workload.Act (Fin 3)) :=
  [.operate (.create customerDetails), .operate (.create merchantDetails),
      .operate (.deposit card.number (units 100))] ++
    (List.finRange 3).flatMap fun k => List.replicate 30 (.goOn k)

def workload : Workload (Fin 3) := .start { mint := .unary } instruction fun _ => .ofFaults []

/-- Neither of the rows that are too large is written, and a deposit that is too large is refused. -/
theorem nothing_unreadable_hugeAmounts :
    ({ mint := .unary } : Engine).Fresh ∧ (workload.run schedule).engine.Readable ∧
      (∀ k, ((workload.run schedule).callers k).NeverOverflows) ∧
      (List.finRange 3).map (fun k => ((workload.run schedule).callers k).result?) =
        [some (.ok ⟨Mint.unary.paymentId 0, .approved⟩),
          some (.error (.database (.quantity (.tooLarge (units (2 ^ 63)))))),
          some (.error (.database (.quantity (.tooLarge (units (2 ^ 64 - 1))))))] ∧
      (workload.run schedule).engine.log.rows.rows.map (fun row => (row.status, row.amount)) =
        [("Approved", 40)] ∧
      ((workload.run schedule).engine.perform (.deposit card.number (units (2 ^ 63 - 60)))).1 =
        .error (.conversion (.quantity (.tooLarge (units (2 ^ 63))))) := by
  have fresh : ({ mint := .unary } : Engine).Fresh := ⟨rfl, rfl⟩
  obtain ⟨after, -⟩ := Workload.nothing_unreadable fresh instruction fun _ => .ofFaults []
  obtain ⟨readable, -, neverOverflows⟩ := after schedule
  exact ⟨fresh, readable, neverOverflows, by decide +kernel, by decide +kernel, by decide +kernel⟩

end HugeAmounts

end CardHolds

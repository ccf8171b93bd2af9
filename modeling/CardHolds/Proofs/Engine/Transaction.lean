import CardHolds.Proofs.Engine.AuditTrail
import CardHolds.Proofs.PaymentLog.Queries

/-!
# The transaction of a call, step by step

A step of a lifecycle call does one of four things to its transaction (`Caller.TransactionStep`): it
leaves it alone, adds a row under a fresh name, makes its rows part of the log, or discards them.
What the call got for the rows of its transaction (`Caller.drafts`) is what its file shows.
-/

namespace CardHolds

open Program

/-- What nobody else disturbs is carried out or refused. -/
theorem Execution.interrupted_alone_snd {ε α : Type} (x : Execution) (it : Interruption ε)
    (call : Execution → Except ε α × Execution) :
    (x.interrupted it.alone call).2 = if it.instead.isSome then x else (call x).2 := by
  unfold interrupted Interruption.alone
  cases it.instead with
  | none => rfl
  | some error => rfl

theorem Execution.interrupted_alone_fst {ε α : Type} (x : Execution) (it : Interruption ε)
    (call : Execution → Except ε α × Execution) :
    (x.interrupted it.alone call).1 =
      match it.replacing.or it.instead with
      | some error => .error error
      | none => (call x).1 := by
  unfold interrupted Interruption.alone
  cases it.replacing with
  | some error => rfl
  | none =>
    cases it.instead with
    | some error => rfl
    | none => rfl

namespace Caller

/-- The next step makes the rows of the transaction part of the log: the commit is confirmed, or it
takes effect and no more than the confirmation is lost. -/
def commits (c : Caller) (e : Engine) : Bool :=
  match c.rest with
  | .ask (.log .commit) _ =>
    let faults := c.faults.log c.history .commit
    ((c.execution e).logCall c.faults.alone .commit).1.isOk ||
      (faults.replacing.isSome && faults.instead.isNone && (e.log.commit c.transaction).isOk)
  | _ => false

/-- The rows that the next step takes out of the transaction without making them part of the log. -/
def discards (c : Caller) (e : Engine) : List PaymentRow :=
  if c.commits e then []
  else c.transaction.inserted.filter fun row => decide (row ∉ (c.step e).1.transaction.inserted)

/-- What a call got for the rows of its transaction, after one more reply. -/
def draftsAfter (ds : List Payment) :
    (call : LifecycleCall) → lifecycleCalls.Reply call → List Payment
  | .log (.insert _), .ok p => ds ++ [p]
  | .log .begin, _ => []
  | .log .commit, _ => []
  | .log .rollback, _ => []
  | _, _ => ds

/-- What a call got for the rows of its transaction, after its next step. -/
def drafts (c : Caller) (e : Engine) (ds : List Payment) : List Payment :=
  match c.rest with
  | .done _ => ds
  | .ask call _ => draftsAfter ds call (Execution.answer c.faults.alone call (c.execution e)).1

/-- All that a step of a call can do to its transaction and to the log. -/
inductive TransactionStep (c : Caller) (e : Engine) : Caller → Engine → Prop
  | stays {c' e'} (commits : c.commits e = false) (transaction : c'.transaction = c.transaction)
      (rows : e'.log.rows = e.log.rows) : TransactionStep c e c' e'
  | inserts {c' e'} (row : PaymentRow) (commits : c.commits e = false)
      (transaction : c'.transaction.inserted = c.transaction.inserted ++ [row])
      (rows : e'.log.rows = e.log.rows) (id : row.id = e.mint.paymentId e.paymentsInserted)
      (inserted : e'.paymentsInserted = e.paymentsInserted + 1)
      (fresh : ∀ old ∈ e.log.rows.rows, old.id ≠ row.id) : TransactionStep c e c' e'
  | commits {c' e'} (commits : c.commits e = true) (transaction : c'.transaction = {})
      (rows : e'.log.rows.rows = e.log.rows.rows ++ c.transaction.inserted) : TransactionStep c e c' e'
  | discards {c' e'} (commits : c.commits e = false) (transaction : c'.transaction = {})
      (rows : e'.log.rows = e.log.rows) : TransactionStep c e c' e'

variable {c c' : Caller} {e e' : Engine}

theorem commits_of_done {result : Except FlowError PaymentOutcome} (h : c.rest = .done result) :
    c.commits e = false := by
  unfold commits
  rw [h]

theorem rest_of_commits (h : c.commits e = true) : ∃ next, c.rest = .ask (.log .commit) next := by
  unfold commits at h
  split at h
  · rename_i next hrest
    exact ⟨next, hrest⟩
  · cases h

theorem commits_of_ask {call : LifecycleCall}
    {next : lifecycleCalls.Reply call → Program lifecycleCalls (Except FlowError PaymentOutcome)}
    (h : c.rest = .ask call next) (hcall : call ≠ .log .commit) : c.commits e = false := by
  unfold commits
  rw [h]
  split
  · rename_i heq
    cases heq
    exact absurd rfl hcall
  · rfl

/-- A call commits where the log takes the rows and the call to it is not refused. -/
theorem commits_of_commit
    {next : lifecycleCalls.Reply (.log .commit) →
      Program lifecycleCalls (Except FlowError PaymentOutcome)}
    (h : c.rest = .ask (.log .commit) next) :
    c.commits e = ((c.faults.log c.history .commit).instead.isNone &&
      (e.log.commit c.transaction).isOk) := by
  unfold commits
  rw [h]
  have hcommit : (c.execution e).commitTransaction.1.isOk = (e.log.commit c.transaction).isOk := by
    unfold Execution.commitTransaction execution
    cases e.log.commit c.transaction with
    | ok log => rfl
    | error error => rfl
  have hreply := (c.execution e).interrupted_alone_fst (c.faults.log c.history .commit)
    Execution.commitTransaction
  -- a reply that gets lost says nothing, and the second half of the definition decides
  show (((c.execution e).interrupted (c.faults.log c.history .commit).alone
    Execution.commitTransaction).1.isOk || _) = _
  rw [hreply]
  cases (c.faults.log c.history .commit).replacing with
  | some error => rfl
  | none =>
    cases (c.faults.log c.history .commit).instead with
    | some error => rfl
    | none => exact (Bool.or_false _).trans hcommit

/-- A call to another party than the log. -/
theorem transactionStep_of_leavesLog {call : LifecycleCall}
    {next : lifecycleCalls.Reply call → Program lifecycleCalls (Except FlowError PaymentOutcome)}
    (h : c.rest = .ask call next) (hcall : call ≠ .log .commit)
    (leaves : (c.execution e).LeavesLog (Execution.answer c.faults.alone call (c.execution e)).2) :
    TransactionStep c e (c.step e).1 (c.step e).2 := by
  rw [step_ask h]
  exact .stays (commits_of_ask h hcall) leaves.transaction (congrArg PaymentLog.rows leaves.log)

theorem transactionStep_insert (payment : NewPayment)
    {next : lifecycleCalls.Reply (.log (.insert payment)) →
      Program lifecycleCalls (Except FlowError PaymentOutcome)}
    (h : c.rest = .ask (.log (.insert payment)) next) : TransactionStep c e (c.step e).1 (c.step e).2 := by
  have hcommits : c.commits e = false := commits_of_ask h nofun
  have hcall := (c.execution e).interrupted_alone_snd (c.faults.log c.history (.insert payment))
    (·.insertPayment payment)
  have htransaction : (c.step e).1.transaction = ((c.execution e).interrupted
      (c.faults.log c.history (.insert payment)).alone (·.insertPayment payment)).2.transaction := by
    rw [step_ask h]
    rfl
  have hengine : (c.step e).2 = ((c.execution e).interrupted
      (c.faults.log c.history (.insert payment)).alone (·.insertPayment payment)).2.engine := by
    rw [step_ask h]
    rfl
  rw [hcall] at htransaction hengine
  -- what is refused does not reach the log
  by_cases hinstead : (c.faults.log c.history (.insert payment)).instead.isSome = true
  · rw [if_pos hinstead] at htransaction hengine
    exact .stays hcommits htransaction (by rw [hengine]; rfl)
  · rw [if_neg hinstead] at htransaction hengine
    unfold Execution.insertPayment execution at htransaction hengine
    rcases e.log.insert_cases c.transaction (e.mint.paymentId e.paymentsInserted) e.mint.now payment
      with ⟨error, hrefused⟩ | ⟨row, hinserted, -⟩
    · simp only [hrefused] at htransaction hengine
      exact .stays hcommits htransaction (by rw [hengine])
    · obtain ⟨hid, hfresh⟩ := PaymentLog.insert_fresh hinserted
      simp only [hinserted] at htransaction hengine
      exact .inserts row hcommits (congrArg LogTransaction.inserted htransaction) (by rw [hengine]) hid
        (by rw [hengine]; rfl) hfresh

theorem transactionStep_commit
    {next : lifecycleCalls.Reply (.log .commit) →
      Program lifecycleCalls (Except FlowError PaymentOutcome)}
    (h : c.rest = .ask (.log .commit) next) : TransactionStep c e (c.step e).1 (c.step e).2 := by
  have hcommits := commits_of_commit (e := e) h
  have hcall := (c.execution e).interrupted_alone_snd (c.faults.log c.history .commit)
    Execution.commitTransaction
  have htransaction : (c.step e).1.transaction = {} := by
    rw [step_ask h]
    rfl
  have hengine : (c.step e).2 = ((c.execution e).interrupted
      (c.faults.log c.history .commit).alone Execution.commitTransaction).2.engine := by
    rw [step_ask h]
    rfl
  rw [hcall] at hengine
  -- the transaction is over in any case, and what the log did with its rows tells how
  cases hinstead : (c.faults.log c.history .commit).instead with
  | some error =>
    rw [hinstead] at hcommits hengine
    exact .discards hcommits htransaction (by rw [hengine]; rfl)
  | none =>
    rw [hinstead] at hcommits hengine
    unfold Execution.commitTransaction execution at hengine
    cases hcommit : e.log.commit c.transaction with
    | error error =>
      rw [hcommit] at hcommits
      simp only [hcommit] at hengine
      exact .discards hcommits htransaction (by rw [hengine]; rfl)
    | ok log =>
      rw [hcommit] at hcommits
      simp only [hcommit] at hengine
      exact .commits hcommits htransaction (by rw [hengine]; exact PaymentLog.rows_of_commit hcommit)

theorem transactionStep_begin
    {next : lifecycleCalls.Reply (.log .begin) →
      Program lifecycleCalls (Except FlowError PaymentOutcome)}
    (h : c.rest = .ask (.log .begin) next) : TransactionStep c e (c.step e).1 (c.step e).2 := by
  have hcommits : c.commits e = false := commits_of_ask h nofun
  have hcall := (c.execution e).interrupted_alone_snd (c.faults.log c.history .begin)
    (fun x => (x.engine.log.begin.map fun _ => (), { x with transaction := {} }))
  have hstep : (c.step e).1.transaction =
        (if (c.faults.log c.history .begin).instead.isSome then c.transaction else {}) ∧
      (c.step e).2 = e := by
    rw [step_ask h]
    refine ⟨(congrArg Execution.transaction hcall).trans ?_,
      (congrArg Execution.engine hcall).trans ?_⟩
    · split <;> rfl
    · split <;> rfl
  obtain ⟨htransaction, hengine⟩ := hstep
  split at htransaction
  · exact .stays hcommits htransaction (by rw [hengine])
  · exact .discards hcommits htransaction (by rw [hengine])

/-- **A step of a call does one of four things** to its transaction and to the log. -/
theorem transactionStep (c : Caller) (e : Engine) : TransactionStep c e (c.step e).1 (c.step e).2 := by
  cases hrest : c.rest with
  | done result =>
    rw [step_done hrest]
    exact .stays (commits_of_done hrest) rfl rfl
  | ask call next =>
    match call with
    | .ledger call => exact transactionStep_of_leavesLog hrest nofun (Execution.ledgerCall_leavesLog _ _ call)
    | .stream call => exact transactionStep_of_leavesLog hrest nofun (Execution.streamCall_leavesLog _ _ call)
    | .publish event => exact transactionStep_of_leavesLog hrest nofun (Execution.publish_leavesLog _ event)
    | .log .begin => exact transactionStep_begin hrest
    | .log (.insert payment) => exact transactionStep_insert payment hrest
    | .log .commit => exact transactionStep_commit hrest
    | .log .rollback =>
      have hleaves := Execution.interrupted_leavesLog (c.execution e)
        (c.faults.alone.log c.history .rollback) (fun x => (.ok (), x)) fun _ hy => hy
      rw [step_ask hrest]
      exact .discards (commits_of_ask hrest nofun) rfl (congrArg PaymentLog.rows hleaves.log)
    | .log (.find id) =>
      exact transactionStep_of_leavesLog hrest nofun ((Execution.interrupted_leavesLog (c.execution e)
        (c.faults.alone.log c.history (.find id)) (fun x => (x.engine.log.find id, x))
        fun _ hy => hy).congr rfl rfl)
    | .log (.involving account) =>
      exact transactionStep_of_leavesLog hrest nofun ((Execution.interrupted_leavesLog (c.execution e)
        (c.faults.alone.log c.history (.involving account))
        (fun x => (x.engine.log.involving account, x)) fun _ hy => hy).congr rfl rfl)

theorem discards_of_commits (h : c.commits e = true) : c.discards e = [] := by
  rw [discards, if_pos h]

/-- Rows that stay in the transaction are not discarded. -/
theorem discards_of_subset
    (h : ∀ row ∈ c.transaction.inserted, row ∈ (c.step e).1.transaction.inserted) :
    c.discards e = [] := by
  unfold discards
  split
  · rfl
  · exact List.filter_eq_nil_iff.mpr fun row hrow => by simpa using h row hrow

theorem discards_of_empty (hcommits : c.commits e = false) (h : (c.step e).1.transaction = {}) :
    c.discards e = c.transaction.inserted := by
  rw [discards, hcommits, h]
  exact List.filter_eq_self.mpr fun row _ => by simp

theorem mem_of_mem_discards {row : PaymentRow} (h : row ∈ c.discards e) :
    row ∈ c.transaction.inserted := by
  unfold discards at h
  split at h
  · cases h
  · exact (List.mem_filter.mp h).1

/-- The rows of a transaction are old ones, or one of them has just got the next name. -/
theorem mem_transaction_step {row : PaymentRow} (h : row ∈ (c.step e).1.transaction.inserted) :
    row ∈ c.transaction.inserted ∨ row.id = e.mint.paymentId e.paymentsInserted ∧
      (c.step e).2.paymentsInserted = e.paymentsInserted + 1 := by
  cases c.transactionStep e with
  | stays _ htransaction => exact Or.inl (htransaction ▸ h)
  | inserts new _ htransaction _ hid hinserted =>
    rw [htransaction] at h
    rcases List.mem_append.mp h with h | h
    · exact Or.inl h
    · rw [List.mem_singleton.mp h]
      exact Or.inr ⟨hid, hinserted⟩
  | commits _ htransaction =>
    rw [htransaction] at h
    cases h
  | discards _ htransaction =>
    rw [htransaction] at h
    cases h

/-- What a call got for its rows is what its file shows as drafted, as long as this is known. -/
theorem drafts_of_file {f : File} {ds : List Payment} {call : LifecycleCall}
    {next : lifecycleCalls.Reply call → Program lifecycleCalls (Except FlowError PaymentOutcome)}
    (hrest : c.rest = .ask call next) (h : ∀ ds', f.drafts = some ds' → ds = ds') :
    ∀ ds', (c.fileAfter e f call).drafts = some ds' → c.drafts e ds = ds' := by
  have hdrafts : c.drafts e ds =
      draftsAfter ds call (Execution.answer c.faults.alone call (c.execution e)).1 := by
    rw [drafts, hrest]
  rw [hdrafts]
  unfold fileAfter
  generalize (Execution.answer c.faults.alone call (c.execution e)).1 = reply
  intro ds' hds'
  -- where something failed in the transaction, the file shows no drafts any more
  match call, reply with
  | .ledger (.account _), _ => exact h ds' hds'
  | .ledger (.updateBalance _ _), _ => exact h ds' hds'
  | .ledger .openStream, .ok _ => exact h ds' hds'
  | .ledger .openStream, .error _ => exact h ds' hds'
  | .log .begin, .ok _ =>
    cases hds'
    rfl
  | .log .begin, .error _ => cases hds'
  | .log (.insert _), .ok p =>
    obtain ⟨old, hold, rfl⟩ := Option.map_eq_some_iff.mp hds'
    rw [← h old hold]
    rfl
  | .log (.insert _), .error _ => cases hds'
  | .log .commit, .ok _ => cases hds'
  | .log .commit, .error _ => cases hds'
  | .log .rollback, _ => cases hds'
  | .log (.find _), .ok _ => exact h ds' hds'
  | .log (.find _), .error _ => exact h ds' hds'
  | .log (.involving _), _ => exact h ds' hds'
  | .stream _, _ => exact h ds' hds'
  | .publish _, _ => exact h ds' hds'

end Caller

end CardHolds

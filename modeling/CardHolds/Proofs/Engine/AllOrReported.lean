import CardHolds.Proofs.Engine.Replies
import CardHolds.Proofs.Lifecycle.Instruction

/-!
# All or reported

The contribution of a lifecycle call to an account is the sum of what its own successful updates
changed there, measured in the store around each of them.  What other writers do in between does not
count.

Main statement (`Engine.call_all_or_reported`): under any interference a call either records one
decision and contributes exactly what its row stands for, or records nothing and contributes nothing,
or records nothing and reports the accounts on which moves of it are still in place, these moves being
exactly its contribution.
-/

namespace CardHolds

open BalanceMove (effects)
open PaymentRow (ReadAs)

namespace Execution
variable {i : Interference} {x : Execution} {b : Book}

/-- What a call changes on the accounts when it is an update that succeeds. -/
def ownChange (i : Interference) (call : LifecycleCall) (x : Execution) : AccountId → Delta :=
  match call with
  | .ledger (.updateBalance id u) =>
    let before := (x.others (i.ledger x.history (.updateBalance id u)).before).engine.ledger
    if (x.ledgerCall i (.updateBalance id u)).1.isOk then
      (before.updateBalance id u).2.store.holdings - before.store.holdings
    else
      0
  | _ => 0

/-- An answer that is no error was given by the call itself. -/
theorem called_of_interrupted_ok {ε α : Type} (it : Interruption ε)
    (call : Execution → Except ε α × Execution) {a : α} (h : (x.interrupted it call).1 = .ok a) :
    (call (x.others it.before)).1 = .ok a :=
  interrupted_rule x it call
    (fun r _ => ∀ a, r = .ok a → (call (x.others it.before)).1 = .ok a)
    (fun _ h => h) (fun _ _ h => by cases h) (fun _ _ _ _ _ _ h => by cases h) (fun _ _ h => h) a h

/-- **A successful update changes what the book says it moves.** -/
theorem moved_observe (h : Agrees i x.engine x.transaction b) (c : LifecycleCall)
    (hask : bookkeeping.Asks b c) :
    (bookkeeping.observe b c (answer i c x).1).ledger.moved =
      b.ledger.moved + ownChange i c x := by
  cases c with
  | log c => exact (add_zero _).symm
  | stream c => exact (add_zero _).symm
  | publish event => exact (add_zero _).symm
  | ledger c =>
    cases c with
    | openStream => exact (add_zero _).symm
    | account id =>
      show (ledgerBookkeeping.observe b.ledger (.account id) (x.ledgerCall i (.account id)).1).moved
        = b.ledger.moved + 0
      rw [add_zero]
      cases (x.ledgerCall i (.account id)).1 <;> rfl
    | updateBalance id u =>
      show (ledgerBookkeeping.observe b.ledger (.updateBalance id u)
        (x.ledgerCall i (.updateBalance id u)).1).moved = _
      cases hreply : (x.ledgerCall i (.updateBalance id u)).1 with
      | error e =>
        have hzero : ownChange i (.ledger (.updateBalance id u)) x = 0 :=
          if_neg (by rw [hreply]; exact Bool.false_ne_true)
        exact (add_zero _).symm.trans (congrArg _ hzero.symm)
      | ok a =>
        have hchange : ownChange i (.ledger (.updateBalance id u)) x = b.ledger.planned id u := by
          refine (if_pos (by rw [hreply]; rfl)).trans ?_
          exact sub_eq_of_eq_add' ((h.performAll (.beforeLedger ..)).holdings_of_ok hask
            (called_of_interrupted_ok (i.ledger x.history (.updateBalance id u))
              (fun x => ((x.engine.ledger.updateBalance id u).1,
                { x with engine := { x.engine with ledger := (x.engine.ledger.updateBalance id u).2 } }))
              hreply))
        exact congrArg (b.ledger.moved + ·) hchange.symm

end Execution

/-! ## Whole calls -/

/-- The log consists of the rows that were there at the start and those that the call committed, and
what the call found was there at the start. -/
structure LogBook.Tracks (rows₀ : List PaymentRow) (log : PaymentLog) (b : LogBook) : Prop where
  committed : ∃ rows, log.rows.rows = rows₀ ++ rows ∧ ReadAs rows b.committed
  found : ∀ p, b.found = some p → ∃ row ∈ rows₀, row.read = .ok p

theorem LogBook.Tracks.start (log : PaymentLog) : ({} : LogBook).Tracks log.rows.rows log :=
  ⟨⟨[], (List.append_nil _).symm, rfl⟩, fun _ hp => by cases hp⟩

theorem LogBook.Tracks.grow {rows₀ : List PaymentRow} {log log' : PaymentLog} {b b' : LogBook}
    (h : b.Tracks rows₀ log) (hg : LogBook.Grows log log' b b') : b'.Tracks rows₀ log' := by
  obtain ⟨rows, hrows, hread⟩ := h.committed
  obtain ⟨ps, new, hcommitted, hlog, hnew⟩ := hg.committed
  refine ⟨⟨rows ++ new, by rw [hlog, hrows, List.append_assoc], hcommitted ▸ hread.append hnew⟩,
    fun p hp => ?_⟩
  rcases hg.found with hfound | ⟨hnone, hfound⟩
  · exact h.found p (hfound ▸ hp)
  · -- nothing was committed yet, so the log is as it was at the start
    rw [hnone] at hread
    rw [List.map_eq_nil_iff.mp hread, List.append_nil] at hrows
    exact hrows ▸ hfound p hp

/-- What an instruction can decide on an engine: a payment that it refers to is in the log. -/
def Instruction.DecidesOn (e : Engine) (instruction : Instruction) (d : Decision) : Prop :=
  ∃ found, (∀ p, found = some p → findPayment e.log.rows p.id = .ok (some p)) ∧
    instruction.Decides found d

namespace Engine
variable {e : Engine} {i : Interference} {instruction : Instruction}

/-- What the successful updates of a call changed on every account. -/
def contribution (e : Engine) (i : Interference) (instruction : Instruction) : AccountId → Delta :=
  (instruction.program e.retries).accrued (Execution.answer i) (Execution.ownChange i)
    { engine := e }

/-- A decision is recorded and contributes what its row stands for, or nothing is recorded and the
contribution is nothing but the moves on the accounts that are reported. -/
def AllOrReported (e : Engine) (instruction : Instruction)
    (result : Except FlowError PaymentOutcome) (after : Engine) (contribution : AccountId → Delta) :
    Prop :=
  match result with
  | .ok outcome =>
    if outcome.status = .invalidTransaction then
      after.log.rows = e.log.rows ∧ contribution = 0
    else
      ∃ d row p, instruction.DecidesOn e d ∧ (∃ id now, p = d.row.recorded id now) ∧
        row.read = .ok p ∧ after.log.rows.rows = e.log.rows.rows ++ [row] ∧
        outcome = .ofPayment p ∧ contribution = d.effect ∧ contribution = p.effect
  | .error (.compensationFailed _ accounts) =>
    after.log.rows = e.log.rows ∧ ∃ d stranded, instruction.DecidesOn e d ∧
      stranded.Sublist d.moves.reverse ∧ stranded ≠ [] ∧
      accounts = stranded.map BalanceMove.account ∧ contribution = effects stranded
  | .error _ => after.log.rows = e.log.rows ∧ contribution = 0

section Conclusion
variable {result : Except FlowError PaymentOutcome} {b : Book} {after : Engine}

theorem decidesOn_of_tracks (h : b.log.Tracks e.log.rows.rows after.log) {d : Decision}
    (hd : instruction.Decides b.log.found d) : instruction.DecidesOn e d := by
  refine ⟨b.log.found, fun p hp => ?_, hd⟩
  obtain ⟨row, hrow, hread⟩ := h.found p hp
  exact findPayment_of_mem hrow hread

theorem rows_eq_of_tracks (h : b.log.Tracks e.log.rows.rows after.log)
    (hnone : b.log.committed = []) : after.log.rows = e.log.rows := by
  obtain ⟨rows, hrows, hread⟩ := h.committed
  rw [hnone] at hread
  rw [List.map_eq_nil_iff.mp hread, List.append_nil] at hrows
  exact Table.ext hrows

/-- What the book shows at the end of a call is what the engine shows. -/
theorem allOrReported_of_concludes (htracks : b.log.Tracks e.log.rows.rows after.log)
    (h : instruction.Concludes result b) :
    e.AllOrReported instruction result after b.ledger.moved := by
  cases result with
  | ok outcome =>
    show if outcome.status = .invalidTransaction then _ else _
    rcases h with ⟨d, p, hd, hp, rfl, hcommitted, hmoved⟩ | ⟨hstatus, hnone, hmoved⟩
    · obtain ⟨id, now, rfl⟩ := id hp
      obtain ⟨rows, hrows, hread⟩ := htracks.committed
      rw [hcommitted] at hread
      obtain ⟨row, rfl, hrow⟩ := List.map_eq_singleton_iff.mp hread
      have hstatus : (PaymentOutcome.ofPayment (d.row.recorded id now)).status ≠
          .invalidTransaction := hd.status_ne
      rw [if_neg hstatus]
      exact ⟨d, row, _, decidesOn_of_tracks htracks hd, hp, hrow, hrows, rfl, hmoved,
        hmoved.trans hd.effect_eq⟩
    · rw [if_pos hstatus]
      exact ⟨rows_eq_of_tracks htracks hnone, hmoved⟩
  | error error =>
    obtain ⟨hnone, stranded, hreports, hmoved, hplans⟩ := h
    have hrows := rows_eq_of_tracks htracks hnone
    cases error with
    | compensationFailed message accounts =>
      obtain ⟨hne, haccounts⟩ := hreports
      obtain ⟨d, hd, hsub⟩ := hplans hne
      exact ⟨hrows, d, stranded, decidesOn_of_tracks htracks hd, hsub, hne, haccounts, hmoved⟩
    | _ =>
      have hreports : stranded = [] := hreports
      exact ⟨hrows, by rw [hmoved, hreports, BalanceMove.effects_nil]⟩

end Conclusion

/-- **All or reported.** -/
theorem call_all_or_reported (fresh : e.NamesFresh) (clean : i.CommitsCleanly)
    (instruction : Instruction) :
    e.AllOrReported instruction (e.call i (instruction.program e.retries)).1
      (e.call i (instruction.program e.retries)).2.engine (e.contribution i instruction) := by
  obtain ⟨b, hconcludes, ⟨-, htracks⟩, hmoved⟩ := (instruction.program_spec e.retries).run_accrued
    (Execution.answer i) (Execution.ownChange i)
    (fun x b => Agrees i x.engine x.transaction b ∧ b.log.Tracks e.log.rows.rows x.engine.log)
    (fun b => b.ledger.moved)
    (fun c x b ⟨hagrees, htracks⟩ hask =>
      have hanswer := Execution.answer_spec clean hagrees c hask
      ⟨hanswer.replies, ⟨hanswer.agrees, htracks.grow hanswer.grows⟩,
        Execution.moved_observe hagrees c hask⟩)
    (x := { engine := e }) ⟨.start (Or.inr fresh), .start e.log⟩
  have hmoved : b.ledger.moved = e.contribution i instruction := hmoved.trans (zero_add _)
  rw [← hmoved]
  exact allOrReported_of_concludes htracks hconcludes

end Engine

/-! ## A hold that stays in place -/

namespace StrandedHold

open Sample

/-- No statement stream opens, and the customer cannot be written a second time. -/
def interference : Interference := .ofFaults
  [{ site := .openStream, instead := some (.ledger (.streamClosed "gone")) },
    { site := .updateBalance, account := some customer, first := 2,
      instead := some (.ledger (.streamClosed "gone")) }]

def instruction : Instruction :=
  .authorize (request (units 40))

theorem commitsCleanly : interference.CommitsCleanly :=
  Interference.commitsCleanly_ofFaults (by decide)

/-- The hold of the merchant is undone, that of the customer stays and is reported. -/
theorem all_or_reported :
    engine.NamesFresh ∧ interference.CommitsCleanly ∧
      engine.AllOrReported instruction
        (engine.call interference (instruction.program engine.retries)).1
        (engine.call interference (instruction.program engine.retries)).2.engine
        (engine.contribution interference instruction) ∧
      engine.contribution interference instruction customer = (-40, 40) ∧
      engine.contribution interference instruction merchant = 0 :=
  ⟨namesFresh_engine, commitsCleanly,
    Engine.call_all_or_reported namesFresh_engine commitsCleanly instruction,
    by decide, by decide⟩

end StrandedHold

end CardHolds

import CardHolds.Engine.Fault
import CardHolds.Proofs.Engine.Environment
import CardHolds.Proofs.Lifecycle.Book
import CardHolds.Proofs.PaymentLog.Rows

/-!
# The engine keeps its side of the contract

Under any interference that does not take a commit back after the fact, the engine replies within
the contract of a lifecycle call (`Execution.answer_spec`).  What carries this through a run is that
the engine `Agrees` with the book of the call: all readings can be relied on, and the transaction
holds the rows that the call knows.

A call changes the log in one way only: what it commits is added at the end (`LogBook.Grows`).
-/

namespace CardHolds

open PaymentRow (ReadAs)

/-- The book of a call is right about the engine and the open transaction. -/
structure Agrees (i : Interference) (e : Engine) (tx : LogTransaction) (b : Book) : Prop where
  names : i.Alone ∨ e.NamesFresh
  seen : ∀ id r, b.ledger.seen id = some r → e.Backs id r
  drafts : ∀ ds, b.log.drafts = some ds → ReadAs tx.inserted ds

/-- What was committed in between is at the end of the log, and what was found in between was there
at the start. -/
structure LogBook.Grows (log log' : PaymentLog) (b b' : LogBook) : Prop where
  committed : ∃ ps rows, b'.committed = b.committed ++ ps ∧
    log'.rows.rows = log.rows.rows ++ rows ∧ ReadAs rows ps
  found : b'.found = b.found ∨
    b.committed = [] ∧ ∀ p, b'.found = some p → ∃ row ∈ log.rows.rows, row.read = .ok p

theorem LogBook.Grows.of_eq {log log' : PaymentLog} {b b' : LogBook} (hlog : log' = log)
    (committed : b'.committed = b.committed) (found : b'.found = b.found) :
    LogBook.Grows log log' b b' :=
  ⟨⟨[], [], by rw [committed, List.append_nil], by rw [hlog, List.append_nil], rfl⟩, Or.inl found⟩

/-- A commit that was answered with an error has not happened. -/
def Interference.CommitsCleanly (i : Interference) : Prop := ∀ h, (i.log h .commit).replacing = none

theorem replacing_ofFaults {ε : Type} {kind : FaultError → Option ε} {faults : List Fault}
    (h : ∀ f ∈ faults, f.replacing = none) : (Interruption.ofFaults kind faults).replacing = none := by
  have hnone : faults.findSome? Fault.replacing = none := List.findSome?_eq_none_iff.mpr h
  simp only [Interruption.ofFaults, hnone, Option.bind_none]

/-- Faults that take no answer away leave commits alone. -/
theorem Interference.commitsCleanly_ofFaults {faults : List Fault}
    (h : ∀ f ∈ faults, f.replacing = none) : (Interference.ofFaults faults).CommitsCleanly :=
  fun _ => replacing_ofFaults fun f hf => h f (List.mem_filter.mp hf).1

namespace Agrees
variable {i : Interference} {e e' : Engine} {tx : LogTransaction} {b : Book}

/-- The empty book is right about everything. -/
theorem start (names : i.Alone ∨ e.NamesFresh) : Agrees i e tx {} :=
  ⟨names, fun _ _ hr => (by cases hr), fun _ hds => (by cases hds)⟩

/-- Other writers leave the book right. -/
theorem performAll (h : Agrees i e tx b) {commands : List Ledger.Command}
    (hc : i.Commands commands) : Agrees i (e.performAll commands) tx b := by
  rcases h.names with alone | fresh
  · rw [alone commands hc]
    exact h
  · exact ⟨Or.inr (fresh.performAll commands),
      fun id r hr => (h.seen id r hr).performAll fresh commands, h.drafts⟩

/-- So does anything that lets the accounts go on. -/
theorem of_advances (h : Agrees i e tx b) (ha : e.Advances e') : Agrees i e' tx b :=
  ⟨h.names.imp_right ha.namesFresh, fun id r hr => ha.backs (h.seen id r hr), h.drafts⟩

/-- Nothing has to be known of a transaction whose rows are not known. -/
theorem forget (h : Agrees i e tx b) {tx' : LogTransaction} {b' : Book}
    (seen : b'.ledger.seen = b.ledger.seen) (drafts : b'.log.drafts = none) :
    Agrees i e tx' b' :=
  ⟨h.names, fun id r hr => h.seen id r (seen ▸ hr), fun ds hds => by rw [drafts] at hds; cases hds⟩

/-- A reading of the engine is one that the book admits. -/
theorem admits (h : Agrees i e tx b) {id : AccountId} {a : Account}
    (hread : e.ledger.account id = .ok a) : a.id = id ∧ b.ledger.Admits a := by
  obtain ⟨row, hrow, hid, hversion, hheld⟩ := Ledger.account_spec hread
  exact ⟨hid, fun r hr => ((h.seen a.id r hr).precedes row (hid ▸ hrow)).next hversion hheld⟩

theorem read (h : Agrees i e tx b) {id : AccountId} {a : Account}
    (hread : e.ledger.account id = .ok a) : Agrees i e tx { b with ledger := b.ledger.read a } := by
  refine ⟨h.names, fun id' r hr => ?_, h.drafts⟩
  obtain ⟨hid, -⟩ := h.admits hread
  by_cases hid' : id' = a.id
  · -- the reading that was just made
    rw [hid', LedgerBook.seen_read] at hr
    cases hr
    rw [hid', hid]
    exact Engine.backs_of_account hread
  · exact h.seen id' r ((Function.update_of_ne hid' ..).symm.trans hr)

/-- **An update that is written meets the last reading of its account.** -/
theorem of_written (h : Agrees i e tx b) {id : AccountId} {u : BalanceUpdate}
    {row row' : AccountRow} (hask : ledgerBookkeeping.Asks b.ledger (.updateBalance id u))
    (hw : e.ledger.store.Written id u row row') :
    ∃ r, b.ledger.seen id = some r ∧ u.expectedVersion = some r.version ∧ row.held = r.held := by
  obtain ⟨r, v, hr, hv, hle⟩ := hask
  have hexp := hw.expected
  rw [hv] at hexp
  obtain ⟨hversion, hheld⟩ := ((h.seen id r hr).precedes row hw.found).of_expects hexp hle
  exact ⟨r, hr, by rw [hv, hversion], hheld⟩

/-- An update that is answered with the account adds what was planned from the last reading. -/
theorem holdings_of_ok (h : Agrees i e tx b) {id : AccountId} {u : BalanceUpdate}
    (hask : ledgerBookkeeping.Asks b.ledger (.updateBalance id u))
    {a : Account} (hok : (e.ledger.updateBalance id u).1 = .ok a) :
    (e.ledger.updateBalance id u).2.store.holdings =
      e.ledger.store.holdings + b.ledger.planned id u := by
  rcases e.ledger.updateBalance_cases id u with ⟨error, he⟩ | ⟨⟨row, row', hw⟩, -, hstore⟩
  · rw [he] at hok
    cases hok
  · obtain ⟨r, hr, -, hheld⟩ := h.of_written hask hw
    rw [hstore, hw.holdings_eq, LedgerBook.planned, hr, Option.elim_some, hheld]

end Agrees

namespace Execution
variable {i : Interference} {x : Execution} {b : Book}

theorem advances_update (e : Engine) (id : AccountId) (u : BalanceUpdate) :
    e.Advances { e with ledger := (e.ledger.updateBalance id u).2 } := by
  rcases e.ledger.updateBalance_cases id u with ⟨error, he⟩ | ⟨⟨row, row', hw⟩, -, hstore⟩
  · exact .of_accounts rfl rfl fun x => by rw [he]
  · refine ⟨rfl, rfl, fun x => ?_⟩
    show LedgerStore.Advances x _ (e.ledger.updateBalance id u).2.store
    rw [hstore]
    exact hw.advances

/-- An execution after one call of the book `b` from the engine `e`, which left the book `b'`.  Where
nobody else writes, nothing but the call itself has changed the accounts. -/
structure Within (i : Interference) (e : Engine) (b : Book) (replies : Prop) (b' : Book)
    (y : Execution) : Prop where
  replies : replies
  agrees : Agrees i y.engine y.transaction b'
  grows : LogBook.Grows e.log y.engine.log b.log b'.log
  advances : i.Alone → e.Advances y.engine

/-- A call that leaves the engine and the book as they are. -/
theorem Within.same {replies : Prop} {y : Execution} (h : Agrees i y.engine y.transaction b)
    (hr : replies) : Within i y.engine b replies b y :=
  ⟨hr, h, .of_eq rfl rfl rfl, fun _ => .refl y.engine⟩

section Others
variable {e : Engine} {replies : Prop} {b' : Book} {y : Execution} {commands : List Ledger.Command}

theorem Within.before (hc : i.Commands commands)
    (h : Within i (e.performAll commands) b replies b' y) : Within i e b replies b' y := by
  refine ⟨h.replies, h.agrees, Engine.log_performAll e commands ▸ h.grows, fun alone => ?_⟩
  have hadvances := h.advances alone
  rw [alone commands hc] at hadvances
  exact hadvances

theorem Within.after (hc : i.Commands commands) (h : Within i e b replies b' y) :
    Within i e b replies b' (y.others commands) := by
  refine ⟨h.replies, h.agrees.performAll hc,
    (Engine.log_performAll y.engine commands).symm ▸ h.grows, fun alone => ?_⟩
  rw [alone commands hc]
  exact h.advances alone

theorem Within.note (h : Within i e b replies b' y) (o : Occurrence) :
    Within i e b replies b' (y.note o) :=
  ⟨h.replies, h.agrees, h.grows, h.advances⟩

end Others

/-- Other writers act around a call; it is enough to know the call itself, and what an error leaves
that takes the place of the call or of its answer. -/
theorem interrupted_within {ε α : Type} (x : Execution) (it : Interruption ε)
    (call : Execution → Except ε α × Execution) (replies : Except ε α → Prop)
    (left : Except ε α → Book) (before : i.Commands it.before) (after : i.Commands it.after)
    (h : Agrees i x.engine x.transaction b)
    (called : ∀ y, Agrees i y.engine y.transaction b →
      Within i y.engine b (replies (call y).1) (left (call y).1) (call y).2)
    (refused : ∀ e y, Agrees i y.engine y.transaction b →
      Within i y.engine b (replies (.error e)) (left (.error e)) y)
    (replaced : ∀ e y, it.replacing = some e → Agrees i y.engine y.transaction b →
      Within i y.engine b (replies (.error e)) (left (.error e)) (call y).2) :
    Within i x.engine b (replies (x.interrupted it call).1) (left (x.interrupted it call).1)
      (x.interrupted it call).2 := by
  have hbefore : Agrees i (x.others it.before).engine x.transaction b := h.performAll before
  -- what is shown of an answer has to hold as well if it is taken away afterwards
  have hrule := interrupted_rule x it call
    (fun r y => Within i x.engine b (replies r) (left r) y ∧
      ∀ e, it.replacing = some e → Within i x.engine b (replies (.error e)) (left (.error e)) y)
    ⟨(called _ hbefore).before before, fun e he => (replaced e _ he hbefore).before before⟩
    (fun e => ⟨(refused e _ hbefore).before before, fun e' _ => (refused e' _ hbefore).before before⟩)
    (fun e r y he hr => ⟨hr.2 e he, hr.2⟩)
    (fun r y hr => ⟨hr.1.after after, fun e he => (hr.2 e he).after after⟩)
  exact hrule.1

/-! ### The calls themselves -/

section Calls
variable {y : Execution}

theorem account_within (hy : Agrees i y.engine y.transaction b) (id : AccountId) :
    Within i y.engine b (ledgerBookkeeping.Replies b.ledger (.account id) (y.engine.ledger.account id))
      { b with ledger :=
          ledgerBookkeeping.observe b.ledger (.account id) (y.engine.ledger.account id) } y := by
  cases hread : y.engine.ledger.account id with
  | error e => exact .same hy trivial
  | ok a => exact ⟨hy.admits hread, hy.read hread, .of_eq rfl rfl rfl, fun _ => .refl _⟩

theorem updateBalance_within (hy : Agrees i y.engine y.transaction b) {id : AccountId}
    {u : BalanceUpdate} (hask : ledgerBookkeeping.Asks b.ledger (.updateBalance id u)) :
    Within i y.engine b
      (ledgerBookkeeping.Replies b.ledger (.updateBalance id u)
        (y.engine.ledger.updateBalance id u).1)
      { b with ledger := (ledgerBookkeeping.observe b.ledger (.updateBalance id u)
          (y.engine.ledger.updateBalance id u).1) }
      { y with engine := { y.engine with ledger := (y.engine.ledger.updateBalance id u).2 } } := by
  have hafter := hy.of_advances (advances_update y.engine id u)
  cases hreply : (y.engine.ledger.updateBalance id u).1 with
  | error e => exact ⟨trivial, hafter, .of_eq rfl rfl rfl, fun _ => advances_update y.engine id u⟩
  | ok a =>
    refine ⟨fun r hr => ?_, ⟨hafter.names, hafter.seen, hafter.drafts⟩, .of_eq rfl rfl rfl,
      fun _ => advances_update y.engine id u⟩
    rcases y.engine.ledger.updateBalance_cases id u with ⟨e, he⟩ | ⟨⟨row, row', hw⟩, -⟩
    · rw [he] at hreply
      cases hreply
    · obtain ⟨r', hr', hversion, -⟩ := hy.of_written hask hw
      rw [hr] at hr'
      cases hr'
      exact hversion

theorem begin_within (hy : Agrees i y.engine y.transaction b) :
    Within i y.engine b
      (logBookkeeping.Replies b.log .begin (y.engine.log.begin.map fun _ => ()))
      { b with log := logBookkeeping.observe b.log .begin (y.engine.log.begin.map fun _ => ()) }
      { y with transaction := {} } := by
  cases y.engine.log.begin.map fun _ => () with
  | error e => exact ⟨trivial, hy.forget rfl rfl, .of_eq rfl rfl rfl, fun _ => .refl _⟩
  | ok _ =>
    refine ⟨trivial, ⟨hy.names, hy.seen, fun ds hds => ?_⟩, .of_eq rfl rfl rfl, fun _ => .refl _⟩
    cases hds
    rfl

theorem advances_insertPayment (x : Execution) (payment : NewPayment) :
    x.engine.Advances (x.insertPayment payment).2.engine :=
  .of_accounts rfl rfl fun _ => rfl

theorem insertPayment_within (hy : Agrees i y.engine y.transaction b) (payment : NewPayment) :
    Within i y.engine b
      (logBookkeeping.Replies b.log (.insert payment) (y.insertPayment payment).1)
      { b with log := logBookkeeping.observe b.log (.insert payment) (y.insertPayment payment).1 }
      (y.insertPayment payment).2 := by
  have hafter := hy.of_advances (advances_insertPayment y payment)
  rcases y.engine.log.insert_cases y.transaction
    (y.engine.mint.paymentId y.engine.paymentsInserted) y.engine.mint.now payment with
    ⟨e, he⟩ | ⟨row, hrow, hread⟩
  · have hreply : (y.insertPayment payment).1 = .error e := by rw [insertPayment, he]
    rw [hreply]
    exact ⟨trivial, hafter.forget rfl rfl, .of_eq rfl rfl rfl,
      fun _ => advances_insertPayment y payment⟩
  · have hreply : (y.insertPayment payment).1 = .ok (payment.recorded
        (y.engine.mint.paymentId y.engine.paymentsInserted) y.engine.mint.now) := by
      rw [insertPayment, hrow]
    have htx : (y.insertPayment payment).2.transaction.inserted =
        y.transaction.inserted ++ [row] := by
      simp only [insertPayment, hrow]
    rw [hreply]
    refine ⟨⟨_, _, rfl⟩, ⟨hafter.names, hafter.seen, fun ds hds => ?_⟩, .of_eq rfl rfl rfl,
      fun _ => advances_insertPayment y payment⟩
    obtain ⟨ds', hds', rfl⟩ := Option.map_eq_some_iff.mp hds
    rw [htx]
    exact (hy.drafts ds' hds').append (PaymentRow.readAs_singleton hread)

/-- **A commit adds the rows that the call knows** to the end of the log. -/
theorem commitTransaction_within (hy : Agrees i y.engine y.transaction b)
    (hask : logBookkeeping.Asks b.log .commit) :
    Within i y.engine b (logBookkeeping.Replies b.log .commit y.commitTransaction.1)
      { b with log := logBookkeeping.observe b.log .commit y.commitTransaction.1 }
      y.commitTransaction.2 := by
  cases hcommit : y.engine.log.commit y.transaction with
  | error e =>
    simp only [commitTransaction, hcommit]
    exact ⟨trivial, hy.forget rfl rfl, .of_eq rfl rfl rfl, fun _ => .refl _⟩
  | ok log =>
    simp only [commitTransaction, hcommit]
    obtain ⟨ds, hds⟩ := Option.isSome_iff_exists.mp hask
    have hafter : Agrees i { y.engine with log := log } y.transaction b :=
      hy.of_advances (.of_accounts rfl rfl fun _ => rfl)
    refine ⟨trivial, hafter.forget rfl rfl,
      ⟨⟨ds, y.transaction.inserted, ?_, PaymentLog.rows_of_commit hcommit, hy.drafts ds hds⟩,
        Or.inl rfl⟩, fun _ => .of_accounts rfl rfl fun _ => rfl⟩
    show b.log.committed ++ b.log.drafts.getD [] = _
    rw [hds, Option.getD_some]

theorem find_within (hy : Agrees i y.engine y.transaction b) {id : PaymentId}
    (hask : logBookkeeping.Asks b.log (.find id)) :
    Within i y.engine b (logBookkeeping.Replies b.log (.find id) (y.engine.log.find id))
      { b with log := logBookkeeping.observe b.log (.find id) (y.engine.log.find id) } y := by
  cases hreply : y.engine.log.find id with
  | error e => exact .same hy trivial
  | ok found =>
    refine ⟨?_, ⟨hy.names, hy.seen, hy.drafts⟩, ⟨⟨[], [], by simp, by simp, rfl⟩,
      Or.inr ⟨hask, fun p hp => ?_⟩⟩, fun _ => .refl _⟩
    · cases found with
      | none => trivial
      | some p => exact (PaymentLog.find_spec hreply).1
    · have hp : found = some p := hp
      exact (PaymentLog.find_spec (hp ▸ hreply)).2

end Calls

/-! ### The calls under interference -/

/-- The ledger replies within the contract. -/
theorem ledgerCall_spec (h : Agrees i x.engine x.transaction b) (c : LedgerCall)
    (hask : ledgerBookkeeping.Asks b.ledger c) :
    Within i x.engine b (ledgerBookkeeping.Replies b.ledger c (x.ledgerCall i c).1)
      { b with ledger := ledgerBookkeeping.observe b.ledger c (x.ledgerCall i c).1 }
      (x.ledgerCall i c).2 := by
  cases c with
  | account id =>
    have hcall := interrupted_within x (i.ledger x.history (.account id))
      (fun x => (x.engine.ledger.account id, x))
      (ledgerBookkeeping.Replies b.ledger (.account id))
      (fun r => { b with ledger := ledgerBookkeeping.observe b.ledger (.account id) r })
      (.beforeLedger ..) (.afterLedger ..) h (fun y hy => account_within hy id)
      (fun e y hy => .same hy trivial) fun e y _ hy => .same hy trivial
    exact hcall.note _
  | updateBalance id u =>
    have hcall := interrupted_within x (i.ledger x.history (.updateBalance id u))
      (fun x => ((x.engine.ledger.updateBalance id u).1,
        { x with engine := { x.engine with ledger := (x.engine.ledger.updateBalance id u).2 } }))
      (ledgerBookkeeping.Replies b.ledger (.updateBalance id u))
      (fun r => { b with ledger := ledgerBookkeeping.observe b.ledger (.updateBalance id u) r })
      (.beforeLedger ..) (.afterLedger ..) h (fun y hy => updateBalance_within hy hask)
      (fun e y hy => .same hy trivial)
      fun e y _ hy =>
        ⟨trivial, hy.of_advances (advances_update y.engine id u), .of_eq rfl rfl rfl,
          fun _ => advances_update y.engine id u⟩
    exact hcall.note _
  | openStream =>
    have hcall := interrupted_within x (i.ledger x.history .openStream)
      (fun x => (.ok (), { x with peer := {} })) (fun _ => True)
      (fun _ => b) (.beforeLedger ..) (.afterLedger ..) h
      (fun y hy => ⟨trivial, hy, .of_eq rfl rfl rfl, fun _ => .refl _⟩)
      (fun e y hy => .same hy trivial)
      fun e y _ hy => ⟨trivial, hy, .of_eq rfl rfl rfl, fun _ => .refl _⟩
    exact hcall.note _

/-- The payment log replies within the contract. -/
theorem logCall_spec (h : Agrees i x.engine x.transaction b) (c : LogCall)
    (clean : c = .commit → i.CommitsCleanly) (hask : logBookkeeping.Asks b.log c) :
    Within i x.engine b (logBookkeeping.Replies b.log c (x.logCall i c).1)
      { b with log := logBookkeeping.observe b.log c (x.logCall i c).1 } (x.logCall i c).2 := by
  cases c with
  | begin =>
    have hcall := interrupted_within x (i.log x.history .begin)
      (fun x => (x.engine.log.begin.map fun _ => (), { x with transaction := {} }))
      (logBookkeeping.Replies b.log .begin)
      (fun r => { b with log := logBookkeeping.observe b.log .begin r })
      (.beforeLog ..) (.afterLog ..) h (fun y hy => begin_within hy)
      (fun e y hy => ⟨trivial, hy.forget rfl rfl, .of_eq rfl rfl rfl, fun _ => .refl _⟩)
      fun e y _ hy => ⟨trivial, hy.forget rfl rfl, .of_eq rfl rfl rfl, fun _ => .refl _⟩
    exact hcall.note _
  | insert payment =>
    have hcall := interrupted_within x (i.log x.history (.insert payment))
      (fun x => x.insertPayment payment)
      (logBookkeeping.Replies b.log (.insert payment))
      (fun r => { b with log := logBookkeeping.observe b.log (.insert payment) r })
      (.beforeLog ..) (.afterLog ..) h (fun y hy => insertPayment_within hy payment)
      (fun e y hy => ⟨trivial, hy.forget rfl rfl, .of_eq rfl rfl rfl, fun _ => .refl _⟩)
      fun e y _ hy => ⟨trivial, (hy.of_advances (advances_insertPayment y payment)).forget rfl rfl,
        .of_eq rfl rfl rfl, fun _ => advances_insertPayment y payment⟩
    exact hcall.note _
  | commit =>
    have hcall := interrupted_within x (i.log x.history .commit)
      commitTransaction (logBookkeeping.Replies b.log .commit)
      (fun r => { b with log := logBookkeeping.observe b.log .commit r })
      (.beforeLog ..) (.afterLog ..) h (fun y hy => commitTransaction_within hy hask)
      (fun e y hy => ⟨trivial, hy.forget rfl rfl, .of_eq rfl rfl rfl, fun _ => .refl _⟩)
      fun e y he _ => by rw [clean rfl] at he; cases he
    refine ⟨hcall.replies, hcall.agrees.forget rfl ?_, hcall.grows, hcall.advances⟩
    show (logBookkeeping.observe b.log .commit _).drafts = none
    cases (x.logCall i .commit).1 <;> rfl
  | rollback =>
    have hcall := interrupted_within x (i.log x.history .rollback)
      (fun x => (.ok (), x)) (fun _ => True) (fun _ => b)
      (.beforeLog ..) (.afterLog ..) h
      (fun y hy => .same hy trivial) (fun e y hy => .same hy trivial)
      fun e y _ hy => .same hy trivial
    exact ⟨trivial, hcall.agrees.forget rfl rfl, ⟨hcall.grows.committed, hcall.grows.found⟩,
      hcall.advances⟩
  | find id =>
    have hcall := interrupted_within x (i.log x.history (.find id))
      (fun x => (x.engine.log.find id, x)) (logBookkeeping.Replies b.log (.find id))
      (fun r => { b with log := logBookkeeping.observe b.log (.find id) r })
      (.beforeLog ..) (.afterLog ..) h (fun y hy => find_within hy hask)
      (fun e y hy => .same hy trivial) fun e y _ hy => .same hy trivial
    exact hcall.note _
  | involving account =>
    have hcall := interrupted_within x (i.log x.history (.involving account))
      (fun x => (x.engine.log.involving account, x)) (fun _ => True)
      (fun _ => b) (.beforeLog ..) (.afterLog ..) h
      (fun y hy => .same hy trivial) (fun e y hy => .same hy trivial)
      fun e y _ hy => .same hy trivial
    exact hcall.note _

/-- A statement entry is no part of an account. -/
theorem find?_handle (l : Ledger) (request : StatementRequest) (x : AccountId) :
    (Server.handle l request).2.store.accounts.find? x = l.store.accounts.find? x := by
  have hledger : (Server.handle l request).2 = (l.append request.account request.payment).2 := by
    unfold Server.handle
    cases h : l.append request.account request.payment with
    | mk reply ledger => cases reply <;> rfl
  rw [hledger]
  rcases l.store_change (fun s => s.append request.account request.payment) with hstore | hstore
  · exact congrArg (fun s => s.accounts.find? x) hstore
  · exact (congrArg (fun s => s.accounts.find? x) hstore).trans
      (LedgerStore.find?_append _ _ _ x)

theorem advances_handle (e : Engine) (request : StatementRequest) :
    e.Advances { e with ledger := (Server.handle e.ledger request).2 } :=
  .of_accounts rfl rfl (find?_handle e.ledger request)

theorem Within.handled {y : Execution} (h : Agrees i y.engine y.transaction b)
    (request : StatementRequest) :
    Within i y.engine b True b
      { y with engine := { y.engine with ledger := (Server.handle y.engine.ledger request).2 } } :=
  ⟨trivial, h.of_advances (advances_handle y.engine request), .of_eq rfl rfl rfl,
    fun _ => advances_handle y.engine request⟩

theorem serveRequest_spec (h : Agrees i x.engine x.transaction b) (request : StatementRequest) :
    Within i x.engine b True b (x.serveRequest i request) := by
  unfold serveRequest
  simp only
  split
  · have hothers := (Within.same h trivial).after (.beforeAppend x.history request)
    exact ⟨trivial, hothers.agrees, hothers.grows, hothers.advances⟩
  · have hcall := interrupted_within (x.note (.append request))
      (i.append x.history request).toInterruption
      (fun x => ((Server.handle x.engine.ledger request).1,
        { x with engine := { x.engine with ledger := (Server.handle x.engine.ledger request).2 } }))
      (fun _ => True) (fun _ => b)
      (.beforeAppend x.history request) (.afterAppend x.history request) h
      (fun y hy => .handled hy request) (fun e y hy => .same hy trivial)
      fun e y _ hy => .handled hy request
    exact ⟨trivial, hcall.agrees, hcall.grows, hcall.advances⟩

theorem endStream_spec (h : Agrees i x.engine x.transaction b) :
    Within i x.engine b True b (x.endStream i) := by
  unfold endStream
  split
  · have hothers := ((Within.same h trivial).after (.beforeEnd x.history)).after (.afterEnd x.history)
    exact ⟨trivial, hothers.agrees, hothers.grows, hothers.advances⟩
  · exact .same h trivial

/-- A statement stream leaves the book right, whatever is appended. -/
theorem streamCall_spec (h : Agrees i x.engine x.transaction b) (c : StreamCall) :
    Within i x.engine b True b (x.streamCall i c).2 := by
  cases c with
  | send request =>
    simp only [streamCall]
    split
    · exact serveRequest_spec h request
    · exact .same h trivial
  | receive =>
    simp only [streamCall]
    split
    · exact .same h trivial
    · exact ⟨trivial, h, .of_eq rfl rfl rfl, fun _ => .refl _⟩
  | hangUp => exact endStream_spec h
  | drain => exact ⟨trivial, h, .of_eq rfl rfl rfl, fun _ => .refl _⟩

theorem advances_publish (e : Engine) (event : Event) : e.Advances (e.publish event) := by
  unfold Engine.publish
  split <;> exact .of_accounts rfl rfl fun _ => rfl

theorem log_publish (e : Engine) (event : Event) : (e.publish event).log = e.log := by
  unfold Engine.publish
  split <;> rfl

theorem ledger_publish (e : Engine) (event : Event) : (e.publish event).ledger = e.ledger := by
  unfold Engine.publish
  split <;> rfl

/-- **The engine keeps the contract of a lifecycle call.** -/
theorem answer_spec (clean : i.CommitsCleanly) (h : Agrees i x.engine x.transaction b)
    (c : LifecycleCall) (hask : bookkeeping.Asks b c) :
    Within i x.engine b (bookkeeping.Replies b c (answer i c x).1)
      (bookkeeping.observe b c (answer i c x).1) (answer i c x).2 := by
  cases c with
  | ledger c => exact ledgerCall_spec h c hask
  | log c => exact logCall_spec h c (fun _ => clean) hask
  | stream c =>
    have hcall := streamCall_spec h c
    exact ⟨trivial, hcall.agrees, hcall.grows, hcall.advances⟩
  | publish event =>
    exact ⟨trivial, h.of_advances (advances_publish x.engine event),
      .of_eq (log_publish x.engine event) rfl rfl, fun _ => advances_publish x.engine event⟩

end Execution

end CardHolds

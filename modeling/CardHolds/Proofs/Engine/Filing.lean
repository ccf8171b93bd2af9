import CardHolds.Proofs.Engine.AllOrReported
import CardHolds.Proofs.Ledger.Entries
import CardHolds.Proofs.Lifecycle.Filing

/-!
# The engine carries out what a call files

Under any interference, also one that takes a commit or an append back after the fact, the engine
replies within the contract under which a call keeps its file (`Execution.answer_replies`).  A call to
the environment adds to the log the row that is filed, or nothing (`Execution.answer_follows`).

Where other writers neither append to statements nor delete any, it adds to the statement entries what
is acknowledged, and perhaps the one request of which this is not known (`Execution.answer_entries`).
-/

namespace CardHolds

open PaymentRow (ReadAs)

namespace Engine
variable {e e' : Engine} {first : Nat} {id : PaymentId}

/-- One of the names given to inserted rows from the given number on. -/
def Minted (e : Engine) (first : Nat) (id : PaymentId) : Prop :=
  ∃ n, first ≤ n ∧ n < e.paymentsInserted ∧ id = e.mint.paymentId n

theorem Minted.mono (h : e.Minted first id) (names : e'.mint.paymentId = e.mint.paymentId)
    (inserted : e.paymentsInserted ≤ e'.paymentsInserted) : e'.Minted first id := by
  obtain ⟨n, hfirst, hn, hid⟩ := h
  exact ⟨n, hfirst, lt_of_lt_of_le hn inserted, hid.trans (congrFun names n).symm⟩

theorem Minted.of_le (h : e.Minted first id) {first' : Nat} (hle : first' ≤ first) :
    e.Minted first' id := by
  obtain ⟨n, hn, hlt, hid⟩ := h
  exact ⟨n, hle.trans hn, hlt, hid⟩

@[simp] theorem mint_performAll (e : Engine) (commands : List Ledger.Command) :
    (e.performAll commands).mint = e.mint := by
  induction commands generalizing e with
  | nil => rfl
  | cons command rest ih => exact ih _

@[simp] theorem paymentsInserted_performAll (e : Engine) (commands : List Ledger.Command) :
    (e.performAll commands).paymentsInserted = e.paymentsInserted := by
  induction commands generalizing e with
  | nil => rfl
  | cons command rest ih => exact ih _

end Engine

namespace File
variable {first : Nat} {e e₁ e' : Engine} {tx tx' : LogTransaction} {f f' : File}

/-- The file is right about the rows in the open transaction. -/
def Drafted (first : Nat) (e : Engine) (tx : LogTransaction) (f : File) : Prop :=
  ∀ ds, f.drafts = some ds → ReadAs tx.inserted ds ∧ ∀ p ∈ ds, e.Minted first p.id

/-- What one call does to the engine and to the file: the row that is filed is added to the log, where
an error leaves this open, and what is found was there before. -/
structure Follows (first : Nat) (e e' : Engine) (tx' : LogTransaction) (f f' : File) : Prop where
  names : e'.mint.paymentId = e.mint.paymentId
  inserted : e.paymentsInserted ≤ e'.paymentsInserted
  drafted : f'.Drafted first e' tx'
  rows : (e'.log.rows = e.log.rows ∧
      (f'.filed = f.filed ∨ f.filed = .nothing ∧ ∃ p, f'.filed = .doubtful p)) ∨
    ∃ row p, f.filed = .nothing ∧ f'.filed.payment? = some p ∧ f'.found = f.found ∧
      row.read = .ok p ∧ e'.Minted first p.id ∧ e'.log.rows.rows = e.log.rows.rows ++ [row]
  found : f'.found = f.found ∨
    f.filed = .nothing ∧ ∀ p, f'.found = some p → ∃ row ∈ e.log.rows.rows, row.read = .ok p

/-- A call that neither files nor finds anything. -/
theorem follows_of_log_eq (names : e'.mint = e.mint)
    (inserted : e.paymentsInserted ≤ e'.paymentsInserted) (log : e'.log = e.log)
    (drafted : f'.Drafted first e' tx') (filed : f'.filed = f.filed) (found : f'.found = f.found) :
    Follows first e e' tx' f f' :=
  ⟨congrArg Mint.paymentId names, inserted, drafted, Or.inl ⟨congrArg PaymentLog.rows log, Or.inl filed⟩,
    Or.inl found⟩

theorem drafted_of_none (h : f.drafts = none) : f.Drafted first e tx := by
  intro ds hds
  rw [h] at hds
  cases hds

theorem Drafted.mono (h : f.Drafted first e tx) (drafts : f'.drafts = f.drafts)
    (names : e'.mint = e.mint) (inserted : e.paymentsInserted ≤ e'.paymentsInserted) :
    f'.Drafted first e' tx := by
  intro ds hds
  obtain ⟨hread, hminted⟩ := h ds (drafts ▸ hds)
  exact ⟨hread, fun p hp => (hminted p hp).mono (congrArg Mint.paymentId names) inserted⟩

theorem Drafted.performAll (h : f.Drafted first e tx) (commands : List Ledger.Command) :
    f.Drafted first (e.performAll commands) tx :=
  h.mono rfl (e.mint_performAll commands) (e.paymentsInserted_performAll commands).ge

/-- Nothing has to be known of a transaction whose rows are not known. -/
theorem Follows.forget (h : Follows first e e' tx f f') (hnone : f'.drafts = none) :
    Follows first e e' tx' f f' :=
  { h with drafted := drafted_of_none hnone }

/-! ### Other writers -/

theorem Follows.before {commands : List Ledger.Command}
    (h : Follows first (e.performAll commands) e' tx' f f') : Follows first e e' tx' f f' := by
  obtain ⟨names, inserted, drafted, rows, found⟩ := h
  rw [Engine.mint_performAll] at names
  rw [Engine.paymentsInserted_performAll] at inserted
  rw [Engine.log_performAll] at rows found
  exact ⟨names, inserted, drafted, rows, found⟩

theorem Follows.after (h : Follows first e e' tx' f f') (commands : List Ledger.Command) :
    Follows first e (e'.performAll commands) tx' f f' := by
  obtain ⟨names, inserted, drafted, rows, found⟩ := h
  refine ⟨(congrArg Mint.paymentId (e'.mint_performAll commands)).trans names,
    (e'.paymentsInserted_performAll commands).symm ▸ inserted, drafted.performAll commands, ?_, found⟩
  rw [Engine.log_performAll]
  rcases rows with hsame | ⟨row, p, hnothing, hfiled, hfound, hread, hminted, hrows⟩
  · exact Or.inl hsame
  · refine Or.inr ⟨row, p, hnothing, hfiled, hfound, hread, ?_, hrows⟩
    exact hminted.mono (congrArg Mint.paymentId (e'.mint_performAll commands))
      (e'.paymentsInserted_performAll commands).ge

end File

namespace Execution
variable {ε α : Type} {i : Interference} {first : Nat} {x : Execution} {f : File}
  {Lawful : Option Payment → Decision → Prop}

/-! ## Replies -/

/-- **The engine replies within the contract of a file**, whatever the interference. -/
theorem answer_replies (i : Interference) (x : Execution) (f : File) (c : LifecycleCall) :
    (filing Lawful).Replies f c (answer i c x).1 := by
  match c with
  | .ledger (.account id) =>
    show (filing Lawful).Replies f (.ledger (.account id)) (x.ledgerCall i (.account id)).1
    cases hreply : (x.ledgerCall i (.account id)).1 with
    | error e => trivial
    | ok a =>
      obtain ⟨row, -, hid, -⟩ := Ledger.account_spec (called_of_interrupted_ok
        (i.ledger x.history (.account id)) (fun x => (x.engine.ledger.account id, x)) hreply)
      exact hid
  | .ledger (.updateBalance id u) => trivial
  | .ledger .openStream => trivial
  | .log .begin => trivial
  | .log (.insert payment) =>
    show (filing Lawful).Replies f (.log (.insert payment)) (x.logCall i (.insert payment)).1
    cases hreply : (x.logCall i (.insert payment)).1 with
    | error e => trivial
    | ok p =>
      have hcalled := called_of_interrupted_ok (i.log x.history (.insert payment))
        (·.insertPayment payment) hreply
      unfold insertPayment at hcalled
      simp only at hcalled
      rcases PaymentLog.insert_cases _ _ _ _ payment with ⟨e, he⟩ | ⟨row, hrow, -⟩
      · rw [he] at hcalled
        cases hcalled
      · rw [hrow] at hcalled
        cases hcalled
        exact ⟨_, _, rfl⟩
  | .log .commit => trivial
  | .log .rollback => trivial
  | .log (.find id) =>
    show (filing Lawful).Replies f (.log (.find id)) (x.logCall i (.find id)).1
    cases hreply : (x.logCall i (.find id)).1 with
    | error e => trivial
    | ok found =>
      have hcalled := called_of_interrupted_ok (i.log x.history (.find id))
        (fun x => (x.engine.log.find id, x)) hreply
      cases found with
      | none => trivial
      | some p => exact (PaymentLog.find_spec hcalled).1
  | .log (.involving account) => trivial
  | .stream c => trivial
  | .publish event => trivial

/-! ## The payment log -/

/-- What holds of a call with its own answer and with any error holds under an interruption. -/
theorem interrupted_either (x : Execution) (it : Interruption ε)
    (call : Execution → Except ε α × Execution) (P : Except ε α → Execution → Prop)
    (called : P (call (x.others it.before)).1 (call (x.others it.before)).2)
    (replaced : ∀ e, P (.error e) (call (x.others it.before)).2)
    (refused : ∀ e, P (.error e) (x.others it.before))
    (after : ∀ r y, P r y → P r (y.others it.after)) :
    P (x.interrupted it call).1 (x.interrupted it call).2 := by
  have hrule := interrupted_rule x it call (fun r y => P r y ∧ ∀ e, P (.error e) y)
    ⟨called, replaced⟩ (fun e => ⟨refused e, refused⟩) (fun e _ _ _ h => ⟨h.2 e, h.2⟩)
    (fun r y h => ⟨after r y h.1, fun e => after _ y (h.2 e)⟩)
  exact hrule.1

section Calls
variable {y : Execution}

/-- A call of which nothing is known but that it was answered with an error drafts nothing. -/
theorem follows_of_none {f' : File} (tx : LogTransaction) (drafts : f'.drafts = none)
    (filed : f'.filed = f.filed) (found : f'.found = f.found) :
    File.Follows first y.engine y.engine tx f f' :=
  File.follows_of_log_eq rfl le_rfl rfl (File.drafted_of_none drafts) filed found

theorem begin_follows (first : Nat) (y : Execution) (f : File) (r : Except LogError Unit) :
    File.Follows first y.engine y.engine {} f ((filing Lawful).observe f (.log .begin) r) := by
  cases r with
  | error e => exact follows_of_none _ rfl rfl rfl
  | ok _ =>
    refine File.follows_of_log_eq rfl le_rfl rfl ?_ rfl rfl
    intro ds hds
    cases hds
    exact ⟨rfl, fun p hp => by cases hp⟩

/-- A row is drafted under a name of its own. -/
theorem insertPayment_follows (hy : f.Drafted first y.engine y.transaction)
    (hfirst : first ≤ y.engine.paymentsInserted) (payment : NewPayment) :
    File.Follows first y.engine (y.insertPayment payment).2.engine
      (y.insertPayment payment).2.transaction f
      ((filing Lawful).observe f (.log (.insert payment)) (y.insertPayment payment).1) := by
  rcases y.engine.log.insert_cases y.transaction
    (y.engine.mint.paymentId y.engine.paymentsInserted) y.engine.mint.now payment with
    ⟨e, he⟩ | ⟨row, hrow, hread⟩
  · have hreply : (y.insertPayment payment).1 = .error e := by rw [insertPayment, he]
    rw [hreply]
    exact File.follows_of_log_eq rfl (Nat.le_add_right _ _) rfl (File.drafted_of_none rfl) rfl rfl
  · simp only [insertPayment, hrow]
    refine File.follows_of_log_eq rfl (Nat.le_add_right _ _) rfl ?_ rfl rfl
    intro ds hds
    obtain ⟨ds', hds', rfl⟩ := Option.map_eq_some_iff.mp hds
    obtain ⟨hread', hminted⟩ := hy ds' hds'
    refine ⟨hread'.append (PaymentRow.readAs_singleton hread), fun p hp => ?_⟩
    rcases List.mem_append.mp hp with hp | hp
    · exact (hminted p hp).mono rfl (Nat.le_add_right _ _)
    · rw [List.mem_singleton.mp hp]
      exact ⟨_, hfirst, Nat.lt_succ_self _, rfl⟩

/-- **A commit adds the drafted row**, or changes nothing. -/
theorem commit_follows (hy : f.Drafted first y.engine y.transaction)
    (hask : (filing Lawful).Asks f (.log .commit)) :
    File.Follows first y.engine y.commitTransaction.2.engine y.commitTransaction.2.transaction f
        ((filing Lawful).observe f (.log .commit) y.commitTransaction.1) ∧
      ∀ e, File.Follows first y.engine y.commitTransaction.2.engine
        y.commitTransaction.2.transaction f
        ((filing Lawful).observe f (.log .commit) (.error e)) := by
  obtain ⟨hnothing, p, hdrafts, -⟩ := hask
  have hdoubtful : (f.drafts.bind List.head?).elim Filed.nothing Filed.doubtful = .doubtful p := by
    rw [hdrafts]
    rfl
  have hcertain : (f.drafts.bind List.head?).elim Filed.nothing Filed.certain = .certain p := by
    rw [hdrafts]
    rfl
  cases hcommit : y.engine.log.commit y.transaction with
  | error e =>
    simp only [commitTransaction, hcommit]
    have hfollows : ∀ e, File.Follows first y.engine y.engine y.transaction f
        ((filing Lawful).observe f (.log .commit) (.error e)) := fun e =>
      ⟨rfl, le_rfl, File.drafted_of_none rfl, Or.inl ⟨rfl, Or.inr ⟨hnothing, p, hdoubtful⟩⟩,
        Or.inl rfl⟩
    exact ⟨hfollows e, hfollows⟩
  | ok log =>
    simp only [commitTransaction, hcommit]
    obtain ⟨hread, hminted⟩ := hy _ hdrafts
    obtain ⟨row, hrow, hreadRow⟩ := List.map_eq_singleton_iff.mp hread
    have hrows := PaymentLog.rows_of_commit hcommit
    rw [hrow] at hrows
    have hp := hminted p (List.mem_singleton_self p)
    refine ⟨⟨rfl, le_rfl, File.drafted_of_none rfl,
      Or.inr ⟨row, p, hnothing, ?_, rfl, hreadRow, hp, hrows⟩, Or.inl rfl⟩, fun e =>
      ⟨rfl, le_rfl, File.drafted_of_none rfl,
        Or.inr ⟨row, p, hnothing, ?_, rfl, hreadRow, hp, hrows⟩, Or.inl rfl⟩⟩
    · exact congrArg Filed.payment? hcertain
    · exact congrArg Filed.payment? hdoubtful

theorem find_follows (hy : f.Drafted first y.engine y.transaction) {id : PaymentId}
    (hask : (filing Lawful).Asks f (.log (.find id))) :
    File.Follows first y.engine y.engine y.transaction f
      ((filing Lawful).observe f (.log (.find id)) (y.engine.log.find id)) := by
  cases hreply : y.engine.log.find id with
  | error e => exact File.follows_of_log_eq rfl le_rfl rfl hy rfl rfl
  | ok found =>
    refine ⟨rfl, le_rfl, hy, Or.inl ⟨rfl, Or.inl rfl⟩, Or.inr ⟨hask, fun p hp => ?_⟩⟩
    have hp : found = some p := hp
    exact (PaymentLog.find_spec (hp ▸ hreply)).2

end Calls

/-- Other writers act around a call; it is enough to know the call itself, and what an error leaves
that takes the place of the call or of its answer. -/
theorem interrupted_follows (x : Execution) (it : Interruption ε)
    (call : Execution → Except ε α × Execution) (left : Except ε α → File)
    (h : f.Drafted first x.engine x.transaction) (hfirst : first ≤ x.engine.paymentsInserted)
    (called : ∀ y : Execution, f.Drafted first y.engine y.transaction →
      first ≤ y.engine.paymentsInserted →
        File.Follows first y.engine (call y).2.engine (call y).2.transaction f (left (call y).1) ∧
        ∀ e, File.Follows first y.engine (call y).2.engine (call y).2.transaction f (left (.error e)))
    (refused : ∀ (e : ε) (y : Execution), f.Drafted first y.engine y.transaction →
      File.Follows first y.engine y.engine y.transaction f (left (.error e))) :
    File.Follows first x.engine (x.interrupted it call).2.engine
      (x.interrupted it call).2.transaction f (left (x.interrupted it call).1) := by
  have hbefore : f.Drafted first (x.others it.before).engine (x.others it.before).transaction :=
    h.performAll it.before
  have hfirst' : first ≤ (x.others it.before).engine.paymentsInserted :=
    hfirst.trans (x.engine.paymentsInserted_performAll it.before).ge
  obtain ⟨hcalled, hreplaced⟩ := called _ hbefore hfirst'
  exact interrupted_either x it call
    (fun r y => File.Follows first x.engine y.engine y.transaction f (left r))
    hcalled.before (fun e => (hreplaced e).before) (fun e => (refused e _ hbefore).before)
    fun r y hy => hy.after it.after

theorem logCall_follows (h : f.Drafted first x.engine x.transaction)
    (hfirst : first ≤ x.engine.paymentsInserted) (c : LogCall)
    (hask : (filing Lawful).Asks f (.log c)) :
    File.Follows first x.engine (x.logCall i c).2.engine (x.logCall i c).2.transaction f
      ((filing Lawful).observe f (.log c) (x.logCall i c).1) := by
  cases c with
  | begin =>
    exact interrupted_follows x (i.log x.history .begin)
      (fun x => (x.engine.log.begin.map fun _ => (), { x with transaction := {} }))
      (fun r => (filing Lawful).observe f (.log .begin) r) h hfirst
      (fun y _ _ => ⟨begin_follows first y f _, fun e => begin_follows first y f (.error e)⟩)
      fun e y _ => follows_of_none _ rfl rfl rfl
  | insert payment =>
    exact interrupted_follows x (i.log x.history (.insert payment)) (·.insertPayment payment)
      (fun r => (filing Lawful).observe f (.log (.insert payment)) r) h hfirst
      (fun y hy hyfirst => ⟨insertPayment_follows hy hyfirst payment, fun e =>
        File.follows_of_log_eq rfl (Nat.le_add_right _ _) rfl (File.drafted_of_none rfl) rfl rfl⟩)
      fun e y _ => follows_of_none _ rfl rfl rfl
  | commit =>
    obtain ⟨hnothing, p, hdrafts, -⟩ := id hask
    have hdoubtful : (f.drafts.bind List.head?).elim Filed.nothing Filed.doubtful = .doubtful p := by
      rw [hdrafts]
      rfl
    have hcall := interrupted_follows x (i.log x.history .commit) commitTransaction
      (fun r => (filing Lawful).observe f (.log .commit) r) h hfirst
      (fun y hy _ => commit_follows hy hask)
      fun e y _ => ⟨rfl, le_rfl, File.drafted_of_none rfl,
        Or.inl ⟨rfl, Or.inr ⟨hnothing, p, hdoubtful⟩⟩, Or.inl rfl⟩
    refine hcall.forget ?_
    cases (x.interrupted (i.log x.history .commit) commitTransaction).1 <;> rfl
  | rollback =>
    have hcall := interrupted_follows x (i.log x.history .rollback) (fun x => (.ok (), x))
      (fun _ => { f with drafts := none }) h hfirst
      (fun y _ _ => ⟨follows_of_none _ rfl rfl rfl, fun e => follows_of_none _ rfl rfl rfl⟩)
      fun e y _ => follows_of_none _ rfl rfl rfl
    exact hcall.forget rfl
  | find id =>
    exact interrupted_follows x (i.log x.history (.find id)) (fun x => (x.engine.log.find id, x))
      (fun r => (filing Lawful).observe f (.log (.find id)) r) h hfirst
      (fun y hy _ => ⟨find_follows hy hask, fun e =>
        File.follows_of_log_eq rfl le_rfl rfl hy rfl rfl⟩)
      fun e y hy => File.follows_of_log_eq rfl le_rfl rfl hy rfl rfl
  | involving account =>
    exact interrupted_follows x (i.log x.history (.involving account))
      (fun x => (x.engine.log.involving account, x)) (fun _ => f) h hfirst
      (fun y hy _ => ⟨File.follows_of_log_eq rfl le_rfl rfl hy rfl rfl, fun e =>
        File.follows_of_log_eq rfl le_rfl rfl hy rfl rfl⟩)
      fun e y hy => File.follows_of_log_eq rfl le_rfl rfl hy rfl rfl

/-! ## The other parties -/

/-- The log, the open transaction and the names of its rows are left as they are. -/
structure LeavesLog (x y : Execution) : Prop where
  mint : y.engine.mint = x.engine.mint
  inserted : y.engine.paymentsInserted = x.engine.paymentsInserted
  log : y.engine.log = x.engine.log
  transaction : y.transaction = x.transaction

theorem LeavesLog.refl (x : Execution) : x.LeavesLog x := ⟨rfl, rfl, rfl, rfl⟩

/-- The stream and what occurred are no part of it. -/
theorem LeavesLog.congr {y z : Execution} (h : x.LeavesLog y) (engine : z.engine = y.engine)
    (transaction : z.transaction = y.transaction) : x.LeavesLog z :=
  ⟨engine ▸ h.mint, engine ▸ h.inserted, engine ▸ h.log, transaction.trans h.transaction⟩

theorem LeavesLog.others {y : Execution} (h : x.LeavesLog y) (commands : List Ledger.Command) :
    x.LeavesLog (y.others commands) :=
  ⟨(y.engine.mint_performAll commands).trans h.mint,
    (y.engine.paymentsInserted_performAll commands).trans h.inserted,
    (y.engine.log_performAll commands).trans h.log, h.transaction⟩

theorem LeavesLog.follows {y : Execution} (h : x.LeavesLog y)
    (hx : f.Drafted first x.engine x.transaction) {f' : File} (drafts : f'.drafts = f.drafts)
    (filed : f'.filed = f.filed) (found : f'.found = f.found) :
    File.Follows first x.engine y.engine y.transaction f f' :=
  File.follows_of_log_eq h.mint h.inserted.ge h.log
    (h.transaction ▸ hx.mono drafts h.mint h.inserted.ge) filed found

theorem interrupted_leavesLog (x : Execution) (it : Interruption ε)
    (call : Execution → Except ε α × Execution) (called : ∀ y, x.LeavesLog y → x.LeavesLog (call y).2) :
    x.LeavesLog (x.interrupted it call).2 := by
  have hbefore := (LeavesLog.refl x).others it.before
  exact interrupted_rule x it call (fun _ y => x.LeavesLog y) (called _ hbefore) (fun _ => hbefore)
    (fun _ _ _ _ h => h) fun _ _ h => h.others it.after

theorem ledgerCall_leavesLog (i : Interference) (x : Execution) (c : LedgerCall) :
    x.LeavesLog (x.ledgerCall i c).2 := by
  cases c with
  | account id =>
    exact (interrupted_leavesLog x (i.ledger x.history (.account id))
      (fun x => (x.engine.ledger.account id, x)) fun y hy => hy).congr rfl rfl
  | updateBalance id u =>
    exact (interrupted_leavesLog x (i.ledger x.history (.updateBalance id u))
      (fun x => ((x.engine.ledger.updateBalance id u).1,
        { x with engine := { x.engine with ledger := (x.engine.ledger.updateBalance id u).2 } }))
      fun y hy => ⟨hy.mint, hy.inserted, hy.log, hy.transaction⟩).congr rfl rfl
  | openStream =>
    exact (interrupted_leavesLog x (i.ledger x.history .openStream)
      (fun x => (.ok (), { x with peer := {} })) fun y hy => hy.congr rfl rfl).congr rfl rfl

theorem streamCall_leavesLog (i : Interference) (x : Execution) (c : StreamCall) :
    x.LeavesLog (x.streamCall i c).2 := by
  cases c with
  | send request =>
    simp only [streamCall]
    split
    · unfold serveRequest
      simp only
      split
      · exact ((LeavesLog.refl x).others (i.append x.history request).before).congr rfl rfl
      · have hcall := interrupted_leavesLog (x.note (.append request))
          (i.append x.history request).toInterruption
          (fun x => ((Server.handle x.engine.ledger request).1,
            { x with engine := { x.engine with ledger := (Server.handle x.engine.ledger request).2 } }))
          fun y hy => ⟨hy.mint, hy.inserted, hy.log, hy.transaction⟩
        exact ⟨hcall.mint, hcall.inserted, hcall.log, hcall.transaction⟩
    · exact .refl x
  | receive =>
    simp only [streamCall]
    split <;> exact ⟨rfl, rfl, rfl, rfl⟩
  | hangUp =>
    show x.LeavesLog (x.endStream i)
    unfold endStream
    split
    · exact (((LeavesLog.refl x).others (i.streamEnd x.history).before).others
        (i.streamEnd x.history).after).congr rfl rfl
    · exact .refl x
  | drain => exact ⟨rfl, rfl, rfl, rfl⟩

theorem publish_leavesLog (x : Execution) (event : Event) :
    x.LeavesLog { x with engine := x.engine.publish event } := by
  unfold Engine.publish
  split <;> exact ⟨rfl, rfl, rfl, rfl⟩

/-- **A call adds to the log what it files.** -/
theorem answer_follows (h : f.Drafted first x.engine x.transaction)
    (hfirst : first ≤ x.engine.paymentsInserted) (c : LifecycleCall)
    (hask : (filing Lawful).Asks f c) :
    File.Follows first x.engine (answer i c x).2.engine (answer i c x).2.transaction f
      ((filing Lawful).observe f c (answer i c x).1) := by
  cases c with
  | log c => exact logCall_follows h hfirst c hask
  | stream c => exact (streamCall_leavesLog i x c).follows h rfl rfl rfl
  | publish event => exact (publish_leavesLog x event).follows h rfl rfl rfl
  | ledger c =>
    have hleaves := ledgerCall_leavesLog i x c
    cases c with
    | account id => exact hleaves.follows h rfl rfl rfl
    | updateBalance id u => exact hleaves.follows h rfl rfl rfl
    | openStream =>
      show File.Follows first x.engine _ _ f
        ((filing Lawful).observe f (.ledger .openStream) (x.ledgerCall i .openStream).1)
      cases (x.ledgerCall i .openStream).1 with
      | error e => exact hleaves.follows h rfl rfl rfl
      | ok _ => exact hleaves.follows h rfl rfl rfl

end Execution

end CardHolds

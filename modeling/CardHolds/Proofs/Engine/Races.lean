import CardHolds.Proofs.Engine.History
import CardHolds.Proofs.Lifecycle.Filing

/-!
# Lost races

An attempt loses a race if it came to a decision and another writer was faster on the account of one
of its moves, and everything that it had done is undone again (`Flow.Task.LosesRace`).  It loses the
opening if the same happens when the statement stream is to be opened (`Flow.Task.LosesOpening`).

These are all the ways in which an attempt is lost (`Flow.Task.lost_cases`).  A lost race leaves
everything but the ledger as it was, and on the ledger all that it changed is changed back
(`Flow.Task.LosesRace.leavesRest`, `Flow.Task.LosesRace.accrued_ownChange`).
-/

namespace CardHolds

open BalanceMove (effects)
open Execution (answer ownChange ownEntries)
open Program

namespace Flow

/-- What the attempts of a call are about: two accounts, and the rule by which it decides. -/
structure Task where
  customer : AccountId
  merchant : AccountId
  decide : Account → Account → Except MoveError Decision

/-- The transaction is rolled back, and every move that was carried out is undone. -/
def Undone (i : Interference) (saga : Saga) (z w : Execution) : Prop :=
  saga.compensate.onLedger.run (answer i) (Ask.rollback.run (answer i) z).2 = ([], w)

namespace Task

/-- One attempt. -/
def attempt (t : Task) : Program lifecycleCalls Attempt :=
  Flow.attempt t.customer t.merchant t.decide

/-- The call that makes these attempts. -/
def program (t : Task) (retries : Nat) :
    Program lifecycleCalls (Except FlowError PaymentOutcome) := do
  match ← Flow.run retries t.customer t.merchant t.decide with
  | .ok payment => return .ok (.ofPayment payment)
  | .error e => return .error e

/-- The attempt reads both accounts, comes to a decision and starts a transaction. -/
def Begins (t : Task) (i : Interference) (x : Execution) (d : Decision) (y : Execution) : Prop :=
  ∃ c m x₁ x₂, (Ask.account t.customer).onLedger.run (answer i) x = (.ok c, x₁) ∧
    (Ask.account t.merchant).onLedger.run (answer i) x₁ = (.ok m, x₂) ∧
    t.decide c m = .ok d ∧ Ask.begin.run (answer i) x₂ = (.ok (), y)

/-- **An attempt loses a race**: the update of one of its moves meets another version than the one
that was read, and what was done before is undone. -/
def LosesRace (t : Task) (i : Interference) (x w : Execution) : Prop :=
  ∃ d y e saga z, t.Begins i x d y ∧
    (({} : Saga).applyAll d.moves).onLedger.run (answer i) y = ((.error e, saga), z) ∧
    e.isVersionConflict = true ∧ Undone i saga z w

/-- An attempt loses the opening: all moves are carried out and the row is inserted, but the statement
stream is refused for a version, and all of it is undone. -/
def LosesOpening (t : Task) (i : Interference) (x w : Execution) : Prop :=
  ∃ d y saga z p z' e z'', t.Begins i x d y ∧
    (({} : Saga).applyAll d.moves).onLedger.run (answer i) y = ((.ok (), saga), z) ∧
    (Ask.insert d.row).run (answer i) z = (.ok p, z') ∧
    Ask.openStream.onLedger.run (answer i) z' = (.error e, z'') ∧
    e.isVersionConflict = true ∧ Undone i saga z'' w

/-- The first attempts all lose races. -/
def LosesRaces (t : Task) (i : Interference) : Nat → Execution → Execution → Prop
  | 0, x, w => w = x
  | k + 1, x, w => ∃ y, t.LosesRace i x y ∧ t.LosesRaces i k y w

end Task

/-! ## How an attempt is lost -/

theorem isBalanceConflict_ofLedger (e : LedgerError) :
    (FlowError.ofLedger e).isBalanceConflict = e.isVersionConflict := by
  cases e <;> rfl

section Runs
variable {i : Interference} {saga : Saga} {error e : FlowError} {x y z w : Execution} {d : Decision}

/-- A compensation that leaves nothing passes the error on. -/
theorem run_compensate_of_nil (h : saga.compensate.onLedger.run (answer i) x = ([], w)) :
    (compensate saga error).run (answer i) x = (error, w) := by
  unfold compensate
  rw [bind_eq, run_bind, h]
  rfl

/-- After a compensation an attempt counts as lost only if nothing is left. -/
theorem compensate_conflict (h : (compensate saga error).run (answer i) x = (e, w))
    (hconflict : e.isBalanceConflict = true) :
    e = error ∧ saga.compensate.onLedger.run (answer i) x = ([], w) := by
  obtain ⟨failures, v, hfailures, h⟩ := run_of_bind h
  cases failures with
  | nil =>
    cases h
    exact ⟨rfl, hfailures⟩
  | cons failure rest =>
    -- what is left is reported, as an error of its own
    obtain ⟨-, v', -, h⟩ := run_of_bind h
    cases h
    cases hconflict

/-- A transaction that is ended with a conflict was to be rolled back. -/
theorem finish_conflict {r : Except FlowError Payment}
    (h : (finish r).run (answer i) x = (.error e, y)) (hconflict : e.isBalanceConflict = true) :
    r = .error e ∧ (Ask.rollback.run (answer i) x).2 = y := by
  cases r with
  | error e' =>
    cases h
    exact ⟨rfl, rfl⟩
  | ok payment =>
    obtain ⟨reply, v, -, h⟩ := run_of_bind h
    cases reply with
    | ok _ => cases h
    | error e' =>
      cases h
      rw [not_isBalanceConflict_ofLog] at hconflict
      cases hconflict

/-- Of all steps of recording, only the opening of the stream may end in a conflict. -/
theorem record_conflict (h : (record d).run (answer i) x = (.error e, y))
    (hconflict : e.isBalanceConflict = true) :
    ∃ p z e', (Ask.insert d.row).run (answer i) x = (.ok p, z) ∧
      Ask.openStream.onLedger.run (answer i) z = (.error e', y) ∧ e'.isVersionConflict = true := by
  obtain ⟨reply, z, hinsert, h⟩ := run_of_bind h
  cases reply with
  | error e' =>
    cases h
    rw [not_isBalanceConflict_ofLog] at hconflict
    cases hconflict
  | ok p =>
    obtain ⟨reply, z', hopen, h⟩ := run_of_bind h
    cases reply with
    | error e' =>
      cases h
      rw [isBalanceConflict_ofLedger] at hconflict
      exact ⟨p, z, e', hinsert, hopen, hconflict⟩
    | ok _ =>
      obtain ⟨reply, z'', -, h⟩ := run_of_bind (p := (propagate _).onStream) h
      cases reply with
      | ok acks => cases h
      | error e' =>
        cases h
        cases hconflict

/-- A decision that was carried out up to a conflict met it at a move or at the opening. -/
theorem applyAndRecord_conflict (h : (applyAndRecord d).run (answer i) x = ((.error e, saga), y))
    (hconflict : e.isBalanceConflict = true) :
    (∃ e', (({} : Saga).applyAll d.moves).onLedger.run (answer i) x = ((.error e', saga), y) ∧
        e'.isVersionConflict = true) ∨
      ∃ z, (({} : Saga).applyAll d.moves).onLedger.run (answer i) x = ((.ok (), saga), z) ∧
        (record d).run (answer i) z = (.error e, y) := by
  obtain ⟨⟨r, saga'⟩, z, happly, h⟩ := run_of_bind h
  cases r with
  | error e' =>
    cases h
    rw [isBalanceConflict_ofLedger] at hconflict
    exact Or.inl ⟨e', happly, hconflict⟩
  | ok _ =>
    obtain ⟨r', z', hrecord, h⟩ := run_of_bind h
    cases h
    exact Or.inr ⟨z, happly, hrecord⟩

/-- A decision that ends in a conflict was rolled back and undone. -/
theorem execute_conflict (h : (execute d).run (answer i) x = (.error e, w))
    (hconflict : e.isBalanceConflict = true) :
    ∃ y saga z, Ask.begin.run (answer i) x = (.ok (), y) ∧
      (applyAndRecord d).run (answer i) y = ((.error e, saga), z) ∧ Undone i saga z w := by
  obtain ⟨reply, y, hbegin, h⟩ := run_of_bind h
  cases reply with
  | error e' =>
    cases h
    rw [not_isBalanceConflict_ofLog] at hconflict
    cases hconflict
  | ok _ =>
    obtain ⟨⟨r, saga⟩, z, happly, h⟩ := run_of_bind h
    obtain ⟨r', v, hfinish, h⟩ := run_of_bind h
    cases r' with
    | ok p => cases h
    | error e' =>
      obtain ⟨e'', v', hcompensate, h⟩ := run_of_bind h
      cases h
      obtain ⟨rfl, hundone⟩ := compensate_conflict hcompensate hconflict
      obtain ⟨rfl, rfl⟩ := finish_conflict hfinish hconflict
      exact ⟨y, saga, z, hbegin, happly, hundone⟩

end Runs

namespace Task
variable {t : Task} {i : Interference} {x y w : Execution} {d : Decision}

/-- **An attempt that is lost has lost a race or the opening.** -/
theorem lost_cases (h : t.attempt.run (answer i) x = (.lost, w)) :
    t.LosesRace i x w ∨ t.LosesOpening i x w := by
  obtain ⟨reply, x₁, hcustomer, h⟩ := run_of_bind h
  cases reply with
  | error e => cases h
  | ok c =>
    obtain ⟨reply, x₂, hmerchant, h⟩ := run_of_bind h
    cases reply with
    | error e => cases h
    | ok m =>
      cases hd : t.decide c m with
      | error e =>
        simp only [hd] at h
        cases h
      | ok d =>
        simp only [hd] at h
        obtain ⟨r, v, hexecute, h⟩ := run_of_bind h
        cases r with
        | ok p => cases h
        | error e =>
          by_cases hconflict : e.isBalanceConflict = true
          · simp only [hconflict, if_true] at h
            cases h
            obtain ⟨y, saga, z, hbegin, happly, hundone⟩ := execute_conflict hexecute hconflict
            have hbegins : t.Begins i x d y := ⟨c, m, x₁, x₂, hcustomer, hmerchant, hd, hbegin⟩
            rcases applyAndRecord_conflict happly hconflict with ⟨e', hmove, he'⟩ | ⟨z', hmoves, hrecord⟩
            · exact Or.inl ⟨d, y, e', saga, z, hbegins, hmove, he', hundone⟩
            · obtain ⟨p, v', e', hinsert, hopen, he'⟩ := record_conflict hrecord hconflict
              exact Or.inr ⟨d, y, saga, z', p, v', e', z, hbegins, hmoves, hinsert, hopen, he', hundone⟩
          · simp only [hconflict] at h
            cases h

end Task

end Flow

/-! ## What a lost race leaves -/

/-- Other writers change nothing but the ledger. -/
theorem Engine.performAll_eq (e : Engine) (commands : List Ledger.Command) :
    e.performAll commands =
      { e with
        ledger := (e.performAll commands).ledger
        accountsOpened := (e.performAll commands).accountsOpened } := by
  induction commands generalizing e with
  | nil => rfl
  | cons command rest ih => exact ih (e.perform command).2

namespace Execution
variable {i : Interference} {x : Execution} {α : Type}

theorem accrued_onLedger_eq_zero {M : Type} [AddMonoid M] {worth : LifecycleCall → Execution → M}
    (h : ∀ c y, worth (.ledger c) y = 0) (p : Program ledgerCalls α) :
    p.onLedger.accrued (answer i) worth x = 0 := by
  induction p generalizing x with
  | done a => rfl
  | ask c next ih => exact (congrArg₂ (· + ·) (h c x) (ih _)).trans (zero_add 0)

/-- A program that calls the ledger alone changes the accounts by what its book says it moved. -/
theorem onLedger_accrued {p : Program ledgerCalls α} {l : LedgerBook} {g : LogBook}
    {post : α → LedgerBook → Prop} (h : p.Ensures ledgerBookkeeping l post)
    (hx : Agrees i x.engine x.transaction ⟨l, g⟩) :
    ∃ l', post (p.onLedger.run (answer i) x).1 l' ∧
      Agrees i (p.onLedger.run (answer i) x).2.engine (p.onLedger.run (answer i) x).2.transaction
        ⟨l', g⟩ ∧
      l'.moved = l.moved + p.onLedger.accrued (answer i) (ownChange i) x := by
  unfold Program.onLedger
  rw [run_embed, accrued_embed]
  exact h.run_accrued (fun c x => answer i (.ledger c) x) (fun c => ownChange i (.ledger c))
    (fun x l => Agrees i x.engine x.transaction ⟨l, g⟩) LedgerBook.moved
    (fun c x l hx hask =>
      have hcall := ledgerCall_spec hx c hask
      ⟨hcall.replies, hcall.agrees, moved_observe hx (.ledger c) hask⟩) hx

/-- Only the ledger, and what occurred, may be another. -/
structure LeavesRest (x y : Execution) : Prop where
  engine : y.engine =
    { x.engine with ledger := y.engine.ledger, accountsOpened := y.engine.accountsOpened }
  transaction : y.transaction = x.transaction
  peer : y.peer = x.peer

theorem LeavesRest.refl (x : Execution) : x.LeavesRest x := ⟨rfl, rfl, rfl⟩

theorem LeavesRest.trans {y z : Execution} (h : x.LeavesRest y) (h' : y.LeavesRest z) :
    x.LeavesRest z :=
  ⟨h'.engine.trans (by rw [h.engine]), h'.transaction.trans h.transaction, h'.peer.trans h.peer⟩

theorem LeavesRest.others {y : Execution} (h : x.LeavesRest y) (commands : List Ledger.Command) :
    x.LeavesRest (y.others commands) :=
  h.trans ⟨y.engine.performAll_eq commands, rfl, rfl⟩

theorem interrupted_leavesRest {ε : Type} (x : Execution) (it : Interruption ε)
    (call : Execution → Except ε α × Execution) (called : ∀ y, x.LeavesRest y → x.LeavesRest (call y).2) :
    x.LeavesRest (x.interrupted it call).2 := by
  have hbefore := (LeavesRest.refl x).others it.before
  exact interrupted_rule x it call (fun _ y => x.LeavesRest y) (called _ hbefore) (fun _ => hbefore)
    (fun _ _ _ _ h => h) fun _ _ h => h.others it.after

/-- Reading and updating accounts concerns the ledger alone. -/
theorem onLedger_leavesRest {p : Program ledgerCalls α} (h : p.Quiet) (x : Execution) :
    x.LeavesRest (p.onLedger.run (answer i) x).2 := by
  induction p generalizing x with
  | done a => exact .refl x
  | ask c next ih =>
    refine LeavesRest.trans ?_ (ih _ (h.2 _) _)
    cases c with
    | account id =>
      have hcall := interrupted_leavesRest x (i.ledger x.history (.account id))
        (fun x => (x.engine.ledger.account id, x)) fun y hy => hy
      exact ⟨hcall.engine, hcall.transaction, hcall.peer⟩
    | updateBalance id u =>
      have hcall := interrupted_leavesRest x (i.ledger x.history (.updateBalance id u))
        (fun x => ((x.engine.ledger.updateBalance id u).1,
          { x with engine := { x.engine with ledger := (x.engine.ledger.updateBalance id u).2 } }))
        fun y hy => hy.trans ⟨rfl, rfl, rfl⟩
      exact ⟨hcall.engine, hcall.transaction, hcall.peer⟩
    | openStream => exact absurd rfl h.1

/-- A transaction that is started while none is open. -/
theorem begin_leavesRest (hx : x.transaction = {}) :
    x.LeavesRest (Ask.begin.run (answer i) x).2 := by
  have hcall := interrupted_leavesRest x (i.log x.history .begin)
    (fun x => (x.engine.log.begin.map fun _ => (), { x with transaction := {} }))
    fun y hy => ⟨hy.engine, hx.symm, hy.peer⟩
  exact ⟨hcall.engine, hcall.transaction, hcall.peer⟩

theorem rollback_leavesRest (hx : x.transaction = {}) :
    x.LeavesRest (Ask.rollback.run (answer i) x).2 := by
  have hcall := interrupted_leavesRest x (i.log x.history .rollback) (fun x => (.ok (), x))
    fun y hy => hy
  exact ⟨hcall.engine, hx.symm, hcall.peer⟩

theorem find_leavesRest (id : PaymentId) (x : Execution) :
    x.LeavesRest ((Ask.find id).run (answer i) x).2 := by
  have hcall := interrupted_leavesRest x (i.log x.history (.find id))
    (fun x => (x.engine.log.find id, x)) fun y hy => hy
  exact ⟨hcall.engine, hcall.transaction, hcall.peer⟩

end Execution

namespace Flow.Task
variable {t : Task} {i : Interference} {x y w : Execution} {d : Decision}

section Race
variable {c m : Account} {x₁ x₂ z : Execution} {e : LedgerError} {saga : Saga} {M : Type} [AddMonoid M]
  {worth : LifecycleCall → Execution → M}

/-- A decision whose moves were refused and undone, and what that is worth where the log does not
count. -/
theorem execute_of_race (hbegin : Ask.begin.run (answer i) x = (.ok (), y))
    (hmove : (({} : Saga).applyAll d.moves).onLedger.run (answer i) y = ((.error e, saga), z))
    (hundone : Undone i saga z w) (hlog : ∀ c v, worth (.log c) v = 0) :
    (execute d).run (answer i) x = (.error (.ofLedger e), w) ∧
      (execute d).accrued (answer i) worth x =
        (({} : Saga).applyAll d.moves).onLedger.accrued (answer i) worth y +
          saga.compensate.onLedger.accrued (answer i) worth (Ask.rollback.run (answer i) z).2 := by
  have hbegin' : Ask.begin.accrued (answer i) worth x = 0 := (add_zero _).trans (hlog .begin x)
  have happly : (applyAndRecord d).run (answer i) y = ((.error (.ofLedger e), saga), z) := by
    unfold applyAndRecord
    rw [run_bind_of hmove]
    rfl
  have happly' : (applyAndRecord d).accrued (answer i) worth y =
      (({} : Saga).applyAll d.moves).onLedger.accrued (answer i) worth y := by
    unfold applyAndRecord
    rw [accrued_bind_of hmove]
    exact add_zero _
  have hfinish : (finish (.error (.ofLedger e))).run (answer i) z =
      (.error (.ofLedger e), (Ask.rollback.run (answer i) z).2) := rfl
  have hfinish' : (finish (.error (.ofLedger e))).accrued (answer i) worth z = 0 :=
    (add_zero _).trans (hlog .rollback z)
  have hcompensate : (compensate saga (.ofLedger e)).run (answer i)
      (Ask.rollback.run (answer i) z).2 = (.ofLedger e, w) := run_compensate_of_nil hundone
  have hcompensate' : (compensate saga (.ofLedger e)).accrued (answer i) worth
      (Ask.rollback.run (answer i) z).2 =
        saga.compensate.onLedger.accrued (answer i) worth (Ask.rollback.run (answer i) z).2 := by
    unfold compensate
    rw [accrued_bind_of hundone]
    exact add_zero _
  unfold execute
  rw [run_bind_of hbegin, accrued_bind_of hbegin, hbegin', zero_add]
  simp only
  rw [run_bind_of happly, accrued_bind_of happly, happly']
  simp only
  rw [run_bind_of hfinish, accrued_bind_of hfinish, hfinish', zero_add]
  simp only
  rw [run_bind_of hcompensate, accrued_bind_of hcompensate, hcompensate']
  exact ⟨rfl, congrArg _ (add_zero _)⟩

/-- A lost race, and what it is worth where only updates count. -/
theorem attempt_of_race (worth : LifecycleCall → Execution → M)
    (hcustomer : (Ask.account t.customer).onLedger.run (answer i) x = (.ok c, x₁))
    (hmerchant : (Ask.account t.merchant).onLedger.run (answer i) x₁ = (.ok m, x₂))
    (hd : t.decide c m = .ok d) (hbegin : Ask.begin.run (answer i) x₂ = (.ok (), y))
    (hmove : (({} : Saga).applyAll d.moves).onLedger.run (answer i) y = ((.error e, saga), z))
    (hconflict : e.isVersionConflict = true) (hundone : Undone i saga z w)
    (hread : ∀ id v, worth (.ledger (.account id)) v = 0) (hlog : ∀ c v, worth (.log c) v = 0) :
    t.attempt.run (answer i) x = (.lost, w) ∧
      t.attempt.accrued (answer i) worth x =
        (({} : Saga).applyAll d.moves).onLedger.accrued (answer i) worth y +
          saga.compensate.onLedger.accrued (answer i) worth (Ask.rollback.run (answer i) z).2 := by
  obtain ⟨hexecute, hexecute'⟩ := execute_of_race hbegin hmove hundone hlog
  have hreads : ∀ id v, (Ask.account id).onLedger.accrued (answer i) worth v = 0 := fun id v =>
    (add_zero _).trans (hread id v)
  unfold attempt Flow.attempt
  rw [run_bind_of hcustomer, accrued_bind_of hcustomer, hreads, zero_add]
  simp only
  rw [run_bind_of hmerchant, accrued_bind_of hmerchant, hreads, zero_add]
  simp only [hd]
  rw [run_bind_of hexecute, accrued_bind_of hexecute, hexecute']
  simp only [isBalanceConflict_ofLedger, hconflict, if_true]
  exact ⟨rfl, add_zero _⟩

theorem LosesRace.run_attempt (h : t.LosesRace i x w) : t.attempt.run (answer i) x = (.lost, w) := by
  obtain ⟨d, y, e, saga, z, ⟨c, m, x₁, x₂, hcustomer, hmerchant, hd, hbegin⟩, hmove, hconflict,
    hundone⟩ := h
  exact (attempt_of_race (fun _ _ => (0 : ℕ)) hcustomer hmerchant hd hbegin hmove hconflict
    hundone (fun _ _ => rfl) fun _ _ => rfl).1

/-- **A lost race concerns the ledger alone**: nothing is recorded and nobody is told. -/
theorem LosesRace.leavesRest (h : t.LosesRace i x w) (hx : x.transaction = {}) : x.LeavesRest w := by
  obtain ⟨d, y, e, saga, z, ⟨c, m, x₁, x₂, hcustomer, hmerchant, hd, hbegin⟩, hmove, hconflict,
    hundone⟩ := h
  have hquiet : ∀ id, (Ask.account id).Quiet := fun id => ⟨LedgerCall.noConfusion, fun _ => trivial⟩
  have hread := Execution.onLedger_leavesRest (i := i) (hquiet t.customer) x
  rw [hcustomer] at hread
  have hread' := Execution.onLedger_leavesRest (i := i) (hquiet t.merchant) x₁
  rw [hmerchant] at hread'
  have hreads := hread.trans hread'
  have hbegun := Execution.begin_leavesRest (i := i) (hreads.transaction.trans hx)
  rw [hbegin] at hbegun
  have hmoved := Execution.onLedger_leavesRest (i := i) (Saga.quiet_applyAll {} d.moves) y
  rw [hmove] at hmoved
  have hfar := (hreads.trans hbegun).trans hmoved
  have hrolled := Execution.rollback_leavesRest (i := i) (hfar.transaction.trans hx)
  have hcompensated := Execution.onLedger_leavesRest (i := i) (Saga.quiet_undoAll saga.applied.reverse)
    (Ask.rollback.run (answer i) z).2
  rw [show (Saga.undoAll saga.applied.reverse).onLedger.run (answer i)
    (Ask.rollback.run (answer i) z).2 = ([], w) from hundone] at hcompensated
  exact (hfar.trans hrolled).trans hcompensated

/-- A lost race appends nothing to any statement. -/
theorem LosesRace.accrued_ownEntries (h : t.LosesRace i x w) :
    t.attempt.accrued (answer i) (ownEntries i) x = 0 := by
  obtain ⟨d, y, e, saga, z, ⟨c, m, x₁, x₂, hcustomer, hmerchant, hd, hbegin⟩, hmove, hconflict,
    hundone⟩ := h
  rw [(attempt_of_race _ hcustomer hmerchant hd hbegin hmove hconflict hundone (fun _ _ => rfl)
    fun _ _ => rfl).2, Execution.accrued_onLedger_eq_zero fun _ _ => rfl,
    Execution.accrued_onLedger_eq_zero fun _ _ => rfl, zero_add]

/-- **What a lost race changed on the accounts it has changed back.** -/
theorem LosesRace.accrued_ownChange (h : t.LosesRace i x w)
    (sound : Sound t.customer t.merchant t.decide) (names : i.Alone ∨ x.engine.NamesFresh) :
    t.attempt.accrued (answer i) (ownChange i) x = 0 ∧ (i.Alone ∨ w.engine.NamesFresh) := by
  obtain ⟨d, y, e, saga, z, ⟨c, m, x₁, x₂, hcustomer, hmerchant, hd, hbegin⟩, hmove, hconflict,
    hundone⟩ := h
  rw [(attempt_of_race _ hcustomer hmerchant hd hbegin hmove hconflict hundone (fun _ _ => rfl)
    fun _ _ => rfl).2]
  -- both accounts are read
  have hread := Execution.ledgerCall_spec (.start names) (.account t.customer) trivial
  rw [show x.ledgerCall i (.account t.customer) = (.ok c, x₁) from hcustomer] at hread
  have hread' := Execution.ledgerCall_spec hread.agrees (.account t.merchant) trivial
  rw [show x₁.ledgerCall i (.account t.merchant) = (.ok m, x₂) from hmerchant] at hread'
  obtain ⟨hc, -⟩ := hread.replies
  obtain ⟨hm, hadmits⟩ := hread'.replies
  have hbacked := (sound c m d hc hm hd).backs hadmits
  have hbegun := Execution.logCall_spec hread'.agrees .begin (fun h => by cases h) trivial
  rw [show x₂.logCall i .begin = (.ok (), y) from hbegin] at hbegun
  -- the moves are carried out up to the one that lost
  obtain ⟨l, ⟨done, -, happlied, hmoved, -⟩, hagrees, haccrued⟩ :=
    Execution.onLedger_accrued (Saga.applyAll_spec {} d.moves _ hbacked) hbegun.agrees
  rw [hmove] at happlied hagrees
  have hrolled := Execution.logCall_spec hagrees .rollback (fun h => by cases h) trivial
  -- and all of them are undone
  obtain ⟨l', ⟨stranded, -, hfailures, hmoved'⟩, hagrees', haccrued'⟩ :=
    Execution.onLedger_accrued (Saga.undoAll_spec saga.applied.reverse _) hrolled.agrees
  have hundone' : (Saga.undoAll saga.applied.reverse).onLedger.run (answer i)
      (z.logCall i .rollback).2 = ([], w) := hundone
  rw [hundone'] at hfailures hagrees'
  cases hfailures
  refine ⟨?_, hagrees'.names⟩
  have happlied : saga.applied = done := happlied
  have hcarried : (({} : Saga).applyAll d.moves).onLedger.accrued (answer i) (ownChange i) y =
      effects saga.applied := by
    rw [happlied]
    exact add_left_cancel (haccrued.symm.trans hmoved)
  have htaken : (Saga.undoAll saga.applied.reverse).onLedger.accrued (answer i) (ownChange i)
      (z.logCall i .rollback).2 = -effects saga.applied := by
    rw [BalanceMove.effects_reverse, BalanceMove.effects_nil, add_zero, sub_eq_add_neg] at hmoved'
    exact add_left_cancel (haccrued'.symm.trans hmoved')
  show _ + (Saga.undoAll saga.applied.reverse).onLedger.accrued (answer i) (ownChange i)
      (z.logCall i .rollback).2 = 0
  rw [hcarried, htaken, add_neg_cancel]

end Race

/-- What an attempt has lost without the opening is a race. -/
theorem losesRace_of_lost (hopening : ∀ w, ¬ t.LosesOpening i x w)
    (h : (t.attempt.run (answer i) x).1 = .lost) :
    t.LosesRace i x (t.attempt.run (answer i) x).2 :=
  (lost_cases (Prod.ext h rfl)).resolve_right (hopening _)

/-- Where no stream is refused the opening is not lost. -/
theorem not_losesOpening (h : ∀ past, (i.ledger past .openStream).instead = none ∧
    (i.ledger past .openStream).replacing = none) (t : Task) (x w : Execution) :
    ¬ t.LosesOpening i x w := by
  rintro ⟨d, y, saga, z, p, z', e, z'', -, -, -, hopen, -⟩
  obtain ⟨hinstead, hreplacing⟩ := h z'.history
  have hreply : (z'.ledgerCall i .openStream).1 = .error e := congrArg Prod.fst hopen
  simp only [Execution.ledgerCall, Execution.interrupted, hinstead, hreplacing] at hreply
  cases hreply

end Flow.Task

end CardHolds

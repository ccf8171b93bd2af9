import CardHolds.Lifecycle.Saga
import CardHolds.Proofs.Program.Contract
import Mathlib.Data.List.Basic

/-!
# What a compensation asks of the ledger

The calls of a compensation, with the replies that it is given to them, fall into rounds, one for each
move (`UndoRound`).  A round falls into tries, each of which reads the account, and may then send one
update (`UndoTry`).

The tries of one round are found by induction on the attempts that are left (`BalanceMove.Tried`,
`BalanceMove.undo_tried`), the rounds by induction on the moves (`Saga.undoAll_rounds`).  Both are
statements about every sequence of replies.

Main statement (`Saga.compensate_rounds`): what a round keeps to, whatever the ledger replies, and
which moves are reported.
-/

namespace CardHolds

open Program

/-! ## The calls of a run -/

/-- A call with the reply to it. -/
structure Answered (I : Interface) where
  call : I.Call
  reply : I.Reply call

/-- The record of all calls, which binds nobody. -/
@[reducible] def recording (I : Interface) : Contract I where
  State := List (Answered I)
  Asks _ _ := True
  Replies _ _ _ := True
  observe calls c reply := calls ++ [⟨c, reply⟩]

namespace Program
variable {I : Interface} {α σ : Type}

/-- The calls of a run, with the replies to them. -/
def calls (answer : (c : I.Call) → σ → I.Reply c × σ) : Program I α → σ → List (Answered I)
  | done _, _ => []
  | ask c next, s => ⟨c, (answer c s).1⟩ :: (next (answer c s).1).calls answer (answer c s).2

/-- What a program keeps to whatever it is told, it keeps to in a run. -/
theorem Ensures.run_calls {p : Program I α} {before : List (Answered I)}
    {post : α → List (Answered I) → Prop} (h : p.Ensures (recording I) before post)
    (answer : (c : I.Call) → σ → I.Reply c × σ) (s : σ) :
    post (p.run answer s).1 (before ++ p.calls answer s) := by
  induction p generalizing before s with
  | done a =>
    rw [calls, List.append_nil]
    exact h
  | ask c next ih =>
    rw [calls, List.append_cons]
    exact ih _ (h.2 (answer c s).1 trivial) (answer c s).2

end Program

/-! ## Tries and rounds -/

/-- One try to undo a move: what the account was read as, and the update that was sent with the answer
to it. -/
structure UndoTry where
  reading : Except LedgerError Account
  update : Option (BalanceUpdate × Except LedgerError Account) := none

namespace UndoTry

/-- The calls of a try on an account. -/
def calls (id : AccountId) (t : UndoTry) : List (Answered ledgerCalls) :=
  ⟨.account id, t.reading⟩ ::
    (t.update.map fun sent => ⟨.updateBalance id sent.1, sent.2⟩).toList

/-- The update takes the move back from the account as it was read. -/
def Computes (t : UndoTry) (m : BalanceMove) : Prop :=
  ∀ sent, t.update = some sent → ∃ a, t.reading = .ok a ∧ m.undoOn a = .ok sent.1

/-- The update was lost against another writer. -/
def Lost (t : UndoTry) : Prop :=
  ∃ u e, t.update = some (u, .error e) ∧ e.isVersionConflict = true

end UndoTry

/-- The undo of one move: its tries, and what it comes to. -/
structure UndoRound where
  move : BalanceMove
  tries : List UndoTry
  result : Except UndoFault Account

namespace UndoRound

/-- The calls of a round. -/
def calls (r : UndoRound) : List (Answered ledgerCalls) :=
  r.tries.flatMap (UndoTry.calls r.move.account)

/-- The updates of a round, with the answers to them. -/
def updates (r : UndoRound) : List (BalanceUpdate × Except LedgerError Account) :=
  r.tries.filterMap UndoTry.update

/-- Some update has succeeded. -/
def undone (r : UndoRound) : Bool := r.updates.any fun sent => sent.2.isOk

end UndoRound

/-- How a try ends an undo. -/
inductive BalanceMove.Ends (m : BalanceMove) : UndoTry → Except UndoFault Account → Prop
  /-- The account could not be read. -/
  | unreadable {e : LedgerError} : Ends m ⟨.error e, none⟩ (.error (.ledger e))
  /-- The move cannot be taken back from what the account holds now. -/
  | irreversible {a : Account} {e : MoveError} (impossible : m.undoOn a = .error e) :
      Ends m ⟨.ok a, none⟩ (.error (.move e))
  /-- The ledger refused the update. -/
  | refused {a : Account} {u : BalanceUpdate} {e : LedgerError} (computed : m.undoOn a = .ok u)
      (other : e.isVersionConflict = false) :
      Ends m ⟨.ok a, some (u, .error e)⟩ (.error (.ledger e))
  | undone {a a' : Account} {u : BalanceUpdate} (computed : m.undoOn a = .ok u) :
      Ends m ⟨.ok a, some (u, .ok a')⟩ (.ok a')

/-- What the undo of a move keeps to. -/
structure UndoRound.Kept (r : UndoRound) : Prop where
  tried : r.tries ≠ []
  bounded : r.tries.length ≤ compensationAttempts
  /-- Every update is computed from the account as it was read just before. -/
  computes : ∀ t ∈ r.tries, t.Computes r.move
  /-- Only after a lost update there is another try. -/
  retries : ∀ t ∈ r.tries.dropLast, t.Lost
  /-- No update is sent after one that has succeeded. -/
  once : ∀ sent ∈ r.updates.dropLast, sent.2.isOk = false
  isOk_result : r.result.isOk = r.undone
  /-- A move stays in place because of how its last try ended, or because all of them were lost. -/
  fails : ∀ fault, r.result = .error fault →
    (∃ t, r.tries.getLast? = some t ∧ r.move.Ends t (.error fault)) ∨
      fault = .contended ∧ r.tries.length = compensationAttempts ∧ ∀ t ∈ r.tries, t.Lost

/-! ## The undo of one move -/

namespace BalanceMove
variable {m : BalanceMove} {tries : List UndoTry} {result : Except UndoFault Account}

/-- The tries of an undo with so many attempts left, and what it comes to. -/
inductive Tried (m : BalanceMove) : ℕ → List UndoTry → Except UndoFault Account → Prop
  | exhausted : Tried m 0 [] (.error .contended)
  | last {n t result} (ends : m.Ends t result) : Tried m (n + 1) [t] result
  | again {n t rest result} (computes : t.Computes m) (lost : t.Lost) (more : Tried m n rest result) :
      Tried m (n + 1) (t :: rest) result

/-- **An undo tries again only after a lost update**, whatever the ledger replies. -/
theorem undo_tried (m : BalanceMove) (attempts : ℕ) (before : List (Answered ledgerCalls)) :
    (m.undo attempts).Ensures (recording ledgerCalls) before fun result calls =>
      ∃ tries, calls = before ++ tries.flatMap (UndoTry.calls m.account) ∧
        m.Tried attempts tries result := by
  induction attempts generalizing before with
  | zero => exact ⟨[], (List.append_nil _).symm, .exhausted⟩
  | succ attempts ih =>
    refine ⟨trivial, fun reading _ => ?_⟩
    cases reading with
    | error e => exact ⟨[⟨.error e, none⟩], rfl, .last .unreadable⟩
    | ok a =>
      simp only [bind_eq, bind_done]
      cases hundo : m.undoOn a with
      | error e => exact ⟨[⟨.ok a, none⟩], rfl, .last (.irreversible hundo)⟩
      | ok u =>
        refine ⟨trivial, fun reply _ => ?_⟩
        cases reply with
        | ok a' => exact ⟨[⟨.ok a, some (u, .ok a')⟩], List.append_assoc _ _ _, .last (.undone hundo)⟩
        | error e =>
          show Ensures _ (if e.isVersionConflict then _ else _) _ _
          cases hconflict : e.isVersionConflict with
          | true =>
            -- the next try reads the account again
            refine (ih _).mono fun result calls ⟨tries, hcalls, htried⟩ => ?_
            refine ⟨⟨.ok a, some (u, .error e)⟩ :: tries, ?_, .again ?_ ⟨u, e, rfl, hconflict⟩ htried⟩
            · rw [hcalls, List.flatMap_cons, ← List.append_assoc]
              exact congrArg (· ++ _) (List.append_assoc _ _ _)
            · rintro _ ⟨⟩
              exact ⟨a, rfl, hundo⟩
          | false =>
            exact ⟨[⟨.ok a, some (u, .error e)⟩], List.append_assoc _ _ _,
              .last (.refused hundo hconflict)⟩

theorem Ends.computes {t : UndoTry} (h : m.Ends t result) : t.Computes m := by
  rintro sent hsent
  cases h with
  | unreadable | irreversible impossible => cases hsent
  | refused computed other | undone computed =>
    cases hsent
    exact ⟨_, rfl, computed⟩

/-- A try ends an undo well just if its update succeeds. -/
theorem Ends.isOk_result {t : UndoTry} (h : m.Ends t result) :
    result.isOk = t.update.toList.any fun sent => sent.2.isOk := by
  cases h <;> rfl

/-- All tries were lost; or all but the last were, and that one ended the undo. -/
theorem Tried.lost_or_last {n : ℕ} (h : m.Tried n tries result) :
    ∃ lost : List UndoTry, (∀ t ∈ lost, t.Computes m ∧ t.Lost) ∧
      ((tries = lost ∧ lost.length = n ∧ result = .error .contended) ∨
        ∃ t, tries = lost ++ [t] ∧ lost.length < n ∧ m.Ends t result) := by
  induction h with
  | exhausted => exact ⟨[], by simp, Or.inl ⟨rfl, rfl, rfl⟩⟩
  | last ends => exact ⟨[], by simp, Or.inr ⟨_, rfl, Nat.succ_pos _, ends⟩⟩
  | @again n t rest result computes lost more ih =>
    obtain ⟨others, hlost, hends⟩ := ih
    refine ⟨t :: others, List.forall_mem_cons.mpr ⟨⟨computes, lost⟩, hlost⟩, ?_⟩
    rcases hends with ⟨rfl, hlength, rfl⟩ | ⟨t', rfl, hlength, hends⟩
    · exact Or.inl ⟨rfl, congrArg (· + 1) hlength, rfl⟩
    · exact Or.inr ⟨t', rfl, Nat.succ_lt_succ hlength, hends⟩

/-- No update of a lost try has succeeded. -/
theorem isOk_of_lost {lost : List UndoTry} (hlost : ∀ t ∈ lost, t.Lost) :
    ∀ sent ∈ lost.filterMap UndoTry.update, sent.2.isOk = false := by
  intro sent hsent
  obtain ⟨t, ht, hupdate⟩ := List.mem_filterMap.mp hsent
  obtain ⟨u, e, hlost, -⟩ := hlost t ht
  rw [hlost] at hupdate
  cases hupdate
  rfl

theorem Tried.kept (h : m.Tried compensationAttempts tries result) :
    UndoRound.Kept ⟨m, tries, result⟩ := by
  obtain ⟨lost, hlost, hends⟩ := h.lost_or_last
  have hnone := isOk_of_lost fun t ht => (hlost t ht).2
  have hany : (lost.filterMap UndoTry.update).any (fun sent => sent.2.isOk) = false :=
    List.any_eq_false.mpr fun sent hsent => by rw [hnone sent hsent]; exact Bool.false_ne_true
  rcases hends with ⟨rfl, hlength, rfl⟩ | ⟨t, rfl, hlength, hends⟩
  · refine ⟨fun hnil => ?_, Nat.le_of_eq hlength, fun t ht => (hlost t ht).1,
      fun t ht => (hlost t (List.dropLast_subset _ ht)).2,
      fun sent hsent => hnone sent (List.dropLast_subset _ hsent), ?_, ?_⟩
    · rw [show tries = [] from hnil] at hlength
      exact absurd hlength (by decide)
    · exact hany.symm
    · rintro _ ⟨⟩
      exact Or.inr ⟨rfl, hlength, fun t ht => (hlost t ht).2⟩
  · have hupdates : UndoRound.updates ⟨m, lost ++ [t], result⟩ =
        lost.filterMap UndoTry.update ++ t.update.toList := by
      rw [UndoRound.updates, List.filterMap_append]
      cases hupdate : t.update <;> simp [hupdate]
    refine ⟨List.concat_ne_nil _ _, ?_, ?_, ?_, ?_, ?_, fun fault hfault => Or.inl ⟨t, ?_, hfault ▸ hends⟩⟩
    · rw [List.length_append, List.length_singleton]
      exact hlength
    · intro t' ht'
      rcases List.mem_append.mp ht' with ht' | ht'
      · exact (hlost t' ht').1
      · exact List.mem_singleton.mp ht' ▸ hends.computes
    · intro t' ht'
      rw [List.dropLast_concat] at ht'
      exact (hlost t' ht').2
    · intro sent hsent
      rw [hupdates] at hsent
      cases hupdate : t.update with
      | none =>
        rw [hupdate, Option.toList_none, List.append_nil] at hsent
        exact hnone sent (List.dropLast_subset _ hsent)
      | some last =>
        rw [hupdate, Option.toList_some, List.dropLast_concat] at hsent
        exact hnone sent hsent
    · rw [UndoRound.undone, hupdates, List.any_append, hany, Bool.false_or]
      exact hends.isOk_result
    · exact List.getLast?_concat

end BalanceMove

/-! ## All moves -/

namespace Saga

/-- A compensation of some moves in rounds, with the calls that it makes and what it reports. -/
structure Rounds (ms : List BalanceMove) (calls : List (Answered ledgerCalls))
    (failures : List CompensationFailure) (rounds : List UndoRound) : Prop where
  /-- There is one round for each move, in the order of the list. -/
  moves : rounds.map UndoRound.move = ms
  calls : calls = rounds.flatMap UndoRound.calls
  kept : ∀ r ∈ rounds, r.Kept
  /-- Reported is each move for which no update succeeded, and why. -/
  reported : List.Forall₂ (fun f r => ∃ fault, r.result = .error fault ∧ f = r.move.stranded fault)
    failures (rounds.filter fun r => !r.undone)

variable {ms : List BalanceMove} {calls : List (Answered ledgerCalls)}
  {failures : List CompensationFailure} {rounds : List UndoRound} {r : UndoRound}

/-- A round before all others. -/
theorem Rounds.cons (h : Rounds ms calls failures rounds) (hr : r.Kept) :
    (∀ a, r.result = .ok a → Rounds (r.move :: ms) (r.calls ++ calls) failures (r :: rounds)) ∧
      ∀ fault, r.result = .error fault →
        Rounds (r.move :: ms) (r.calls ++ calls) (r.move.stranded fault :: failures)
          (r :: rounds) := by
  obtain ⟨rfl, rfl, hkept, hreported⟩ := h
  have hkept' : ∀ r' ∈ r :: rounds, r'.Kept := List.forall_mem_cons.mpr ⟨hr, hkept⟩
  constructor
  · intro a ha
    have hundone : r.undone = true := by rw [← hr.isOk_result, ha]; rfl
    refine ⟨rfl, rfl, hkept', ?_⟩
    rw [List.filter_cons_of_neg (by rw [hundone]; decide)]
    exact hreported
  · intro fault hfault
    have hundone : r.undone = false := by rw [← hr.isOk_result, hfault]; rfl
    refine ⟨rfl, rfl, hkept', ?_⟩
    rw [List.filter_cons_of_pos (by rw [hundone]; decide)]
    exact .cons ⟨fault, hfault, rfl⟩ hreported

theorem undoAll_rounds (ms : List BalanceMove) (before : List (Answered ledgerCalls)) :
    (undoAll ms).Ensures (recording ledgerCalls) before fun failures calls =>
      ∃ new rounds, calls = before ++ new ∧ Rounds ms new failures rounds := by
  induction ms generalizing before with
  | nil =>
    exact ⟨[], [], (List.append_nil _).symm, rfl, rfl, fun r hr => absurd hr List.not_mem_nil, .nil⟩
  | cons m rest ih =>
    refine (m.undo_tried compensationAttempts before).bind ?_
    rintro result _ ⟨tries, rfl, htried⟩
    have hkept := htried.kept
    cases result with
    | ok a =>
      refine (ih _).mono ?_
      rintro failures _ ⟨new, rounds, rfl, hrounds⟩
      exact ⟨_, _, List.append_assoc _ _ _, (hrounds.cons hkept).1 a rfl⟩
    | error fault =>
      -- the move is reported, and the other rounds follow all the same
      refine (ih _).bind ?_
      rintro failures _ ⟨new, rounds, rfl, hrounds⟩
      exact ⟨_, _, List.append_assoc _ _ _, (hrounds.cons hkept).2 fault rfl⟩

/-- **A compensation undoes each move at most once and reports the rest**, whatever the ledger
replies: newest first, in one round for each move. -/
theorem compensate_rounds (saga : Saga) {σ : Type}
    (answer : (c : LedgerCall) → σ → ledgerCalls.Reply c × σ) (s : σ) :
    ∃ rounds, Rounds saga.applied.reverse (saga.compensate.calls answer s)
      (saga.compensate.run answer s).1 rounds := by
  obtain ⟨new, rounds, hcalls, hrounds⟩ := (undoAll_rounds saga.applied.reverse []).run_calls answer s
  rw [List.nil_append, List.nil_append] at hcalls
  exact ⟨rounds, hcalls ▸ hrounds⟩

end Saga

end CardHolds

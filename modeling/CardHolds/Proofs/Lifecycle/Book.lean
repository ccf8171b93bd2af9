import CardHolds.Lifecycle.Flow
import CardHolds.Proofs.Lifecycle.Effect
import CardHolds.Proofs.Program.Contract

/-!
# The book of a lifecycle call

A `Book` is what one lifecycle call knows of its own dealings: the last reading of every account, the
sum of what its successful updates were to change, the rows it drafted and committed, and the payment
it found in the log.

`bookkeeping` is the contract under which books are kept.  The call asks for an update only of an
account it has read, and expects no later version than the one it read; it commits only a transaction
whose rows it knows, and looks a payment up before it commits any.  In return the ledger is a
versioned store: a version never goes back, two readings that show the same version show the same
quantities, and an update succeeds only while the account still carries the version of the last
reading.
-/

namespace CardHolds

/-- The dealings of a call with the ledger. -/
structure LedgerBook where
  /-- The last reading of every account. -/
  seen : AccountId → Option Reading := fun _ => none
  /-- What the successful updates were to change, from the readings they were made from. -/
  moved : AccountId → Delta := 0

namespace LedgerBook

/-- What an update is to change, from the last reading of its account. -/
def planned (b : LedgerBook) (id : AccountId) (u : BalanceUpdate) : AccountId → Delta :=
  Pi.single id ((b.seen id).elim 0 fun r => u.change r.held)

/-- Enters a reading. -/
def read (b : LedgerBook) (a : Account) : LedgerBook :=
  { b with seen := Function.update b.seen a.id (some a.reading) }

/-- Enters a successful update. -/
def update (b : LedgerBook) (id : AccountId) (u : BalanceUpdate) : LedgerBook :=
  { b with moved := b.moved + b.planned id u }

/-- A move starts from a version that is no later than the one last seen, and if it is the same it
starts from the same quantities. -/
def Backs (b : LedgerBook) (m : BalanceMove) : Prop :=
  ∃ r, b.seen m.account = some r ∧ m.fromVersion ≤ r.version ∧
    (m.fromVersion = r.version → r.held = m.heldBefore)

/-- A reading that a versioned store may give after the last one. -/
def Admits (b : LedgerBook) (a : Account) : Prop :=
  ∀ r, b.seen a.id = some r → r.version ≤ a.version ∧ (r.version = a.version → r.held = a.held)

end LedgerBook

/-- The dealings of a call with the payment log. -/
structure LogBook where
  /-- The payment that was looked up. -/
  found : Option Payment := none
  /-- The rows in the open transaction, as long as they are known. -/
  drafts : Option (List Payment) := none
  /-- The rows that were committed. -/
  committed : List Payment := []

/-- How readings and updates are entered, and what the ledger is bound to. -/
@[reducible] def ledgerBookkeeping : Contract ledgerCalls where
  State := LedgerBook
  Asks
    | b, .updateBalance id u =>
      ∃ r v, b.seen id = some r ∧ u.expectedVersion = some v ∧ v ≤ r.version
    | _, _ => True
  Replies
    | b, .account id, .ok a => a.id = id ∧ b.Admits a
    | b, .updateBalance id u, .ok _ =>
      ∀ r, b.seen id = some r → u.expectedVersion = some r.version
    | _, _, _ => True
  observe
    | b, .account _, .ok a => b.read a
    | b, .updateBalance id u, .ok _ => b.update id u
    | b, _, _ => b

/-- How rows are entered, and what the log is bound to. -/
@[reducible] def logBookkeeping : Contract logCalls where
  State := LogBook
  Asks
    | b, .commit => b.drafts.isSome
    | b, .find _ => b.committed = []
    | _, _ => True
  Replies
    | _, .find id, .ok (some p) => p.id = id
    | _, .insert row, .ok p => ∃ id now, p = row.recorded id now
    | _, _, _ => True
  observe
    | b, .begin, .ok _ => { b with drafts := some [] }
    | b, .begin, .error _ => { b with drafts := none }
    | b, .insert _, .ok p => { b with drafts := b.drafts.map (· ++ [p]) }
    | b, .insert _, .error _ => { b with drafts := none }
    | b, .commit, .ok _ => { b with drafts := none, committed := b.committed ++ b.drafts.getD [] }
    | b, .commit, .error _ => { b with drafts := none }
    | b, .rollback, _ => { b with drafts := none }
    | b, .find _, .ok p => { b with found := p }
    | b, .find _, .error _ => b
    | b, .involving _, _ => b

/-- What a lifecycle call knows of its own dealings. -/
structure Book where
  ledger : LedgerBook := {}
  log : LogBook := {}

/-- The contract of a lifecycle call with its environment. -/
@[reducible] def bookkeeping : Contract lifecycleCalls where
  State := Book
  Asks
    | b, .ledger c => ledgerBookkeeping.Asks b.ledger c
    | b, .log c => logBookkeeping.Asks b.log c
    | _, .stream _ => True
    | _, .publish _ => True
  Replies
    | b, .ledger c, r => ledgerBookkeeping.Replies b.ledger c r
    | b, .log c, r => logBookkeeping.Replies b.log c r
    | _, .stream _, _ => True
    | _, .publish _, _ => True
  observe
    | b, .ledger c, r => { b with ledger := ledgerBookkeeping.observe b.ledger c r }
    | b, .log c, r => { b with log := logBookkeeping.observe b.log c r }
    | b, .stream _, _ => b
    | b, .publish _, _ => b

/-! ## Parts of a lifecycle call -/

namespace Program

variable {α : Type}

/-- A program that calls the ledger alone leaves the log's part of the book as it is. -/
theorem ensures_onLedger {p : Program ledgerCalls α} {b : Book} {post : α → Book → Prop} :
    p.onLedger.Ensures bookkeeping b post ↔
      p.Ensures ledgerBookkeeping b.ledger fun a l => post a { b with ledger := l } := by
  induction p generalizing b with
  | done a => exact Iff.rfl
  | ask c next ih =>
    exact and_congr Iff.rfl (forall_congr' fun r => imp_congr_right fun _ => ih r)

/-- A program that drives a statement stream leaves the book as it is. -/
theorem ensures_onStream {p : Program streamCalls α} {b : Book} {post : α → Book → Prop}
    (h : ∀ a, post a b) : p.onStream.Ensures bookkeeping b post := by
  induction p with
  | done a => exact h a
  | ask c next ih => exact ⟨trivial, fun r _ => ih r⟩

end Program

/-! ## Moves and readings -/

namespace LedgerBook
variable {b : LedgerBook} {a : Account} {m : BalanceMove}

theorem seen_read : (b.read a).seen a.id = some a.reading := Function.update_self ..

theorem backs_read_of_plannedOn (h : m.PlannedOn a) : (b.read a).Backs m :=
  ⟨a.reading, h.account ▸ seen_read, Int64.le_of_eq h.version,
    fun _ => h.heldBefore.symm⟩

/-- A move that is backed by the last reading is backed by the next. -/
theorem Backs.read (h : b.Backs m) (ha : b.Admits a) : (b.read a).Backs m := by
  obtain ⟨r, hr, hle, heq⟩ := h
  by_cases hid : m.account = a.id
  · rw [hid] at hr
    obtain ⟨hmono, hsame⟩ := ha r hr
    refine ⟨a.reading, hid ▸ seen_read, Int64.le_trans hle hmono, fun hv => ?_⟩
    have hv : m.fromVersion = a.version := hv
    have hrv : r.version = a.version := Int64.le_antisymm hmono (hv ▸ hle)
    exact (hsame hrv).symm.trans (heq (hv.trans hrv.symm))
  · exact ⟨r, (Function.update_of_ne hid ..).trans hr, hle, heq⟩

/-- A backed move that succeeds is entered with its effect. -/
theorem update_forward (h : b.Backs m)
    (hok : ∀ r, b.seen m.account = some r → m.forward.expectedVersion = some r.version) :
    b.update m.account m.forward = { b with moved := b.moved + m.effect } := by
  obtain ⟨r, hr, _, heq⟩ := h
  have hv : m.fromVersion = r.version := Option.some.inj (hok r hr)
  rw [update, planned, hr, Option.elim_some, heq hv, BalanceMove.change_forward]
  rfl

/-- An undo made from the account as last read is entered with the opposite effect. -/
theorem update_undo {u : BalanceUpdate} (hid : a.id = m.account) (h : m.undoOn a = .ok u) :
    (b.read a).update m.account u =
      { (b.read a) with moved := b.moved - m.effect } := by
  have hseen : (b.read a).seen m.account = some a.reading := hid ▸ seen_read
  rw [update, planned, hseen, Option.elim_some]
  have hchange : u.change a.reading.held = -m.delta := (BalanceMove.change_of_undoOn h).2
  rw [hchange, Pi.single_neg, ← sub_eq_add_neg]
  rfl

end LedgerBook

end CardHolds

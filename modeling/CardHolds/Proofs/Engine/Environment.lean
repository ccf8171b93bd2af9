import CardHolds.Engine.Execution
import CardHolds.Proofs.Ledger.Versions

/-!
# The ledger between two calls

A call that read an account has to rely on that reading while other writers change the ledger.
`Engine.Backs` says that it may: the account still goes back to the reading, and if the account is
gone its name will not be given to another one.

The second half needs names that are not given twice.  `Engine.NamesFresh` is what a source of fresh
names promises, and other writers keep both (`Engine.NamesFresh.performAll`, `Engine.Backs.performAll`).
Where nobody else writes (`Interference.Alone`) there is nothing to promise.
-/

namespace CardHolds

/-- A source of names that counts in unary. -/
def Mint.unary : Mint where
  accountId n := ⟨String.ofList (List.replicate n 'a')⟩
  paymentId n := ⟨String.ofList (List.replicate n 'p')⟩
  now := default

namespace Mint

theorem eq_of_unary {c : Char} {m n : Nat}
    (h : String.ofList (List.replicate m c) = String.ofList (List.replicate n c)) : m = n := by
  simpa using congrArg (fun s => s.toList.length) h

theorem injective_accountId_unary : Function.Injective unary.accountId :=
  fun _ _ h => eq_of_unary (congrArg AccountId.text h)

theorem injective_paymentId_unary : Function.Injective unary.paymentId :=
  fun _ _ h => eq_of_unary (congrArg PaymentId.text h)

end Mint

namespace Engine
variable {e e' : Engine} {id : AccountId} {r : Reading}

/-- The names still to be given are new: no two of them are the same, and no account has one. -/
structure NamesFresh (e : Engine) : Prop where
  injective : Function.Injective e.mint.accountId
  unused : ∀ n, e.accountsOpened ≤ n → e.ledger.store.accounts.find? (e.mint.accountId n) = none

/-- An engine without accounts, and a source that never repeats itself. -/
theorem namesFresh_unary : ({ mint := .unary } : Engine).NamesFresh where
  injective := Mint.injective_accountId_unary
  unused _ _ := rfl

/-- The name will not be given any more. -/
def Settled (e : Engine) (id : AccountId) : Prop :=
  ∀ n, e.accountsOpened ≤ n → id ≠ e.mint.accountId n

/-- A reading of an account can be relied on. -/
structure Backs (e : Engine) (id : AccountId) (r : Reading) : Prop where
  precedes : ∀ row, e.ledger.store.accounts.find? id = some row → r.Precedes row
  settled : e.ledger.store.accounts.find? id = none → e.Settled id

theorem NamesFresh.settled (h : e.NamesFresh) {row : AccountRow}
    (hrow : e.ledger.store.accounts.find? id = some row) : e.Settled id := fun n hn hid => by
  rw [hid, h.unused n hn] at hrow
  cases hrow

/-- A reading of the row that is stored. -/
theorem backs_of_row {row : AccountRow} (hrow : e.ledger.store.accounts.find? id = some row)
    (hversion : row.version = .counted r.version) (hheld : row.held = r.held) : e.Backs id r := by
  refine ⟨fun row' hrow' => ?_, fun hnone => ?_⟩
  · rw [hrow] at hrow'
    cases hrow'
    exact Reading.precedes_of_version hversion hheld
  · rw [hrow] at hnone
    cases hnone

/-- A reading that was just made. -/
theorem backs_of_account {a : Account} (h : e.ledger.account id = .ok a) :
    e.Backs id a.reading := by
  obtain ⟨row, hrow, -, hversion, hheld⟩ := Ledger.account_spec h
  exact backs_of_row hrow hversion hheld

/-! ## Own calls -/

/-- The accounts went on and no name was given. -/
structure Advances (e e' : Engine) : Prop where
  names : e'.mint.accountId = e.mint.accountId
  accountsOpened : e'.accountsOpened = e.accountsOpened
  accounts : ∀ x, LedgerStore.Advances x e.ledger.store e'.ledger.store

theorem Advances.of_accounts (names : e'.mint.accountId = e.mint.accountId)
    (opened : e'.accountsOpened = e.accountsOpened)
    (h : ∀ x, e'.ledger.store.accounts.find? x = e.ledger.store.accounts.find? x) :
    e.Advances e' :=
  ⟨names, opened, fun x => LedgerStore.advances_of_eq (h x)⟩

theorem Advances.refl (e : Engine) : e.Advances e := .of_accounts rfl rfl fun _ => rfl

theorem Advances.settled (h : e.Advances e') (hid : e.Settled id) : e'.Settled id := fun n hn => by
  rw [h.names]
  exact hid n (h.accountsOpened ▸ hn)

theorem Advances.namesFresh (h : e.Advances e') (fresh : e.NamesFresh) : e'.NamesFresh := by
  refine ⟨h.names ▸ fresh.injective, fun n hn => ?_⟩
  rw [h.names]
  exact (h.accounts _).find?_eq_none_iff.mpr (fresh.unused n (h.accountsOpened ▸ hn))

theorem Advances.backs (h : e.Advances e') (hr : e.Backs id r) : e'.Backs id r := by
  refine ⟨fun row' hrow' => ?_, fun hnone => ?_⟩
  · obtain ⟨row, hrow, hp⟩ := (h.accounts id).descends row' hrow'
    exact (hr.precedes row hrow).trans hp
  · exact h.settled (hr.settled ((h.accounts id).find?_eq_none_iff.mp hnone))

/-! ## Other writers -/

theorem settled_perform (command : Ledger.Command) (h : e.Settled id) :
    (e.perform command).2.Settled id :=
  fun n hn => h n (le_trans (Nat.le_add_right _ _) hn)

theorem NamesFresh.perform (h : e.NamesFresh) (command : Ledger.Command) :
    (e.perform command).2.NamesFresh := by
  refine ⟨h.injective, fun n hn => ?_⟩
  have hle : e.accountsOpened ≤ n := le_trans (Nat.le_add_right _ _) hn
  cases hrow : (e.perform command).2.ledger.store.accounts.find? (e.mint.accountId n) with
  | none => exact hrow
  | some row' =>
    have hdescends := e.ledger.descends_perform (e.mint.accountId e.accountsOpened) e.mint.now
      (x := e.mint.accountId n) command fun hname => ?_
    · obtain ⟨row, hrow', -⟩ := hdescends row' hrow
      rw [h.unused n hle] at hrow'
      cases hrow'
    · -- the name is the next one still, so nothing was opened under it
      have hn' : n = e.accountsOpened := h.injective hname
      cases hopened : command.opens && (e.ledger.perform (e.mint.accountId e.accountsOpened)
        e.mint.now command).1.isOk with
      | false => rfl
      | true =>
        have hcount : e.accountsOpened + 1 ≤ n := by
          simpa only [Engine.perform, hopened, if_true] using hn
        omega

theorem Backs.perform (fresh : e.NamesFresh) (h : e.Backs id r) (command : Ledger.Command) :
    (e.perform command).2.Backs id r := by
  have hsettled : e.Settled id := by
    cases hrow : e.ledger.store.accounts.find? id with
    | none => exact h.settled hrow
    | some row => exact fresh.settled hrow
  refine ⟨fun row' hrow' => ?_, fun _ => settled_perform command hsettled⟩
  obtain ⟨row, hrow, hp⟩ := e.ledger.descends_perform (e.mint.accountId e.accountsOpened) e.mint.now
    (x := id) command (fun hid => absurd hid (hsettled _ (le_refl _))) row' hrow'
  exact (h.precedes row hrow).trans hp

theorem NamesFresh.performAll (h : e.NamesFresh) (commands : List Ledger.Command) :
    (e.performAll commands).NamesFresh := by
  induction commands generalizing e with
  | nil => exact h
  | cons command rest ih => exact ih (h.perform command)

theorem Backs.performAll (fresh : e.NamesFresh) (h : e.Backs id r)
    (commands : List Ledger.Command) : (e.performAll commands).Backs id r := by
  induction commands generalizing e with
  | nil => exact h
  | cons command rest ih => exact ih (fresh.perform command) (h.perform fresh command)

@[simp] theorem log_performAll (e : Engine) (commands : List Ledger.Command) :
    (e.performAll commands).log = e.log := by
  induction commands generalizing e with
  | nil => rfl
  | cons command rest ih => exact ih _

end Engine

/-! ## Interruptions -/

/-- Other writers act with these commands around some call. -/
inductive Interference.Commands (i : Interference) : List Ledger.Command → Prop
  | beforeLedger (h : List Occurrence) (c : LedgerCall) : i.Commands (i.ledger h c).before
  | afterLedger (h : List Occurrence) (c : LedgerCall) : i.Commands (i.ledger h c).after
  | beforeLog (h : List Occurrence) (c : LogCall) : i.Commands (i.log h c).before
  | afterLog (h : List Occurrence) (c : LogCall) : i.Commands (i.log h c).after
  | beforeAppend (h : List Occurrence) (r : StatementRequest) : i.Commands (i.append h r).before
  | afterAppend (h : List Occurrence) (r : StatementRequest) : i.Commands (i.append h r).after
  | beforeEnd (h : List Occurrence) : i.Commands (i.streamEnd h).before
  | afterEnd (h : List Occurrence) : i.Commands (i.streamEnd h).after

/-- Nobody else writes to the ledger. -/
def Interference.Alone (i : Interference) : Prop := ∀ commands, i.Commands commands → commands = []

namespace Execution
variable {ε α : Type}

/-- What an interrupted call leads to: the call is carried out or refused, its answer may be taken
away, and other writers act before and after. -/
theorem interrupted_rule (x : Execution) (i : Interruption ε)
    (call : Execution → Except ε α × Execution) (Q : Except ε α → Execution → Prop)
    (called : Q (call (x.others i.before)).1 (call (x.others i.before)).2)
    (instead : ∀ e, Q (.error e) (x.others i.before))
    (replaced : ∀ e r y, i.replacing = some e → Q r y → Q (.error e) y)
    (after : ∀ r y, Q r y → Q r (y.others i.after)) :
    Q (x.interrupted i call).1 (x.interrupted i call).2 := by
  unfold interrupted
  refine after _ _ ?_
  cases hreplacing : i.replacing with
  | none =>
    cases i.instead with
    | none => exact called
    | some e => exact instead e
  | some e =>
    cases i.instead with
    | none => exact replaced e _ _ hreplacing called
    | some e' => exact replaced e _ _ hreplacing (instead e')

end Execution

/-! ## A sample -/

namespace Sample

/-- The name of the first account that is opened. -/
def customer : AccountId := Mint.unary.accountId 0

/-- The name of the second. -/
def merchant : AccountId := Mint.unary.accountId 1

def customerDetails : NewAccount := details "Cora"

def merchantDetails : NewAccount := ⟨"Max", "Moll", ⟨"4222222222222222", "01", "30", ⟨"321"⟩⟩⟩

/-- A customer with a hundred units, and a merchant. -/
def engine : Engine := ({ mint := .unary } : Engine).performAll
  [.create customerDetails, .create merchantDetails, .deposit card.number (units 100)]

/-- The customer is to pay the merchant this much. -/
def request (amount : Amount) : PaymentRequest := ⟨merchant, customer, card, "EUR", amount⟩

theorem namesFresh_engine : engine.NamesFresh := Engine.namesFresh_unary.performAll _

end Sample

end CardHolds

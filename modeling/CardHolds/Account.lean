import CardHolds.Amount
import CardHolds.Card
import CardHolds.Identifier
import CardHolds.Timestamp

/-!
# Accounts

An account holds two quantities of money: the `balance`, which is available for new holds, and the
`blocked` money, which is held for payments in progress.  Its `version` counts the writes to its
identity, card and quantities; a `BalanceUpdate` may name the version it was computed from.
-/

namespace CardHolds

/-- The two quantities of an account. -/
inductive Quantity where
  | balance
  | blocked
deriving DecidableEq

/-- The words for a quantity in a message. -/
def Quantity.text : Quantity → String
  | balance => "balance"
  | blocked => "blocked money"

/-- An account as it was read. -/
structure Account where
  id : AccountId
  firstName : String
  lastName : String
  card : Card
  /-- Money available for new holds. -/
  balance : Amount
  /-- Money held for payments in progress. -/
  blocked : Amount
  /-- The payments that touched the account, oldest first. -/
  statement : List PaymentId
  version : Int64
  openedAt : Timestamp
deriving DecidableEq, Inhabited

/-- What is known of an account before it is opened. -/
structure NewAccount where
  firstName : String
  lastName : String
  card : Card
deriving DecidableEq, Inhabited

/-- Changes to the identity and the card of an account; what is absent stays as it is. -/
structure AccountUpdate where
  firstName : Option String := none
  lastName : Option String := none
  cardNumber : Option String := none
  expiryMonth : Option String := none
  expiryYear : Option String := none
  securityCode : Option Secret := none
deriving DecidableEq, Inhabited

namespace AccountUpdate

/-- The update that also writes the first name. -/
def withFirstName (u : AccountUpdate) (name : String) : AccountUpdate :=
  { u with firstName := some name }

/-- The update that also writes the last name. -/
def withLastName (u : AccountUpdate) (name : String) : AccountUpdate :=
  { u with lastName := some name }

/-- The update that also writes the card number. -/
def withCardNumber (u : AccountUpdate) (number : String) : AccountUpdate :=
  { u with cardNumber := some number }

/-- Month and year are replaced together. -/
def withCardExpiry (u : AccountUpdate) (month year : String) : AccountUpdate :=
  { u with expiryMonth := some month, expiryYear := some year }

/-- The update that also writes the security code. -/
def withSecurityCode (u : AccountUpdate) (code : Secret) : AccountUpdate :=
  { u with securityCode := some code }

/-- Whether nothing is to be changed. -/
def isEmpty (u : AccountUpdate) : Bool :=
  u.firstName.isNone && u.lastName.isNone && u.cardNumber.isNone && u.expiryMonth.isNone &&
    u.expiryYear.isNone && u.securityCode.isNone

theorem isEmpty_iff {u : AccountUpdate} : u.isEmpty = true ↔ u = {} := by
  obtain ⟨_, _, _, _, _, _⟩ := u
  simp [isEmpty, and_assoc]

/-- The card after the update. -/
def applyToCard (u : AccountUpdate) (c : Card) : Card where
  number := u.cardNumber.getD c.number
  expiryMonth := u.expiryMonth.getD c.expiryMonth
  expiryYear := u.expiryYear.getD c.expiryYear
  securityCode := u.securityCode.getD c.securityCode

end AccountUpdate

/-- A write to the quantities of an account.  Only what is present is written, so that zero can be
written too.  With an expected version the write happens only while the account still carries it. -/
structure BalanceUpdate where
  balance : Option Amount := none
  blocked : Option Amount := none
  expectedVersion : Option Int64 := none
deriving DecidableEq, Inhabited

namespace BalanceUpdate

/-- The update that also writes the balance. -/
def withBalance (u : BalanceUpdate) (balance : Amount) : BalanceUpdate :=
  { u with balance := some balance }

/-- The update that also writes the blocked money. -/
def withBlocked (u : BalanceUpdate) (blocked : Amount) : BalanceUpdate :=
  { u with blocked := some blocked }

/-- The update that only happens while the account carries this version. -/
def expecting (u : BalanceUpdate) (version : Int64) : BalanceUpdate :=
  { u with expectedVersion := some version }

/-- Whether neither quantity is written, whatever version is expected. -/
def isNoop (u : BalanceUpdate) : Bool :=
  u.balance.isNone && u.blocked.isNone

end BalanceUpdate

end CardHolds

import CardHolds.Text.Quoted

/-!
# Cards

A `Card` is the instrument of an account, and what a payer presents.  Its security code is a
`Secret`: it takes part in comparisons, and every rendering of it is the same mask.  A payment keeps
only the `snapshot` of the presented card, which has no security code.
-/

namespace CardHolds

/-- A text that is compared but never shown. -/
@[ext]
structure Secret where
  reveal : String
deriving DecidableEq, Inhabited

/-- What is shown in the place of any secret. -/
def Secret.mask (_ : Secret) : String := "****"

/-- A card with all its details. -/
@[ext]
structure Card where
  number : String
  expiryMonth : String
  expiryYear : String
  securityCode : Secret
deriving DecidableEq, Inhabited

/-- A card without its security code. -/
@[ext]
structure CardSnapshot where
  number : String
  expiryMonth : String
  expiryYear : String
deriving DecidableEq, Inhabited

namespace Card

/-- What a payment remembers of a card. -/
def snapshot (c : Card) : CardSnapshot :=
  ⟨c.number, c.expiryMonth, c.expiryYear⟩

/-- The card for diagnostic messages, the security code masked. -/
def describe (c : Card) : String :=
  "CardDetails \x7b card_number: " ++ Text.quoted c.number ++
    ", card_expiry_month: " ++ Text.quoted c.expiryMonth ++
    ", card_expiry_year: " ++ Text.quoted c.expiryYear ++
    ", card_security_code: " ++ c.securityCode.mask ++ " \x7d"

end Card

end CardHolds

/-!
# Identifiers

Accounts and payments are named by opaque texts that are given to them once and never change.
Identifiers are compared byte by byte, which for Unicode text is the order of the code points.
-/

namespace CardHolds

/-- The name of an account. -/
@[ext]
structure AccountId where
  text : String
deriving DecidableEq, Inhabited

/-- The name of a payment row. -/
@[ext]
structure PaymentId where
  text : String
deriving DecidableEq, Inhabited

instance : ToString AccountId := ⟨AccountId.text⟩
instance : ToString PaymentId := ⟨PaymentId.text⟩

instance : LT AccountId := ⟨fun a b => a.text < b.text⟩
instance (a b : AccountId) : Decidable (a < b) := inferInstanceAs (Decidable (a.text < b.text))

theorem AccountId.lt_def {a b : AccountId} : a < b ↔ a.text < b.text := Iff.rfl

end CardHolds

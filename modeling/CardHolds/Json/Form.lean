import CardHolds.Json.Basic
import CardHolds.Lifecycle.Call
import CardHolds.Payment

/-!
# The JSON forms of the records

Identifiers and secrets are strings, amounts are integers below 2 ^ 64, versions are signed 64 bit
integers, operations and statuses are their words, and times are their text.  A record is an object
with exactly its declared fields.  Reading ignores other fields; a field that is declared optional may
be absent or null, every other field is required and has to have the form of its type.
-/

namespace CardHolds

/-- A type with a JSON form. -/
class JsonForm (α : Type) where
  write : α → Json
  read? : Json → Option α

namespace JsonForm

variable {α β : Type}

/-- A field that has to be there. -/
def required? [JsonForm α] (fields : Json.Fields) (name : String) : Option α :=
  (fields name).bind read?

/-- A field that may be absent or null. -/
def optional? [JsonForm α] (fields : Json.Fields) (name : String) : Option (Option α) :=
  match fields name with
  | none => some none
  | some .null => some none
  | some document => (read? document).map some

/-- An absent field is written as null. -/
def writeOptional [JsonForm α] : Option α → Json
  | some a => write a
  | none => .null

/-- A form that is that of another type. -/
@[reducible] def via [JsonForm β] (give : α → β) (take? : β → Option α) : JsonForm α where
  write a := write (give a)
  read? document := (read? document).bind take?

instance : JsonForm String where
  write := .string
  read?
    | .string s => some s
    | _ => none

instance : JsonForm AccountId := via AccountId.text fun s => some ⟨s⟩
instance : JsonForm PaymentId := via PaymentId.text fun s => some ⟨s⟩
instance : JsonForm Secret := via Secret.reveal fun s => some ⟨s⟩
instance : JsonForm Timestamp := via Timestamp.text Timestamp.ofText?

instance : JsonForm Bool where
  write := .bool
  read?
    | .bool b => some b
    | _ => none

/-- An integer from zero to below 2 ^ 64. -/
instance : JsonForm Amount where
  write a := .integer a.units
  read?
    | .integer n => if 0 ≤ n then Amount.ofNat? n.toNat else none
    | _ => none

/-- A count is read like an amount. -/
instance : JsonForm Nat where
  write n := .integer n
  read? document := (read? document).map Amount.units

/-- A signed 64 bit integer. -/
instance : JsonForm Int64 where
  write n := .integer n.toInt
  read?
    | .integer n => if Int64.minValue.toInt ≤ n ∧ n ≤ Int64.maxValue.toInt then some (Int64.ofInt n) else none
    | _ => none

instance : JsonForm Operation where
  write operation := .string operation.text
  read? document := document.word?.bind Operation.ofText?

instance : JsonForm PaymentStatus where
  write status := .string status.text
  read? document := document.word?.bind PaymentStatus.ofText?

instance [JsonForm α] : JsonForm (List α) where
  write items := .array (items.map write)
  read?
    | .array documents => documents.mapM read?
    | _ => none

instance : JsonForm Card where
  write c := .object [
    ("card_number", write c.number),
    ("card_expiry_month", write c.expiryMonth),
    ("card_expiry_year", write c.expiryYear),
    ("card_security_code", write c.securityCode)]
  read? document := do
    let fields ← document.record?
      ["card_number", "card_expiry_month", "card_expiry_year", "card_security_code"]
    return {
      number := ← required? fields "card_number"
      expiryMonth := ← required? fields "card_expiry_month"
      expiryYear := ← required? fields "card_expiry_year"
      securityCode := ← required? fields "card_security_code" }

instance : JsonForm CardSnapshot where
  write c := .object [
    ("card_number", write c.number),
    ("card_expiry_month", write c.expiryMonth),
    ("card_expiry_year", write c.expiryYear)]
  read? document := do
    let fields ← document.record? ["card_number", "card_expiry_month", "card_expiry_year"]
    return {
      number := ← required? fields "card_number"
      expiryMonth := ← required? fields "card_expiry_month"
      expiryYear := ← required? fields "card_expiry_year" }

instance : JsonForm Account where
  write a := .object [
    ("id", write a.id),
    ("first_name", write a.firstName),
    ("last_name", write a.lastName),
    ("card", write a.card),
    ("balance", write a.balance),
    ("blocked_money", write a.blocked),
    ("statement", write a.statement),
    ("version", write a.version),
    ("created_at", write a.openedAt)]
  read? document := do
    let fields ← document.record?
      ["id", "first_name", "last_name", "card", "balance", "blocked_money", "statement", "version",
        "created_at"]
    return {
      id := ← required? fields "id"
      firstName := ← required? fields "first_name"
      lastName := ← required? fields "last_name"
      card := ← required? fields "card"
      balance := ← required? fields "balance"
      blocked := ← required? fields "blocked_money"
      statement := ← required? fields "statement"
      version := ← required? fields "version"
      openedAt := ← required? fields "created_at" }

instance : JsonForm NewAccount where
  write a := .object [
    ("first_name", write a.firstName),
    ("last_name", write a.lastName),
    ("card", write a.card)]
  read? document := do
    let fields ← document.record? ["first_name", "last_name", "card"]
    return {
      firstName := ← required? fields "first_name"
      lastName := ← required? fields "last_name"
      card := ← required? fields "card" }

instance : JsonForm AccountUpdate where
  write u := .object [
    ("first_name", writeOptional u.firstName),
    ("last_name", writeOptional u.lastName),
    ("card_number", writeOptional u.cardNumber),
    ("card_expiry_month", writeOptional u.expiryMonth),
    ("card_expiry_year", writeOptional u.expiryYear),
    ("card_security_code", writeOptional u.securityCode)]
  read? document := do
    let fields ← document.record?
      ["first_name", "last_name", "card_number", "card_expiry_month", "card_expiry_year",
        "card_security_code"]
    return {
      firstName := ← optional? fields "first_name"
      lastName := ← optional? fields "last_name"
      cardNumber := ← optional? fields "card_number"
      expiryMonth := ← optional? fields "card_expiry_month"
      expiryYear := ← optional? fields "card_expiry_year"
      securityCode := ← optional? fields "card_security_code" }

instance : JsonForm BalanceUpdate where
  write u := .object [
    ("balance", writeOptional u.balance),
    ("blocked_money", writeOptional u.blocked),
    ("expected_version", writeOptional u.expectedVersion)]
  read? document := do
    let fields ← document.record? ["balance", "blocked_money", "expected_version"]
    return {
      balance := ← optional? fields "balance"
      blocked := ← optional? fields "blocked_money"
      expectedVersion := ← optional? fields "expected_version" }

instance : JsonForm Payment where
  write p := .object [
    ("payment_id", write p.id),
    ("merchant", write p.merchant),
    ("customer", write p.customer),
    ("card", write p.card),
    ("currency", write p.currency),
    ("operation", write p.operation),
    ("status", write p.status),
    ("amount", write p.amount),
    ("created_at", write p.recordedAt)]
  read? document := do
    let fields ← document.record?
      ["payment_id", "merchant", "customer", "card", "currency", "operation", "status", "amount",
        "created_at"]
    return {
      id := ← required? fields "payment_id"
      merchant := ← required? fields "merchant"
      customer := ← required? fields "customer"
      card := ← required? fields "card"
      currency := ← required? fields "currency"
      operation := ← required? fields "operation"
      status := ← required? fields "status"
      amount := ← required? fields "amount"
      recordedAt := ← required? fields "created_at" }

instance : JsonForm PaymentRequest where
  write r := .object [
    ("merchant", write r.merchant),
    ("customer", write r.customer),
    ("card", write r.card),
    ("currency", write r.currency),
    ("amount", write r.amount)]
  read? document := do
    let fields ← document.record? ["merchant", "customer", "card", "currency", "amount"]
    return {
      merchant := ← required? fields "merchant"
      customer := ← required? fields "customer"
      card := ← required? fields "card"
      currency := ← required? fields "currency"
      amount := ← required? fields "amount" }

instance : JsonForm PaymentOutcome where
  write o := .object [("payment_id", write o.paymentId), ("status", write o.status)]
  read? document := do
    let fields ← document.record? ["payment_id", "status"]
    return {
      paymentId := ← required? fields "payment_id"
      status := ← required? fields "status" }

instance : JsonForm StatementRequest where
  write r := .object [("account_id", write r.account), ("payment_id", write r.payment)]
  read? document := do
    let fields ← document.record? ["account_id", "payment_id"]
    return {
      account := ← required? fields "account_id"
      payment := ← required? fields "payment_id" }

instance : JsonForm StatementAck where
  write a := .object [
    ("account_id", write a.account),
    ("payment_id", write a.payment),
    ("statement_len", write a.length)]
  read? document := do
    let fields ← document.record? ["account_id", "payment_id", "statement_len"]
    return {
      account := ← required? fields "account_id"
      payment := ← required? fields "payment_id"
      length := ← required? fields "statement_len" }

instance : JsonForm PaymentRecorded where
  write e := .object [("payment", write e.payment)]
  read? document := do
    let fields ← document.record? ["payment"]
    return { payment := ← required? fields "payment" }

instance : JsonForm CompensationFailed where
  write e := .object [
    ("account_id", write e.account),
    ("step", write e.step),
    ("reason", write e.reason)]
  read? document := do
    let fields ← document.record? ["account_id", "step", "reason"]
    return {
      account := ← required? fields "account_id"
      step := ← required? fields "step"
      reason := ← required? fields "reason" }

end JsonForm

end CardHolds

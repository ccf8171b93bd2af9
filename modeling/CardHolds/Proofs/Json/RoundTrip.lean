import CardHolds.Proofs.Json.Record

/-!
# The JSON forms round-trip

The shape of each type that is exchanged as JSON says which fields a record has, which of them may be
left out, and what is in them.

Every value reads back from what is written for it.  A document is read if and only if the shape accepts
it, and then it is written again with exactly the declared fields (`json_round_trip`).
-/

namespace CardHolds

open JsonForm

/-! ## Records

The shape of a record lists its fields as they are declared.  Its row reads and writes them in this
order, with the types that they have. -/

def Card.shape : Shape := .record [
  .required "card_number" .text,
  .required "card_expiry_month" .text,
  .required "card_expiry_year" .text,
  .required "card_security_code" .text]

def Card.row : RowForm (String × String × String × Secret × Unit) :=
  .required "card_number" <| .required "card_expiry_month" <| .required "card_expiry_year" <|
    .required "card_security_code" .nil

instance : HasShape Card Card.shape :=
  Card.row.hasShape
    (fun (number, month, year, code, ()) => ⟨number, month, year, code⟩)
    (fun _ => rfl) (fun _ => rfl) (by decide)
    (fun ⟨number, month, year, code⟩ => (number, month, year, code, ())) fun _ => rfl

def CardSnapshot.shape : Shape := .record [
  .required "card_number" .text,
  .required "card_expiry_month" .text,
  .required "card_expiry_year" .text]

def CardSnapshot.row : RowForm (String × String × String × Unit) :=
  .required "card_number" <| .required "card_expiry_month" <| .required "card_expiry_year" .nil

instance : HasShape CardSnapshot CardSnapshot.shape :=
  CardSnapshot.row.hasShape
    (fun (number, month, year, ()) => ⟨number, month, year⟩)
    (fun _ => rfl) (fun _ => rfl) (by decide)
    (fun ⟨number, month, year⟩ => (number, month, year, ())) fun _ => rfl

def Account.shape : Shape := .record [
  .required "id" .text,
  .required "first_name" .text,
  .required "last_name" .text,
  .required "card" Card.shape,
  .required "balance" .natural,
  .required "blocked_money" .natural,
  .required "statement" (.list .text),
  .required "version" .signed,
  .required "created_at" .time]

def Account.row : RowForm (AccountId × String × String × Card × Amount × Amount × List PaymentId ×
    Int64 × Timestamp × Unit) :=
  .required "id" <| .required "first_name" <| .required "last_name" <| .required "card" <|
    .required "balance" <| .required "blocked_money" <| .required "statement" <|
    .required "version" <| .required "created_at" .nil

instance : HasShape Account Account.shape :=
  Account.row.hasShape
    (fun (id, first, last, card, balance, blocked, statement, version, opened, ()) =>
      ⟨id, first, last, card, balance, blocked, statement, version, opened⟩)
    (fun _ => rfl) (fun _ => rfl) (by decide)
    (fun ⟨id, first, last, card, balance, blocked, statement, version, opened⟩ =>
      (id, first, last, card, balance, blocked, statement, version, opened, ())) fun _ => rfl

def NewAccount.shape : Shape := .record [
  .required "first_name" .text,
  .required "last_name" .text,
  .required "card" Card.shape]

def NewAccount.row : RowForm (String × String × Card × Unit) :=
  .required "first_name" <| .required "last_name" <| .required "card" .nil

instance : HasShape NewAccount NewAccount.shape :=
  NewAccount.row.hasShape
    (fun (first, last, card, ()) => ⟨first, last, card⟩)
    (fun _ => rfl) (fun _ => rfl) (by decide)
    (fun ⟨first, last, card⟩ => (first, last, card, ())) fun _ => rfl

def AccountUpdate.shape : Shape := .record [
  .optional "first_name" .text,
  .optional "last_name" .text,
  .optional "card_number" .text,
  .optional "card_expiry_month" .text,
  .optional "card_expiry_year" .text,
  .optional "card_security_code" .text]

def AccountUpdate.row : RowForm (Option String × Option String × Option String × Option String ×
    Option String × Option Secret × Unit) :=
  .optional "first_name" <| .optional "last_name" <| .optional "card_number" <|
    .optional "card_expiry_month" <| .optional "card_expiry_year" <|
    .optional "card_security_code" .nil

instance : HasShape AccountUpdate AccountUpdate.shape :=
  AccountUpdate.row.hasShape
    (fun (first, last, number, month, year, code, ()) => ⟨first, last, number, month, year, code⟩)
    (fun _ => rfl) (fun _ => rfl) (by decide)
    (fun ⟨first, last, number, month, year, code⟩ =>
      (first, last, number, month, year, code, ())) fun _ => rfl

def BalanceUpdate.shape : Shape := .record [
  .optional "balance" .natural,
  .optional "blocked_money" .natural,
  .optional "expected_version" .signed]

def BalanceUpdate.row : RowForm (Option Amount × Option Amount × Option Int64 × Unit) :=
  .optional "balance" <| .optional "blocked_money" <| .optional "expected_version" .nil

instance : HasShape BalanceUpdate BalanceUpdate.shape :=
  BalanceUpdate.row.hasShape
    (fun (balance, blocked, version, ()) => ⟨balance, blocked, version⟩)
    (fun _ => rfl) (fun _ => rfl) (by decide)
    (fun ⟨balance, blocked, version⟩ => (balance, blocked, version, ())) fun _ => rfl

def Payment.shape : Shape := .record [
  .required "payment_id" .text,
  .required "merchant" .text,
  .required "customer" .text,
  .required "card" CardSnapshot.shape,
  .required "currency" .text,
  .required "operation" Operation.shape,
  .required "status" PaymentStatus.shape,
  .required "amount" .natural,
  .required "created_at" .time]

def Payment.row : RowForm (PaymentId × AccountId × AccountId × CardSnapshot × String × Operation ×
    PaymentStatus × Amount × Timestamp × Unit) :=
  .required "payment_id" <| .required "merchant" <| .required "customer" <| .required "card" <|
    .required "currency" <| .required "operation" <| .required "status" <| .required "amount" <|
    .required "created_at" .nil

instance : HasShape Payment Payment.shape :=
  Payment.row.hasShape
    (fun (id, merchant, customer, card, currency, operation, status, amount, recorded, ()) =>
      ⟨id, merchant, customer, card, currency, operation, status, amount, recorded⟩)
    (fun _ => rfl) (fun _ => rfl) (by decide)
    (fun ⟨id, merchant, customer, card, currency, operation, status, amount, recorded⟩ =>
      (id, merchant, customer, card, currency, operation, status, amount, recorded, ())) fun _ => rfl

def PaymentRequest.shape : Shape := .record [
  .required "merchant" .text,
  .required "customer" .text,
  .required "card" Card.shape,
  .required "currency" .text,
  .required "amount" .natural]

def PaymentRequest.row : RowForm (AccountId × AccountId × Card × String × Amount × Unit) :=
  .required "merchant" <| .required "customer" <| .required "card" <| .required "currency" <|
    .required "amount" .nil

instance : HasShape PaymentRequest PaymentRequest.shape :=
  PaymentRequest.row.hasShape
    (fun (merchant, customer, card, currency, amount, ()) =>
      ⟨merchant, customer, card, currency, amount⟩)
    (fun _ => rfl) (fun _ => rfl) (by decide)
    (fun ⟨merchant, customer, card, currency, amount⟩ =>
      (merchant, customer, card, currency, amount, ())) fun _ => rfl

def PaymentOutcome.shape : Shape := .record [
  .required "payment_id" .text,
  .required "status" PaymentStatus.shape]

def PaymentOutcome.row : RowForm (PaymentId × PaymentStatus × Unit) :=
  .required "payment_id" <| .required "status" .nil

instance : HasShape PaymentOutcome PaymentOutcome.shape :=
  PaymentOutcome.row.hasShape
    (fun (id, status, ()) => ⟨id, status⟩)
    (fun _ => rfl) (fun _ => rfl) (by decide)
    (fun ⟨id, status⟩ => (id, status, ())) fun _ => rfl

def StatementRequest.shape : Shape := .record [
  .required "account_id" .text,
  .required "payment_id" .text]

def StatementRequest.row : RowForm (AccountId × PaymentId × Unit) :=
  .required "account_id" <| .required "payment_id" .nil

instance : HasShape StatementRequest StatementRequest.shape :=
  StatementRequest.row.hasShape
    (fun (account, payment, ()) => ⟨account, payment⟩)
    (fun _ => rfl) (fun _ => rfl) (by decide)
    (fun ⟨account, payment⟩ => (account, payment, ())) fun _ => rfl

def PaymentRecorded.shape : Shape := .record [
  .required "payment" Payment.shape]

def PaymentRecorded.row : RowForm (Payment × Unit) :=
  .required "payment" .nil

instance : HasShape PaymentRecorded PaymentRecorded.shape :=
  PaymentRecorded.row.hasShape
    (fun (payment, ()) => ⟨payment⟩)
    (fun _ => rfl) (fun _ => rfl) (by decide)
    (fun ⟨payment⟩ => (payment, ())) fun _ => rfl

def CompensationFailed.shape : Shape := .record [
  .required "account_id" .text,
  .required "step" .text,
  .required "reason" .text]

def CompensationFailed.row : RowForm (AccountId × String × String × Unit) :=
  .required "account_id" <| .required "step" <| .required "reason" .nil

instance : HasShape CompensationFailed CompensationFailed.shape :=
  CompensationFailed.row.hasShape
    (fun (account, step, reason, ()) => ⟨account, step, reason⟩)
    (fun _ => rfl) (fun _ => rfl) (by decide)
    (fun ⟨account, step, reason⟩ => (account, step, reason, ())) fun _ => rfl

def StatementAck.shape : Shape := .record [
  .required "account_id" .text,
  .required "payment_id" .text,
  .required "statement_len" .natural]

/-- The length is exchanged like an amount. -/
def StatementAck.row : RowForm (AccountId × PaymentId × Amount × Unit) :=
  .required "account_id" <| .required "payment_id" <| .required "statement_len" .nil

namespace StatementAck

/-- The acknowledgement with this length. -/
def ofRow : AccountId × PaymentId × Amount × Unit → StatementAck
  | (account, payment, length, ()) => ⟨account, payment, length.units⟩

theorem read_eq (d : Json) :
    (read? d : Option StatementAck) = (d.record? row.names).bind fun found => row.read found ofRow := by
  have hlength : ∀ (found : Json.Fields) (name : String),
      (required? found name : Option Nat) = (required? found name : Option Amount).map Amount.units := by
    intro found name
    unfold required?
    cases found name <;> rfl
  show ((d.record? row.names).bind fun found =>
    (required? found "account_id").bind fun account => (required? found "payment_id").bind fun payment =>
      (required? found "statement_len" : Option Nat).bind fun length =>
        some (⟨account, payment, length⟩ : StatementAck)) = _
  simp only [hlength, Option.bind_map]
  rfl

end StatementAck

/-! ## All types -/

/-- Values and documents of a type agree.  A value reads back from what is written for it, as does
whatever was read.  An ordinary document is rejected if and only if the shape does not accept it;
otherwise it is written again as the shape says, with all its declared fields and no others. -/
structure RoundTrips (α : Type) [JsonForm α] (shape : Shape) (Fits : α → Prop) : Prop where
  reads_back : ∀ a : α, Fits a → read? (write a) = some a
  reads_again : ∀ d (a : α), read? d = some a → read? (write a) = some a
  rejects : ∀ d, shape.plain d = true → ((read? d : Option α) = none ↔ shape.accepts d = false)
  writes : ∀ d (a : α), shape.plain d = true → read? d = some a → shape.canonical d (write a)

theorem HasShape.roundTrips (α : Type) [JsonForm α] {shape : Shape} [HasShape α shape] :
    RoundTrips α shape fun _ => True where
  reads_back a _ := read_write a
  reads_again _ a _ := read_write a
  rejects d hd := (describes (α := α) d hd).eq_none_iff
  writes d _ hd ha := (describes d hd).of_eq_some ha

theorem StatementAck.roundTrips :
    RoundTrips StatementAck StatementAck.shape fun ack => ack.length < 1 <<< 64 := by
  have hback : ∀ r, (read? (write (ofRow r)) : Option StatementAck) = some (ofRow r) :=
    row.readRecord_write ofRow read_eq (fun _ => rfl) (by decide)
  have hdescribes : ∀ d, shape.plain d = true → shape.Describes StatementAck d := fun _ =>
    row.describes_record ofRow read_eq fun _ => rfl
  refine ⟨fun ack hack => hback (ack.account, ack.payment, ⟨ack.length, hack⟩, ()), fun d ack hread => ?_,
    fun d hd => (hdescribes d hd).eq_none_iff, fun d ack hd hread => (hdescribes d hd).of_eq_some hread⟩
  -- a length that was read is one of 64 bits
  rw [read_eq] at hread
  obtain ⟨found, -, hread⟩ := Option.bind_eq_some_iff.mp hread
  obtain ⟨r, rfl⟩ := row.exists_row hread
  exact hback r

/-- The JSON forms of identifiers, cards, accounts, payments, requests, messages and events. -/
structure FormsRoundTrip : Prop where
  accountId : RoundTrips AccountId .text fun _ => True
  paymentId : RoundTrips PaymentId .text fun _ => True
  secret : RoundTrips Secret .text fun _ => True
  amount : RoundTrips Amount .natural fun _ => True
  operation : RoundTrips Operation Operation.shape fun _ => True
  paymentStatus : RoundTrips PaymentStatus PaymentStatus.shape fun _ => True
  card : RoundTrips Card Card.shape fun _ => True
  cardSnapshot : RoundTrips CardSnapshot CardSnapshot.shape fun _ => True
  account : RoundTrips Account Account.shape fun _ => True
  newAccount : RoundTrips NewAccount NewAccount.shape fun _ => True
  accountUpdate : RoundTrips AccountUpdate AccountUpdate.shape fun _ => True
  balanceUpdate : RoundTrips BalanceUpdate BalanceUpdate.shape fun _ => True
  payment : RoundTrips Payment Payment.shape fun _ => True
  paymentRequest : RoundTrips PaymentRequest PaymentRequest.shape fun _ => True
  paymentOutcome : RoundTrips PaymentOutcome PaymentOutcome.shape fun _ => True
  statementRequest : RoundTrips StatementRequest StatementRequest.shape fun _ => True
  /-- The length of a statement is a number of 64 bits. -/
  statementAck : RoundTrips StatementAck StatementAck.shape fun ack => ack.length < 1 <<< 64
  paymentRecorded : RoundTrips PaymentRecorded PaymentRecorded.shape fun _ => True
  compensationFailed : RoundTrips CompensationFailed CompensationFailed.shape fun _ => True

/-- What is absent is written as null, and fields that do not belong to the record are gone. -/
example : (read? (.object [("age", .integer 36), ("last_name", .string "Lind"), ("first_name", .null)]) :
      Option AccountUpdate).map write =
    some (.object [("first_name", .null), ("last_name", .string "Lind"), ("card_number", .null),
      ("card_expiry_month", .null), ("card_expiry_year", .null), ("card_security_code", .null)]) :=
  rfl

end CardHolds

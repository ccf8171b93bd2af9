import CardHolds.PaymentLog.Basic
import CardHolds.Proofs.Ledger.Holdings

/-!
# Rows and payments

A payment that can be stored is read back as it was (`read_of_ofPayment`).  `ReadAs rows ps` says
that the rows of a list stand for the payments of another, in order; a transaction inserts such rows
one at a time, and a commit adds them to the end of the log.
-/

namespace CardHolds

namespace PaymentRow
variable {row : PaymentRow} {p : Payment} {rows rows' : List PaymentRow} {ps ps' : List Payment}

/-- What is stored reads back. -/
theorem read_of_ofPayment (h : ofPayment p = .ok row) : row.read = .ok p := by
  unfold ofPayment at h
  obtain ⟨amount, hamount, h⟩ := ok_of_bind h
  cases h
  have hread := Amount.ofStored_of_toStored (ok_of_mapError hamount)
  have hoperation : Operation.ofText? p.operation.text = some p.operation :=
    Operation.ofText?_eq_some_iff.mpr rfl
  have hstatus : PaymentStatus.ofText? p.status.text = some p.status :=
    PaymentStatus.ofText?_eq_some_iff.mpr rfl
  simp only [read, Operation.ofText, PaymentStatus.ofText, hoperation, hstatus, hread]
  rfl

/-- The log can hold an amount below 2 ^ 63. -/
theorem exists_ofPayment (h : p.amount.units < 2 ^ 63) : ∃ row, ofPayment p = .ok row := by
  unfold ofPayment Amount.toStored
  rw [if_pos (by omega)]
  exact ⟨_, rfl⟩

theorem ofPayment_of_le (h : 2 ^ 63 ≤ p.amount.units) :
    ofPayment p = .error (.conversion (.quantity (.tooLarge p.amount))) := by
  unfold ofPayment Amount.toStored
  rw [if_neg (by omega)]
  rfl

theorem id_of_read (h : row.read = .ok p) : p.id = row.id := by
  unfold read at h
  obtain ⟨operation, -, h⟩ := ok_of_bind h
  obtain ⟨status, -, h⟩ := ok_of_bind h
  obtain ⟨amount, -, h⟩ := ok_of_bind h
  cases h
  rfl

/-- The rows stand for the payments, in the same order. -/
def ReadAs (rows : List PaymentRow) (ps : List Payment) : Prop :=
  rows.map read = ps.map .ok

theorem readAs_singleton (h : row.read = .ok p) : ReadAs [row] [p] := congrArg (fun r => [r]) h

theorem ReadAs.append (h : ReadAs rows ps) (h' : ReadAs rows' ps') :
    ReadAs (rows ++ rows') (ps ++ ps') := by
  rw [ReadAs, List.map_append, List.map_append, h, h']

theorem ReadAs.exists_row (h : ReadAs rows ps) (hp : p ∈ ps) : ∃ row ∈ rows, row.read = .ok p := by
  have hmem : Except.ok p ∈ rows.map read := h ▸ List.mem_map_of_mem hp
  exact List.mem_map.mp hmem

theorem ReadAs.mem_of_read (h : ReadAs rows ps) (hrow : row ∈ rows) (hread : row.read = .ok p) :
    p ∈ ps := by
  have hmem : (.ok p : Except LogError Payment) ∈ ps.map .ok :=
    h ▸ hread ▸ List.mem_map_of_mem hrow
  obtain ⟨p', hp', heq⟩ := List.mem_map.mp hmem
  cases heq
  exact hp'

/-- No two payments of a table of rows have the same name. -/
theorem ReadAs.nodup_ids {table : Table PaymentRow.id} (h : ReadAs table.rows ps) :
    (ps.map Payment.id).Nodup := by
  have hids : ps.map Payment.id = table.rows.map PaymentRow.id :=
    map_eq_map_of_ok h fun row p hp => id_of_read hp
  rw [hids]
  exact table.nodup_keys

end PaymentRow

open PaymentRow (ReadAs)

/-- A row of the log is found under the name of its payment. -/
theorem findPayment_of_mem {rows : Table PaymentRow.id} {row : PaymentRow} {p : Payment}
    (hrow : row ∈ rows.rows) (hread : row.read = .ok p) : findPayment rows p.id = .ok (some p) := by
  rw [findPayment, PaymentRow.id_of_read hread, Table.find?_key hrow]
  simp only [hread]
  rfl

namespace PaymentLog
variable {log : PaymentLog} {tx tx' : LogTransaction} {p : Payment}

theorem find_spec {id : PaymentId} (h : log.find id = .ok (some p)) :
    p.id = id ∧ ∃ row ∈ log.rows.rows, row.read = .ok p := by
  unfold find query at h
  split at h
  · cases h
  simp only [findPayment] at h
  cases hrow : log.rows.find? id with
  | none => rw [hrow] at h; cases h
  | some row =>
    rw [hrow] at h
    cases hread : row.read with
    | error e => simp only [hread] at h; cases h
    | ok p' =>
      simp only [hread] at h
      cases h
      exact ⟨(PaymentRow.id_of_read hread).trans (Table.key_of_find? hrow), row,
        Table.mem_of_find? hrow, hread⟩

/-- A row is inserted at the end of its transaction, or not at all. -/
theorem insert_cases (log : PaymentLog) (tx : LogTransaction) (fresh : PaymentId) (now : Timestamp)
    (payment : NewPayment) :
    (∃ e, log.insert tx fresh now payment = (.error e, tx)) ∨
      ∃ row, log.insert tx fresh now payment =
          (.ok (payment.recorded fresh now), { inserted := tx.inserted ++ [row] }) ∧
        row.read = .ok (payment.recorded fresh now) := by
  cases hrow : PaymentRow.ofPayment (payment.recorded fresh now) with
  | error e => exact Or.inl ⟨e, by simp only [insert, hrow]⟩
  | ok row =>
    cases hrows : log.rows.insertAll? (tx.inserted ++ [row]) with
    | none => exact Or.inl ⟨.database .paymentTaken, by simp only [insert, hrow, insertRow, hrows]⟩
    | some rows =>
      exact Or.inr ⟨row, by simp only [insert, hrow, insertRow, hrows],
        PaymentRow.read_of_ofPayment hrow⟩

theorem rows_of_commit {log' : PaymentLog} (h : log.commit tx = .ok log') :
    log'.rows.rows = log.rows.rows ++ tx.inserted := by
  unfold commit at h
  split at h
  · rename_i rows hrows
    cases h
    exact Table.rows_of_insertAll? hrows
  · cases h

variable {id : PaymentId} {new : NewPayment}

/-- A row under a free name is inserted and can be committed. -/
theorem insert_commit_of_lt (now : Timestamp) (unused : log.rows.find? id = none) (h : new.amount.units < 2 ^ 63) :
    ∃ row log', log.insert {} id now new = (.ok (new.recorded id now), { inserted := [row] }) ∧
      row.read = .ok (new.recorded id now) ∧ log.commit { inserted := [row] } = .ok log' ∧
      log'.rows.rows = log.rows.rows ++ [row] := by
  obtain ⟨row, hrow⟩ := PaymentRow.exists_ofPayment (p := new.recorded id now) h
  have hread := PaymentRow.read_of_ofPayment hrow
  have hid : row.id = id := (PaymentRow.id_of_read hread).symm
  have hrows : ∃ rows, log.rows.insertAll? [row] = some rows := by
    cases hinsert : log.rows.insert? row with
    | none =>
      obtain ⟨row', hrow'⟩ := Table.find?_of_insert?_eq_none hinsert
      rw [hid, unused] at hrow'
      cases hrow'
    | some rows => exact ⟨rows, by simp [Table.insertAll?, hinsert]⟩
  obtain ⟨rows, hrows⟩ := hrows
  have hcommit : log.commit { inserted := [row] } = .ok { log with rows := rows } := by
    simp only [commit, hrows]
  exact ⟨row, _, by simp only [insert, hrow, insertRow, List.nil_append, hrows], hread, hcommit,
    rows_of_commit hcommit⟩

theorem insert_of_le (log : PaymentLog) (id : PaymentId) (now : Timestamp)
    (h : 2 ^ 63 ≤ new.amount.units) :
    log.insert {} id now new = (.error (.conversion (.quantity (.tooLarge new.amount))), {}) := by
  have hrow := PaymentRow.ofPayment_of_le (p := new.recorded id now) h
  simp only [insert, hrow]
  rfl

end PaymentLog

end CardHolds

import CardHolds.Proofs.Ledger.Conversion
import CardHolds.Proofs.PaymentLog.Rows

/-!
# Conversion of payment rows

A row that reads back holds known words and an amount below `2 ^ 63`.  A log of such rows answers every
question as long as it is open, and refuses no new row but one whose amount is too large.
-/

namespace CardHolds

open PaymentRow (ReadAs)

/-- Whether an error tells that a value could not be converted. -/
def LogError.isConversion : LogError → Bool
  | conversion _ => true
  | _ => false

namespace PaymentRow
variable {row : PaymentRow} {p : Payment}

/-- What a row that reads back is stored as. -/
theorem stored_of_read (h : row.read = .ok p) :
    row.operation = p.operation.text ∧ row.status = p.status.text ∧
      row.amount.toInt = p.amount.units := by
  unfold read at h
  obtain ⟨operation, hoperation, h⟩ := ok_of_bind h
  obtain ⟨status, hstatus, h⟩ := ok_of_bind h
  obtain ⟨amount, hamount, h⟩ := ok_of_bind h
  cases h
  refine ⟨?_, ?_, Amount.ofStored_eq_ok_iff.mp (ok_of_mapError hamount)⟩
  · have hword := ok_of_mapError hoperation
    unfold Operation.ofText at hword
    split at hword
    · rename_i hfound
      cases hword
      exact (Operation.ofText?_eq_some_iff.mp hfound).symm
    · cases hword
  · have hword := ok_of_mapError hstatus
    unfold PaymentStatus.ofText at hword
    split at hword
    · rename_i hfound
      cases hword
      exact (PaymentStatus.ofText?_eq_some_iff.mp hfound).symm
    · cases hword

theorem amount_lt_of_read (h : row.read = .ok p) : p.amount.units < 2 ^ 63 := by
  have hamount := (stored_of_read h).2.2
  have hlt := row.amount.toInt_lt
  omega

theorem ReadAs.read_ne_error {rows : List PaymentRow} {ps : List Payment} (h : ReadAs rows ps)
    (hrow : row ∈ rows) (e : LogError) : row.read ≠ .error e := by
  intro he
  have hmem : row.read ∈ ps.map .ok := h ▸ List.mem_map_of_mem hrow
  obtain ⟨p, -, hp⟩ := List.mem_map.mp hmem
  rw [he] at hp
  cases hp

end PaymentRow

namespace PaymentLog
variable {log : PaymentLog} {ps : List Payment}

/-- A log that reads back finds every payment while it is open. -/
theorem find_error (h : ReadAs log.rows.rows ps) {id : PaymentId} {e : LogError}
    (he : log.find id = .error e) : e = .database .closed := by
  unfold find query at he
  split at he
  · cases he
    rfl
  · simp only [findPayment] at he
    split at he
    · rename_i row hrow
      exact absurd (error_of_map he) (h.read_ne_error (Table.mem_of_find? hrow) e)
    · cases he

theorem involving_error (h : ReadAs log.rows.rows ps) {account : AccountId} {e : LogError}
    (he : log.involving account = .error e) : e = .database .closed := by
  unfold involving query at he
  split at he
  · cases he
    rfl
  · obtain ⟨row, hrow, hread⟩ := exists_of_mapM_error he
    exact absurd hread (h.read_ne_error (List.mem_filter.mp hrow).1 e)

/-- **A row fails to convert only if its amount is too large.** -/
theorem tooLarge_of_insert {tx : LogTransaction} {id : PaymentId} {now : Timestamp}
    {payment : NewPayment} {e : LogError} (he : (log.insert tx id now payment).1 = .error e)
    (hc : e.isConversion = true) : 2 ^ 63 ≤ payment.amount.units := by
  by_contra hsmall
  obtain ⟨row, hrow⟩ := PaymentRow.exists_ofPayment (p := payment.recorded id now)
    (Nat.not_le.mp hsmall)
  simp only [insert, hrow, insertRow] at he
  split at he
  · rename_i hrefused
    split at hrefused
    · cases hrefused
    · cases hrefused
      cases he
      cases hc
  · cases he

end PaymentLog

end CardHolds

import CardHolds.Proofs.Lifecycle.Totals
import CardHolds.Proofs.PaymentLog.Conversion

/-!
# What can be asked of the payment log

A log whose rows stand for some payments answers every question as the list of these payments would
(`PaymentLog.find_eq`, `PaymentLog.involving_eq`).  `PaymentLog.insert_fresh` is about a row that
cannot be asked for yet: its name is not in the log.
-/

namespace CardHolds

open PaymentRow (ReadAs)

namespace PaymentRow
variable {row : PaymentRow} {p : Payment} {rows : List PaymentRow} {ps : List Payment}

theorem involves_of_read (h : row.read = .ok p) (x : AccountId) : row.involves x = p.involves x := by
  unfold read at h
  obtain ⟨operation, -, h⟩ := ok_of_bind h
  obtain ⟨status, -, h⟩ := ok_of_bind h
  obtain ⟨amount, -, h⟩ := ok_of_bind h
  cases h
  exact Bool.or_comm _ _

/-- The first row and the rest of rows that stand for payments. -/
theorem readAs_cons (h : ReadAs (row :: rows) ps) :
    ∃ p qs, ps = p :: qs ∧ row.read = .ok p ∧ ReadAs rows qs := by
  unfold ReadAs at h
  cases ps with
  | nil => cases h
  | cons p qs =>
    rw [List.map_cons, List.map_cons] at h
    obtain ⟨hp, hqs⟩ := List.cons_eq_cons.mp h
    exact ⟨p, qs, rfl, hp, hqs⟩

theorem ReadAs.find? (h : ReadAs rows ps) (id : PaymentId) :
    (rows.find? fun row => decide (row.id = id)).map read =
      (ps.find? fun p => decide (p.id = id)).map .ok := by
  induction rows generalizing ps with
  | nil =>
    rw [List.map_eq_nil_iff.mp h.symm]
    rfl
  | cons row rest ih =>
    obtain ⟨p, qs, rfl, hp, hqs⟩ := readAs_cons h
    have hid := id_of_read hp
    by_cases heq : row.id = id
    · rw [List.find?_cons_of_pos (by simpa using heq),
        List.find?_cons_of_pos (by simpa [hid] using heq)]
      exact congrArg some hp
    · rw [List.find?_cons_of_neg (by simpa using heq),
        List.find?_cons_of_neg (by simpa [hid] using heq)]
      exact ih hqs

theorem ReadAs.filter (h : ReadAs rows ps) (x : AccountId) :
    ReadAs (rows.filter fun row => row.involves x) (ps.filter fun p => p.involves x) := by
  induction rows generalizing ps with
  | nil =>
    rw [List.map_eq_nil_iff.mp h.symm]
    rfl
  | cons row rest ih =>
    obtain ⟨p, qs, rfl, hp, hqs⟩ := readAs_cons h
    have hx := involves_of_read hp x
    by_cases hinvolves : p.involves x = true
    · rw [List.filter_cons_of_pos (by rwa [hx]), List.filter_cons_of_pos hinvolves]
      exact (readAs_singleton hp).append (ih hqs)
    · rw [List.filter_cons_of_neg (by rwa [hx]), List.filter_cons_of_neg hinvolves]
      exact ih hqs

theorem ReadAs.mapM (h : ReadAs rows ps) : rows.mapM read = .ok ps := by
  induction rows generalizing ps with
  | nil =>
    rw [List.map_eq_nil_iff.mp h.symm]
    rfl
  | cons row rest ih =>
    obtain ⟨p, qs, rfl, hp, hqs⟩ := readAs_cons h
    rw [List.mapM_cons, hp, ih hqs]
    rfl

end PaymentRow

theorem findPayment_eq {rows : Table PaymentRow.id} {ps : List Payment} (h : ReadAs rows.rows ps)
    (id : PaymentId) : findPayment rows id = .ok (ps.find? fun p => decide (p.id = id)) := by
  have hfind : (rows.find? id).map PaymentRow.read = _ := h.find? id
  unfold findPayment
  cases hrow : rows.find? id with
  | none =>
    rw [hrow] at hfind
    rw [Option.map_eq_none_iff.mp hfind.symm]
  | some row =>
    rw [hrow] at hfind
    obtain ⟨p, hp, hread⟩ := Option.map_eq_some_iff.mp hfind.symm
    rw [hp]
    exact congrArg (Except.map some) hread.symm

namespace PaymentLog
variable {log : PaymentLog} {ps : List Payment}

theorem find_eq (h : ReadAs log.rows.rows ps) (id : PaymentId) :
    log.find id =
      if log.closed then .error (.database .closed)
      else .ok (ps.find? fun p => decide (p.id = id)) := by
  rw [← findPayment_eq h]
  rfl

theorem involving_eq (h : ReadAs log.rows.rows ps) (x : AccountId) :
    log.involving x =
      if log.closed then .error (.database .closed)
      else .ok (ps.filter fun p => p.involves x) := by
  rw [← (h.filter x).mapM]
  rfl

/-- The name that is given to a row is not in the log. -/
theorem insert_fresh {tx : LogTransaction} {id : PaymentId} {now : Timestamp} {payment : NewPayment}
    {p : Payment} {row : PaymentRow}
    (h : log.insert tx id now payment = (.ok p, { inserted := tx.inserted ++ [row] })) :
    row.id = id ∧ ∀ old ∈ log.rows.rows, old.id ≠ row.id := by
  cases hrow : PaymentRow.ofPayment (payment.recorded id now) with
  | error e =>
    simp only [insert, hrow] at h
    cases h
  | ok row' =>
    have hid : row'.id = id := (PaymentRow.id_of_read (PaymentRow.read_of_ofPayment hrow)).symm
    cases hrows : log.rows.insertAll? (tx.inserted ++ [row']) with
    | none =>
      simp only [insert, hrow, insertRow, hrows] at h
      cases h
    | some rows =>
      simp only [insert, hrow, insertRow, hrows, Prod.mk.injEq, LogTransaction.mk.injEq,
        List.append_cancel_left_eq] at h
      obtain ⟨-, hsame⟩ := h
      cases hsame
      refine ⟨hid, fun old hold heq => ?_⟩
      -- the row comes after the old one in a table without repeated names
      have hnodup := rows.nodup_keys
      rw [Table.rows_of_insertAll? hrows, List.map_append] at hnodup
      exact (List.nodup_append.mp hnodup).2.2 old.id (List.mem_map_of_mem hold) row.id
        (List.mem_map_of_mem (List.mem_append_right _ (List.mem_singleton_self row))) heq

end PaymentLog

end CardHolds

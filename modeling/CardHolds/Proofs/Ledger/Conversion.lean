import CardHolds.Proofs.Ledger.Holdings

/-!
# Conversion of stored quantities

A quantity can be stored if it is below `2 ^ 63`, and a row can be read if it holds nothing below zero
and its version is not outgrown.  Here is which error each operation on quantities gives otherwise, and
which errors an update of an account can give at all (`LedgerStore.updateBalance_error`).
-/

namespace CardHolds

theorem error_of_map {ε α β : Type} {f : α → β} {x : Except ε α} {e : ε}
    (h : x.map f = .error e) : x = .error e := by
  cases x with
  | error e' => cases h; rfl
  | ok a => cases h

/-- If a list of computations fails, one of them does. -/
theorem exists_of_mapM_error {ε α β : Type} {f : α → Except ε β} {xs : List α} {e : ε}
    (h : xs.mapM f = .error e) : ∃ x ∈ xs, f x = .error e := by
  induction xs with
  | nil => cases h
  | cons x rest ih =>
    rw [List.mapM_cons] at h
    cases hx : f x with
    | error e' =>
      rw [hx] at h
      cases h
      exact ⟨x, List.mem_cons_self, hx⟩
    | ok y =>
      rw [hx] at h
      cases hrest : rest.mapM f with
      | error e' =>
        rw [hrest] at h
        cases h
        obtain ⟨x', hx', he⟩ := ih hrest
        exact ⟨x', List.mem_cons_of_mem x hx', he⟩
      | ok ys =>
        rw [hrest] at h
        cases h

/-- Whether an error tells that a value could not be converted. -/
def LedgerError.isConversion : LedgerError → Bool
  | conversion _ => true
  | _ => false

theorem storeQuantity_eq {a : Amount} :
    storeQuantity a = if a.units < 2 ^ 63 then .ok (Int64.ofNat a.units)
      else .error (.conversion (.quantity (.tooLarge a))) := by
  unfold storeQuantity Amount.toStored
  by_cases h : a.units < 2 ^ 63
  · rw [if_pos h, if_pos (by omega)]
    rfl
  · rw [if_neg h, if_neg (by omega)]
    rfl

/-- What fits the store is stored. -/
theorem exists_mapM_storeQuantity {q : Option Amount} (h : ∀ a, q = some a → a.units < 2 ^ 63) :
    ∃ stored, q.mapM storeQuantity = .ok stored := by
  cases q with
  | none => exact ⟨none, rfl⟩
  | some a =>
    rw [Option.mapM_some, storeQuantity_eq, if_pos (h a rfl)]
    exact ⟨_, rfl⟩

/-- What is not stored does not fit. -/
theorem mapM_storeQuantity_error {q : Option Amount} {e : LedgerError}
    (h : q.mapM storeQuantity = .error e) :
    ∃ a, q = some a ∧ 2 ^ 63 ≤ a.units ∧ e = .conversion (.quantity (.tooLarge a)) := by
  cases q with
  | none => cases h
  | some a =>
    rw [Option.mapM_some, storeQuantity_eq] at h
    split at h
    · cases h
    · rename_i hlarge
      cases h
      exact ⟨a, rfl, Nat.not_lt.mp hlarge, rfl⟩

theorem readQuantity_error {n : Int64} {e : LedgerError} (h : readQuantity n = .error e) :
    n.toInt < 0 ∧ e.isConversion = true := by
  unfold readQuantity Amount.ofStored at h
  split at h
  · cases h
  · rename_i hneg
    cases h
    exact ⟨Int.not_le.mp hneg, rfl⟩

namespace AccountRow
variable {row : AccountRow} {statement statement' : List PaymentId} {a a' : Account}

theorem belowZero?_of_nonneg (hbalance : 0 ≤ row.balance.toInt) (hblocked : 0 ≤ row.blocked.toInt) :
    row.belowZero? = none := by
  unfold belowZero?
  rw [if_neg (Int.not_lt.mpr hbalance), if_neg (Int.not_lt.mpr hblocked)]

/-- A row that cannot be read has an outgrown version, or a quantity below zero. -/
theorem read_error {e : LedgerError} (h : row.read statement = .error e) :
    e = .database .versionOutgrown ∨ row.belowZero? ≠ none ∧ e.isConversion = true := by
  unfold read at h
  cases hversion : row.version with
  | outgrown =>
    rw [hversion] at h
    cases h
    exact Or.inl rfl
  | counted n =>
    rw [hversion] at h
    refine Or.inr ?_
    cases hbalance : readQuantity row.balance with
    | error e' =>
      rw [hbalance] at h
      cases h
      obtain ⟨hneg, hconversion⟩ := readQuantity_error hbalance
      refine ⟨fun hnone => ?_, hconversion⟩
      exact absurd (nonneg_of_belowZero? hnone).1 (Int.not_le.mpr hneg)
    | ok balance =>
      rw [hbalance] at h
      cases hblocked : readQuantity row.blocked with
      | error e' =>
        rw [hblocked] at h
        cases h
        obtain ⟨hneg, hconversion⟩ := readQuantity_error hblocked
        refine ⟨fun hnone => ?_, hconversion⟩
        exact absurd (nonneg_of_belowZero? hnone).2 (Int.not_le.mpr hneg)
      | ok blocked =>
        rw [hblocked] at h
        cases h

/-- A row that can be read holds nothing below zero. -/
theorem belowZero?_of_read (h : row.read statement = .ok a) : row.belowZero? = none := by
  have hheld : (row.balance.toInt, row.blocked.toInt) = ((a.balance.units : ℤ), (a.blocked.units : ℤ)) :=
    (read_spec h).2.2
  obtain ⟨hbalance, hblocked⟩ := Prod.mk.inj hheld
  exact belowZero?_of_nonneg (by omega) (by omega)

/-- Two readings of one row differ in the statement alone. -/
theorem read_eq_of_read (h : row.read statement = .ok a) (h' : row.read statement' = .ok a') :
    a' = { a with statement := a'.statement } := by
  unfold read at h h'
  obtain ⟨version, hversion, h⟩ := ok_of_bind h
  obtain ⟨balance, hbalance, h⟩ := ok_of_bind h
  obtain ⟨blocked, hblocked, h⟩ := ok_of_bind h
  rw [hversion] at h'
  obtain ⟨_, ⟨⟩, h'⟩ := ok_of_bind h'
  rw [hbalance] at h'
  obtain ⟨_, ⟨⟩, h'⟩ := ok_of_bind h'
  rw [hblocked] at h'
  obtain ⟨_, ⟨⟩, h'⟩ := ok_of_bind h'
  cases h
  cases h'
  rfl

end AccountRow

/-- The quantities of an update fit the store. -/
def BalanceUpdate.Storable (u : BalanceUpdate) : Prop :=
  (∀ a, u.balance = some a → a.units < 2 ^ 63) ∧ ∀ a, u.blocked = some a → a.units < 2 ^ 63

theorem RowVersion.read_error {v : RowVersion} {e : LedgerError} (h : v.read = .error e) :
    e = .database .versionOutgrown := by
  cases v with
  | counted n => cases h
  | outgrown =>
    cases h
    rfl

/-- Why an update is refused, or not answered. -/
theorem LedgerStore.updateBalance_error {s : LedgerStore} {id : AccountId} {u : BalanceUpdate}
    {e : LedgerError} (he : (s.updateBalance id u).1 = .error e) :
    (¬ u.Storable ∧ e.isConversion = true) ∨ e = .accountNotFound id ∨ (∃ cause, e = .database cause) ∨
      ∃ expected actual, u.expectedVersion = some expected ∧
        e = .versionConflict id expected actual := by
  unfold LedgerStore.updateBalance at he
  split at he
  · rename_i e' hbalance
    obtain ⟨a, ha, hlarge, rfl⟩ := mapM_storeQuantity_error hbalance
    cases he
    exact Or.inl ⟨fun hu => absurd (hu.1 a ha) (Nat.not_lt.mpr hlarge), rfl⟩
  · rename_i e' hblocked
    obtain ⟨a, ha, hlarge, rfl⟩ := mapM_storeQuantity_error hblocked
    cases he
    exact Or.inl ⟨fun hu => absurd (hu.2 a ha) (Nat.not_lt.mpr hlarge), rfl⟩
  · split at he
    · cases he
      exact Or.inr (Or.inl rfl)
    · split at he
      · -- the version is the expected one
        simp only at he
        split at he
        · cases he
          exact Or.inr (Or.inr (Or.inl ⟨_, rfl⟩))
        · rename_i hbelow
          rcases AccountRow.read_error he with hversion | ⟨hne, -⟩
          · exact Or.inr (Or.inr (Or.inl ⟨_, hversion⟩))
          · exact absurd hbelow hne
      · split at he
        · rename_i hversion
          cases he
          exact Or.inr (Or.inr (Or.inl ⟨_, RowVersion.read_error hversion⟩))
        · rename_i hexpected
          cases he
          exact Or.inr (Or.inr (Or.inr ⟨_, _, hexpected, rfl⟩))
        · cases he
          exact Or.inr (Or.inl rfl)

end CardHolds

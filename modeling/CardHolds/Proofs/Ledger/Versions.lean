import CardHolds.Proofs.Ledger.Holdings
import Mathlib.Data.Option.Basic

/-!
# Versions of an account

Every write to the row of an account counts its version up, so the rows that an account goes through
are ordered by their versions, and two of them with the same version are the same row
(`AccountRow.Precedes`).  The one exception is a version that has outgrown its numbers; such a row
cannot be read and no update can expect it.

What was read off a row stays good for all later rows of its account in the same sense
(`Reading.Precedes`).  Hence an update that expects the version of a reading and is written meets the
quantities of that reading (`Reading.Precedes.of_expects`).
-/

namespace CardHolds

namespace RowVersion

/-- The place of a version in the order of writes. -/
def rank : RowVersion → ℤ
  | counted n => n.toInt
  | outgrown => 2 ^ 63

@[simp] theorem rank_counted (n : Int64) : (counted n).rank = n.toInt := rfl

theorem rank_counted_lt (n : Int64) : (counted n).rank < 2 ^ 63 := n.toInt_lt

theorem rank_le (v : RowVersion) : v.rank ≤ 2 ^ 63 := by
  cases v with
  | counted n => exact le_of_lt (rank_counted_lt n)
  | outgrown => exact le_refl _

theorem toInt_lt_add_one {n : Int64} (hn : n ≠ Int64.maxValue) : n.toInt < (n + 1).toInt := by
  have hle := n.toInt_le
  have hne : n.toInt ≠ Int64.maxValue.toInt := fun h => hn (Int64.toInt_inj.mp h)
  have hmin := n.le_toInt
  rw [Int64.toInt_maxValue] at hle hne
  rw [Int64.toInt_add, Int64.toInt_one, Int.bmod_eq_of_le] <;> omega

/-- A write counts the version up until it is outgrown. -/
theorem rank_lt_next (v : RowVersion) : v.rank < v.next.rank ∨ v.next = outgrown := by
  cases v with
  | outgrown => exact Or.inr rfl
  | counted n =>
    by_cases hn : n = Int64.maxValue
    · exact Or.inr (if_pos hn)
    · have hnext : (counted n).next = counted (n + 1) := if_neg hn
      rw [hnext]
      exact Or.inl (toInt_lt_add_one hn)

end RowVersion

namespace AccountRow
variable {row row₁ row₂ : AccountRow}

/-- The second row is the first, or one that its account went through later. -/
def Precedes (row row' : AccountRow) : Prop :=
  row' = row ∨ row.version.rank < row'.version.rank ∨ row'.version = .outgrown

theorem Precedes.refl (row : AccountRow) : row.Precedes row := Or.inl rfl

theorem Precedes.rank_le (h : row.Precedes row₁) : row.version.rank ≤ row₁.version.rank := by
  rcases h with rfl | hlt | hout
  · exact le_refl _
  · exact le_of_lt hlt
  · rw [hout]
    exact row.version.rank_le

theorem precedes_of_next (h : row₁.version = row.version.next) : row.Precedes row₁ := by
  rcases row.version.rank_lt_next with hlt | hout
  · exact Or.inr (Or.inl (h ▸ hlt))
  · exact Or.inr (Or.inr (h ▸ hout))

end AccountRow

/-! ## Readings -/

namespace Reading
variable {r : Reading} {row row' : AccountRow} {a : Account}

/-- The reading was made of the row, or of one that its account went through before. -/
def Precedes (r : Reading) (row : AccountRow) : Prop :=
  r.version.toInt ≤ row.version.rank ∧ (row.version = .counted r.version → row.held = r.held)

theorem precedes_of_version (hv : row.version = .counted r.version) (hh : row.held = r.held) :
    r.Precedes row :=
  ⟨by rw [hv, RowVersion.rank_counted], fun _ => hh⟩

/-- A reading stays good. -/
theorem Precedes.trans (h : r.Precedes row) (h' : row.Precedes row') : r.Precedes row' := by
  refine ⟨le_trans h.1 h'.rank_le, fun hv => ?_⟩
  rcases h' with rfl | hlt | hout
  · exact h.2 hv
  · rw [hv] at hlt
    exact absurd h.1 (not_le_of_gt hlt)
  · rw [hv] at hout
    cases hout

/-- The next reading is of no earlier version, and of the same quantities if the version is the
same. -/
theorem Precedes.next (h : r.Precedes row) (hv : row.version = .counted a.version)
    (hh : row.held = a.held) :
    r.version ≤ a.version ∧ (r.version = a.version → r.held = a.held) := by
  refine ⟨Int64.le_iff_toInt_le.mpr ?_, fun heq => ?_⟩
  · have hle := h.1
    rwa [hv] at hle
  · rw [← h.2 (heq ▸ hv), hh]

/-- **A row that still carries the version of a reading holds what was read.** -/
theorem Precedes.of_expects {v : Int64} (h : r.Precedes row)
    (hexp : LedgerStore.expects (some v) row = true) (hle : v ≤ r.version) :
    r.version = v ∧ row.held = r.held := by
  have hv : row.version = .counted v := of_decide_eq_true hexp
  have hge : r.version ≤ v := by
    have hrank := h.1
    rw [hv] at hrank
    exact Int64.le_iff_toInt_le.mpr hrank
  have heq : r.version = v := Int64.le_antisymm hge hle
  exact ⟨heq, h.2 (heq ▸ hv)⟩

end Reading

/-! ## Operations -/

namespace LedgerStore
variable {s s₁ s₂ : LedgerStore} {x : AccountId}

/-- From one store to the next the account keeps its row or gets a later one; an account that is
unknown stays so. -/
def Advances (x : AccountId) (s s' : LedgerStore) : Prop :=
  Option.Rel AccountRow.Precedes (s.accounts.find? x) (s'.accounts.find? x)

/-- As `Advances`, but the account may have been removed. -/
def Descends (x : AccountId) (s s' : LedgerStore) : Prop :=
  ∀ row', s'.accounts.find? x = some row' →
    ∃ row, s.accounts.find? x = some row ∧ row.Precedes row'

theorem advances_of_eq (h : s₁.accounts.find? x = s.accounts.find? x) : Advances x s s₁ := by
  rw [Advances, h]
  cases s.accounts.find? x with
  | none => exact .none
  | some row => exact .some (.refl row)

theorem Advances.descends (h : Advances x s s₁) : Descends x s s₁ := fun row' h' => by
  rw [Advances, h'] at h
  cases hrow : s.accounts.find? x with
  | none => rw [hrow] at h; cases h
  | some row =>
    rw [hrow] at h
    cases h with
    | some hp => exact ⟨row, rfl, hp⟩

theorem Advances.exists_row {row : AccountRow} (h : Advances x s s₁)
    (hrow : s.accounts.find? x = some row) :
    ∃ row', s₁.accounts.find? x = some row' ∧ row.Precedes row' := by
  rw [Advances, hrow] at h
  cases hrow' : s₁.accounts.find? x with
  | none => rw [hrow'] at h; cases h
  | some row' =>
    rw [hrow'] at h
    cases h with
    | some hp => exact ⟨row', rfl, hp⟩

theorem Advances.find?_eq_none_iff (h : Advances x s s₁) :
    s₁.accounts.find? x = none ↔ s.accounts.find? x = none := by
  constructor
  · intro hnone
    cases hrow : s.accounts.find? x with
    | none => rfl
    | some row =>
      obtain ⟨row', hrow', -⟩ := h.exists_row hrow
      rw [hnone] at hrow'
      cases hrow'
  · intro hnone
    cases hrow : s₁.accounts.find? x with
    | none => rfl
    | some row' =>
      obtain ⟨row, hrow, -⟩ := h.descends row' hrow
      rw [hnone] at hrow
      cases hrow

theorem Descends.refl (x : AccountId) (s : LedgerStore) : Descends x s s :=
  fun row h => ⟨row, h, .refl row⟩

theorem advances_insert {id : AccountId} (hx : x ≠ id) (now : Timestamp) (details : NewAccount) :
    Advances x s (s.insert id now details).2 :=
  advances_of_eq ((find?_insert s id now details x).trans (if_neg hx))

/-- An account that could not be opened was not stored. -/
theorem insert_of_not_isOk {id : AccountId} {now : Timestamp} {details : NewAccount}
    (h : (s.insert id now details).1.isOk = false) : (s.insert id now details).2 = s := by
  cases hins : s.accounts.insert? (.opened id now details) with
  | none => simp only [insert, hins]
  | some accounts =>
    have hok : ∀ statement, ((AccountRow.opened id now details).read statement).isOk = true :=
      fun statement => (AccountRow.isOk_read_iff rfl).mpr ⟨0, rfl⟩
    simp only [insert, hins, readRow, hok] at h
    cases h

theorem advances_amend (id : AccountId) (update : AccountUpdate) :
    Advances x s (s.amend id update).2 := by
  have hfind := find?_amend s id update x
  split at hfind
  · rw [Advances, hfind]
    cases s.accounts.find? x with
    | none => exact .none
    | some row => exact .some (AccountRow.precedes_of_next rfl)
  · exact advances_of_eq hfind

theorem Written.advances {id : AccountId} {u : BalanceUpdate} {row row' : AccountRow}
    (h : s.Written id u row row') : Advances x s (s.updateBalance id u).2 := by
  have hfind := h.stored x
  split at hfind
  · rename_i hx
    rw [Advances, hfind, hx, h.found]
    exact .some (AccountRow.precedes_of_next h.version)
  · exact advances_of_eq hfind

theorem advances_updateBalance (id : AccountId) (u : BalanceUpdate) :
    Advances x s (s.updateBalance id u).2 := by
  rcases s.updateBalance_cases id u with ⟨e, he⟩ | ⟨row, row', h⟩
  · exact advances_of_eq (by rw [he])
  · exact h.advances

theorem advances_deposit (cardNumber : String) (amount : Amount) :
    Advances x s (s.deposit cardNumber amount).2 := by
  rw [deposit_eq]
  cases s.planDeposit cardNumber amount with
  | error e => exact advances_of_eq rfl
  | ok plan =>
    cases plan with
    | none => exact advances_of_eq rfl
    | some plan => exact advances_updateBalance plan.account plan.update

theorem descends_delete (id : AccountId) : Descends x s (s.delete id).2 := fun row' h => by
  rw [find?_delete] at h
  split at h
  · cases h
  · exact ⟨row', h, .refl row'⟩

end LedgerStore

namespace Ledger
variable {α : Type} {x : AccountId}

theorem descends_change {l : Ledger}
    {operation : LedgerStore → Except LedgerError α × LedgerStore}
    (h : LedgerStore.Descends x l.store (operation l.store).2) :
    LedgerStore.Descends x l.store (l.change operation).2.store := by
  rcases l.store_change operation with hstore | hstore
  · rw [hstore]
    exact .refl x l.store
  · rw [hstore]
    exact h

theorem store_create_of_not_isOk {l : Ledger} {id : AccountId} {now : Timestamp}
    {details : NewAccount} (h : (l.create id now details).1.isOk = false) :
    (l.create id now details).2.store = l.store := by
  unfold create change at h ⊢
  split at h
  · rename_i hclosed
    rw [if_pos hclosed]
  · rename_i hopen
    rw [if_neg hopen]
    exact LedgerStore.insert_of_not_isOk h

/-- **No operation takes a row back or makes one up**, except that the fresh name is given to an
account that was opened. -/
theorem descends_perform (l : Ledger) (fresh : AccountId) (now : Timestamp) (command : Command)
    (hx : x = fresh → (command.opens && (l.perform fresh now command).1.isOk) = false) :
    LedgerStore.Descends x l.store (l.perform fresh now command).2.store := by
  cases command with
  | create details =>
    by_cases hfresh : x = fresh
    · have hstore : (l.create fresh now details).2.store = l.store :=
        store_create_of_not_isOk ((isOk_map _ _).symm.trans (hx hfresh))
      exact (LedgerStore.advances_of_eq (by rw [perform, hstore])).descends
    · exact descends_change (LedgerStore.advances_insert hfresh now details).descends
  | account id => exact .refl x l.store
  | statement id => exact .refl x l.store
  | amend id update => exact descends_change (LedgerStore.advances_amend id update).descends
  | delete id => exact descends_change (LedgerStore.descends_delete id)
  | deposit card amount => exact descends_change (LedgerStore.advances_deposit card amount).descends
  | updateBalance id update =>
    exact descends_change (LedgerStore.advances_updateBalance id update).descends
  | append id payment =>
    exact descends_change
      (LedgerStore.advances_of_eq (LedgerStore.find?_append _ id payment x)).descends

/-- No operation closes a ledger or opens it again. -/
theorem closed_perform (l : Ledger) (fresh : AccountId) (now : Timestamp) (command : Command) :
    (l.perform fresh now command).2.closed = l.closed := by
  have hchange : ∀ {α : Type} (operation : LedgerStore → Except LedgerError α × LedgerStore),
      (l.change operation).2.closed = l.closed := fun operation => by
    unfold change
    split <;> rfl
  cases command <;> first | rfl | exact hchange _

end Ledger

end CardHolds

import CardHolds.Proofs.Ledger.Conversion
import CardHolds.Proofs.Ledger.Versions

/-!
# Versions identify contents

An operation leaves the row of an account as it is, or removes it, or writes it and counts its version
up by one (`AccountRow.Step`); which operations write is told by their arguments and answers
(`Ledger.writes`).  Hence the version of an account that exists before and after a run of operations
has gone up by the number of writes, and without a write the row is the same
(`Ledger.row_performAll`).

Main statement (`Ledger.versions_identify`): two readings with the same version show the same account,
statements aside, and an update that expects the version of a reading is written exactly if the
account exists and has not been written since.
-/

namespace CardHolds

namespace RowVersion

/-- A version that is not the last one counts up by one. -/
theorem next_of_rank_lt {v : RowVersion} (h : v.rank < 2 ^ 63 - 1) :
    ∃ n, v.next = counted n ∧ v.next.rank = v.rank + 1 := by
  cases v with
  | outgrown => exact absurd h (by decide)
  | counted n =>
    have hrank : n.toInt < 2 ^ 63 - 1 := h
    have hn : n ≠ Int64.maxValue := by
      rintro rfl
      rw [Int64.toInt_maxValue] at hrank
      omega
    have hnext : (counted n).next = counted (n + 1) := if_neg hn
    have hmin := n.le_toInt
    rw [hnext]
    refine ⟨n + 1, rfl, ?_⟩
    rw [rank_counted, rank_counted, Int64.toInt_add, Int64.toInt_one, Int.bmod_eq_of_le] <;> omega

/-- A version that is not outgrown can be read. -/
theorem exists_counted {v : RowVersion} (h : v.rank < 2 ^ 63) : ∃ n, v = counted n := by
  cases v with
  | counted n => exact ⟨n, rfl⟩
  | outgrown => exact absurd h (lt_irrefl _)

end RowVersion

/-! ## One operation -/

/-- What an operation makes of the row of an account, and whether it has written it. -/
inductive AccountRow.Step (before after : Option AccountRow) : Bool → Prop
  | kept (h : after = before) : Step before after false
  | written {row row' : AccountRow} (found : before = some row) (left : after = some row')
      (version : row'.version.rank = row.version.rank + 1) : Step before after true
  | removed (h : after = none) : Step before after false

namespace LedgerStore
variable {s : LedgerStore} {x : AccountId}

/-- The version of an account, if it exists, is not the last one. -/
def VersionBelow (x : AccountId) (s : LedgerStore) : Prop :=
  ∀ row, s.accounts.find? x = some row → row.version.rank < 2 ^ 63 - 1

instance (x : AccountId) (s : LedgerStore) : Decidable (s.VersionBelow x) :=
  inferInstanceAs (Decidable (∀ row ∈ s.accounts.find? x, row.version.rank < 2 ^ 63 - 1))

theorem step_amend (below : s.VersionBelow x) (id : AccountId) (update : AccountUpdate) :
    AccountRow.Step (s.accounts.find? x) ((s.amend id update).2.accounts.find? x)
      (decide (id = x) && !update.isEmpty && s.accounts.contains x) := by
  rw [find?_amend]
  by_cases hid : id = x
  · cases hempty : update.isEmpty with
    | true =>
      rw [if_neg (by simp), Bool.not_true, Bool.and_false, Bool.false_and]
      exact .kept rfl
    | false =>
      rw [if_pos ⟨hid.symm, by simp⟩, decide_eq_true hid, Table.contains]
      cases hrow : s.accounts.find? x with
      | none => exact .kept rfl
      | some row =>
        obtain ⟨-, -, hrank⟩ := RowVersion.next_of_rank_lt (below row hrow)
        exact .written rfl rfl hrank
  · rw [if_neg fun h => hid h.1.symm, decide_eq_false hid, Bool.false_and, Bool.false_and]
    exact .kept rfl

/-- An answer that shows the account. -/
def shows (x : AccountId) : Except LedgerError Account → Bool
  | .ok a => decide (a.id = x)
  | .error _ => false

theorem step_updateBalance (below : s.VersionBelow x) (id : AccountId) (u : BalanceUpdate) :
    AccountRow.Step (s.accounts.find? x) ((s.updateBalance id u).2.accounts.find? x)
      (shows x (s.updateBalance id u).1) := by
  rcases s.updateBalance_cases id u with ⟨e, he⟩ | ⟨row, row', hwritten⟩
  · rw [he]
    exact .kept rfl
  · rw [hwritten.stored]
    by_cases hid : id = x
    · have hrow : s.accounts.find? x = some row := hid ▸ hwritten.found
      obtain ⟨n, hnext, hrank⟩ := RowVersion.next_of_rank_lt (below row hrow)
      cases hanswer : (s.updateBalance id u).1 with
      | error e =>
        have hok := hwritten.answered.mpr ⟨n, hwritten.version.trans hnext⟩
        rw [hanswer] at hok
        cases hok
      | ok a =>
        rw [if_pos hid.symm, shows, decide_eq_true ((hwritten.account a hanswer).trans hid)]
        exact .written hrow rfl (by rw [hwritten.version, hrank])
    · rw [if_neg (Ne.symm hid)]
      have hshows : shows x (s.updateBalance id u).1 = false := by
        cases hanswer : (s.updateBalance id u).1 with
        | error e => rfl
        | ok a => exact decide_eq_false ((hwritten.account a hanswer) ▸ hid)
      rw [hshows]
      exact .kept rfl

theorem step_deposit (below : s.VersionBelow x) (cardNumber : String) (amount : Amount) :
    AccountRow.Step (s.accounts.find? x) ((s.deposit cardNumber amount).2.accounts.find? x)
      (shows x (Ledger.require .cardNotFound (s.deposit cardNumber amount).1)) := by
  rw [deposit_eq]
  cases s.planDeposit cardNumber amount with
  | error e => exact .kept rfl
  | ok plan =>
    cases plan with
    | none => exact .kept rfl
    | some plan =>
      have hanswer : Ledger.require .cardNotFound ((s.updateBalance plan.account plan.update).1.map
          some) = (s.updateBalance plan.account plan.update).1 := by
        cases (s.updateBalance plan.account plan.update).1 <;> rfl
      simp only [hanswer]
      exact step_updateBalance below plan.account plan.update

end LedgerStore

/-! ## Versioned updates -/

namespace LedgerStore
variable {s : LedgerStore} {x : AccountId} {u : BalanceUpdate} {row : AccountRow} {v : Int64}

/-- An update that expects the version of a row is written. -/
theorem isOk_updateBalance (hu : u.Storable) (hv : u.expectedVersion = some v)
    (hrow : s.accounts.find? x = some row) (hversion : row.version = .counted v)
    (hnonneg : row.belowZero? = none) (below : row.version.rank < 2 ^ 63 - 1) :
    (s.updateBalance x u).1.isOk = true := by
  obtain ⟨balance, hb⟩ := exists_mapM_storeQuantity hu.1
  obtain ⟨blocked, hk⟩ := exists_mapM_storeQuantity hu.2
  obtain ⟨hbalance, hblocked⟩ := AccountRow.nonneg_of_belowZero? hnonneg
  have hexp : expects u.expectedVersion row = true := by
    rw [hv]
    exact decide_eq_true hversion
  have hq : (row.write balance blocked).belowZero? = none := by
    refine AccountRow.belowZero?_of_nonneg ?_ ?_
    · refine le_of_le_of_eq ?_ (toInt_getD_of_mapM hb).symm
      cases u.balance with
      | none => exact hbalance
      | some a => exact Int.natCast_nonneg a.units
    · refine le_of_le_of_eq ?_ (toInt_getD_of_mapM hk).symm
      cases u.blocked with
      | none => exact hblocked
      | some a => exact Int.natCast_nonneg a.units
  obtain ⟨n, hnext, -⟩ := RowVersion.next_of_rank_lt below
  exact (written hb hk hrow hexp hq).answered.mpr ⟨n, hnext⟩

/-- An update that expects another version meets a conflict. -/
theorem updateBalance_conflict {n : Int64} (hu : u.Storable) (hv : u.expectedVersion = some v)
    (hrow : s.accounts.find? x = some row) (hversion : row.version = .counted n) (hne : n ≠ v) :
    (s.updateBalance x u).1 = .error (.versionConflict x v n) := by
  obtain ⟨balance, hb⟩ := exists_mapM_storeQuantity hu.1
  obtain ⟨blocked, hk⟩ := exists_mapM_storeQuantity hu.2
  have hexp : expects (some v) row = false := by
    refine decide_eq_false fun h => hne ?_
    cases hversion.symm.trans h
    rfl
  simp only [updateBalance, hb, hk, hrow, hv, hexp, hversion, RowVersion.read, Bool.false_eq_true,
    if_false]

theorem updateBalance_missing (hu : u.Storable) (hrow : s.accounts.find? x = none) :
    (s.updateBalance x u).1 = .error (.accountNotFound x) := by
  obtain ⟨balance, hb⟩ := exists_mapM_storeQuantity hu.1
  obtain ⟨blocked, hk⟩ := exists_mapM_storeQuantity hu.2
  simp only [updateBalance, hb, hk, hrow]

/-- An update that expects no version meets no conflict. -/
theorem updateBalance_ne_conflict (s : LedgerStore) (x : AccountId)
    (hv : u.expectedVersion = none) (y : AccountId) (v n : Int64) :
    (s.updateBalance x u).1 ≠ .error (.versionConflict y v n) := by
  intro h
  rcases updateBalance_error h with ⟨-, hc⟩ | hc | ⟨cause, hc⟩ | ⟨expected, actual, hexpected, -⟩
  · cases hc
  · cases hc
  · cases hc
  · rw [hv] at hexpected
    cases hexpected

end LedgerStore

/-! ## Runs of operations -/

namespace Ledger

/-- An operation with the name and the date for the account that it may open. -/
structure Stamped where
  fresh : AccountId
  now : Timestamp
  command : Command

/-- Carries out an operation. -/
def does (l : Ledger) (op : Stamped) : Except LedgerError Answer × Ledger :=
  l.perform op.fresh op.now op.command

/-- Whether an operation writes identity, card or quantities of an account: a change of identity or
card that is not empty, or an update or a deposit that is answered with the account. -/
def writes (x : AccountId) (l : Ledger) (op : Stamped) : Bool :=
  match op.command with
  | .amend id update =>
    decide (id = x) && !update.isEmpty && (!l.closed && l.store.accounts.contains x)
  | .deposit card amount => LedgerStore.shows x (l.deposit card amount).1
  | .updateBalance id u => LedgerStore.shows x (l.updateBalance id u).1
  | .create _ | .account _ | .statement _ | .delete _ | .append _ _ => false

/-- The ledger after a run. -/
def performAll (l : Ledger) (run : List Stamped) : Ledger := run.foldl (fun l op => (l.does op).2) l

/-- How often a run writes an account. -/
def writesIn (x : AccountId) (l : Ledger) : List Stamped → Nat
  | [] => 0
  | op :: rest => (l.writes x op).toNat + (l.does op).2.writesIn x rest

/-- The names for new accounts are fresh: they are distinct, and no account carries one. -/
structure Mints (l : Ledger) (run : List Stamped) : Prop where
  nodup : ((run.filter fun op => op.command.opens).map Stamped.fresh).Nodup
  unused : ∀ op ∈ run, op.command.opens = true → l.store.accounts.find? op.fresh = none

/-- The row of an account after an operation that does not open it. -/
theorem step_does (l : Ledger) (op : Stamped) {x : AccountId} (below : l.store.VersionBelow x)
    (hx : op.command.opens = true → x ≠ op.fresh) :
    AccountRow.Step (l.store.accounts.find? x) ((l.does op).2.store.accounts.find? x)
      (l.writes x op) := by
  obtain ⟨store, closed⟩ := l
  obtain ⟨fresh, now, command⟩ := op
  cases closed with
  | true =>
    -- a closed ledger refuses everything and keeps its store
    cases command with
    | amend id update =>
      have hwrites : writes x ⟨store, true⟩ ⟨fresh, now, .amend id update⟩ = false :=
        Bool.and_false _
      rw [hwrites]
      exact .kept rfl
    | _ => exact .kept rfl
  | false =>
    cases command with
    | create details =>
      exact .kept ((store.find?_insert fresh now details x).trans (if_neg (hx rfl)))
    | account id => exact .kept rfl
    | statement id => exact .kept rfl
    | amend id update => exact store.step_amend below id update
    | delete id =>
      by_cases hid : x = id
      · exact .removed ((store.find?_delete id x).trans (if_pos hid))
      · exact .kept ((store.find?_delete id x).trans (if_neg hid))
    | deposit card amount => exact store.step_deposit below card amount
    | updateBalance id u => exact store.step_updateBalance below id u
    | append id payment => exact .kept (store.find?_append id payment x)

/-- At no time in a run is the version of an account the last one. -/
def VersionsBelow (x : AccountId) (l : Ledger) : List Stamped → Prop
  | [] => l.store.VersionBelow x
  | op :: rest => l.store.VersionBelow x ∧ VersionsBelow x (l.does op).2 rest

instance decidableVersionsBelow (x : AccountId) :
    (l : Ledger) → (run : List Stamped) → Decidable (VersionsBelow x l run)
  | l, [] => inferInstanceAs (Decidable (l.store.VersionBelow x))
  | l, op :: rest =>
    have := decidableVersionsBelow x (l.does op).2 rest
    inferInstanceAs (Decidable (l.store.VersionBelow x ∧ VersionsBelow x (l.does op).2 rest))

section Run
variable {x : AccountId} {l : Ledger} {op : Stamped} {run early late : List Stamped}

theorem VersionsBelow.head (h : VersionsBelow x l run) : l.store.VersionBelow x := by
  cases run with
  | nil => exact h
  | cons op rest => exact h.1

theorem VersionsBelow.last (h : VersionsBelow x l run) :
    (l.performAll run).store.VersionBelow x := by
  induction run generalizing l with
  | nil => exact h
  | cons op rest ih => exact ih h.2

theorem VersionsBelow.after (h : VersionsBelow x l (early ++ late)) :
    VersionsBelow x (l.performAll early) late := by
  induction early generalizing l with
  | nil => exact h
  | cons op rest ih => exact ih h.2

/-- **The version of an account counts its writes.**  If it exists after a run in which it was not
opened, it existed before, its version has gone up by the number of writes, and without a write its
row is the same. -/
theorem row_performAll (below : VersionsBelow x l run)
    (hx : ∀ op ∈ run, op.command.opens = true → x ≠ op.fresh) {row' : AccountRow}
    (hrow' : (l.performAll run).store.accounts.find? x = some row') :
    ∃ row, l.store.accounts.find? x = some row ∧
      row'.version.rank = row.version.rank + l.writesIn x run ∧
      (l.writesIn x run = 0 → row' = row) := by
  induction run generalizing l with
  | nil => exact ⟨row', hrow', (add_zero _).symm, fun _ => rfl⟩
  | cons op rest ih =>
    obtain ⟨mid, hmid, hversion, hsame⟩ := ih below.2
      (fun op hop => hx op (List.mem_cons_of_mem _ hop)) hrow'
    have hstep := l.step_does op below.head (hx op List.mem_cons_self)
    rw [writesIn]
    generalize l.writes x op = b at hstep ⊢
    cases hstep with
    | kept h =>
      refine ⟨mid, h.symm.trans hmid, ?_, fun hzero => hsame ?_⟩
      · rw [Bool.toNat_false, zero_add, hversion]
      · rwa [Bool.toNat_false, zero_add] at hzero
    | written found left version =>
      rename_i row row₁
      cases left.symm.trans hmid
      refine ⟨row, found, ?_, fun hzero => ?_⟩
      · rw [hversion, version, Bool.toNat_true, Nat.cast_add, Nat.cast_one, add_assoc]
      · rw [Bool.toNat_true] at hzero
        omega
    | removed h =>
      rw [h] at hmid
      cases hmid

/-- An account that is read is a row of an open ledger, read with its statement. -/
theorem read_of_account {a : Account} (h : l.account x = .ok a) :
    l.closed = false ∧ ∃ row, l.store.accounts.find? x = some row ∧
      row.read (l.store.statement row.id) = .ok a :=
  ⟨open_of_account h, exists_row_of_account h⟩

theorem Mints.tail (h : Mints l (op :: run)) : Mints (l.does op).2 run := by
  have hnodup := h.nodup
  refine ⟨?_, fun op' hop' hopens => ?_⟩
  · rw [List.filter_cons] at hnodup
    split at hnodup
    · rw [List.map_cons] at hnodup
      exact hnodup.of_cons
    · exact hnodup
  · have hunused := h.unused op' (List.mem_cons_of_mem _ hop') hopens
    cases hfound : (l.does op).2.store.accounts.find? op'.fresh with
    | none => rfl
    | some row =>
      -- only the operation itself could have given the name away, and the names are distinct
      have hfresh : op'.fresh = op.fresh →
          (op.command.opens && (l.does op).1.isOk) = false := by
        intro heq
        cases hop : op.command.opens with
        | false => rfl
        | true =>
          rw [List.filter_cons, if_pos hop, List.map_cons, List.nodup_cons] at hnodup
          exact absurd (List.mem_map.mpr ⟨op', List.mem_filter.mpr ⟨hop', hopens⟩, heq⟩) hnodup.1
      obtain ⟨row₀, hrow₀, -⟩ := l.descends_perform op.fresh op.now op.command hfresh row hfound
      rw [hunused] at hrow₀
      cases hrow₀

/-- Names that are fresh for a run are not given to an account that exists in the midst of it. -/
theorem Mints.ne_of_exists (h : Mints l (early ++ late)) {row : AccountRow}
    (hrow : (l.performAll early).store.accounts.find? x = some row) :
    ∀ op ∈ late, op.command.opens = true → x ≠ op.fresh := by
  induction early generalizing l with
  | nil =>
    rintro op hop hopens rfl
    cases (h.unused op hop hopens).symm.trans hrow
  | cons op rest ih => exact ih h.tail hrow

/-- What an update answers that fits the store and expects the version of an earlier reading. -/
structure AnswersVersion (x : AccountId) (v : Int64) (untouched : Prop) (l : Ledger)
    (answer : Except LedgerError Account) : Prop where
  isOk_iff : answer.isOk = true ↔ l.store.accounts.contains x = true ∧ untouched
  conflict : ∀ row, l.store.accounts.find? x = some row → ¬ untouched →
    ∃ current, row.version = .counted current ∧ answer = .error (.versionConflict x v current)
  missing : l.store.accounts.find? x = none → answer = .error (.accountNotFound x)

theorem updateBalance_of_open {l : Ledger} (hopen : l.closed = false) (x : AccountId)
    (u : BalanceUpdate) : (l.updateBalance x u).1 = (l.store.updateBalance x u).1 := by
  unfold updateBalance change
  rw [hopen]
  rfl

theorem closed_performAll (l : Ledger) (run : List Stamped) : (l.performAll run).closed = l.closed := by
  induction run generalizing l with
  | nil => rfl
  | cons op rest ih => exact (ih _).trans (l.closed_perform op.fresh op.now op.command)

theorem answersVersion_of_missing {l : Ledger} {u : BalanceUpdate} {v : Int64} {untouched : Prop}
    (hopen : l.closed = false) (hu : u.Storable) (hrow : l.store.accounts.find? x = none) :
    AnswersVersion x v untouched l (l.updateBalance x u).1 := by
  rw [updateBalance_of_open hopen, LedgerStore.updateBalance_missing hu hrow]
  refine ⟨iff_of_false Bool.false_ne_true fun h => ?_, fun row h => ?_, fun _ => rfl⟩
  · rw [Table.contains, hrow] at h
    exact Bool.false_ne_true h.1
  · cases hrow.symm.trans h

/-- The update expects the version that `row₁` shows, and meets the row that `n` writes have made of
`row₁`. -/
theorem answersVersion_of_row {l : Ledger} {u : BalanceUpdate} {a₁ : Account} {row₁ row₂ : AccountRow}
    {entries : List PaymentId} {n : Nat} (hopen : l.closed = false) (hu : u.Storable)
    (hv : u.expectedVersion = some a₁.version) (hread : row₁.read entries = .ok a₁)
    (hrow : l.store.accounts.find? x = some row₂)
    (hversion : row₂.version.rank = row₁.version.rank + n) (hsame : n = 0 → row₂ = row₁)
    (hrank : row₂.version.rank < 2 ^ 63 - 1) :
    AnswersVersion x a₁.version (n = 0) l (l.updateBalance x u).1 := by
  rw [updateBalance_of_open hopen]
  have hversion₁ : row₁.version = .counted a₁.version := (AccountRow.read_spec hread).2.1
  have hcontains : l.store.accounts.contains x = true := by
    rw [Table.contains, hrow]
    rfl
  have hmissing : l.store.accounts.find? x = none →
      (l.store.updateBalance x u).1 = .error (.accountNotFound x) := fun h => by
    cases hrow.symm.trans h
  by_cases hzero : n = 0
  · -- not written: the row is the one that was read, and it can be written
    rw [hsame hzero] at hrow hrank
    have hok := LedgerStore.isOk_updateBalance hu hv hrow hversion₁
      (AccountRow.belowZero?_of_read hread) hrank
    exact ⟨iff_of_true hok ⟨hcontains, hzero⟩, fun _ _ h => absurd hzero h, hmissing⟩
  · -- written: the version is later than the one that was read
    obtain ⟨current, hcurrent⟩ := RowVersion.exists_counted (hrank.trans (by decide))
    have hne : current ≠ a₁.version := by
      rintro rfl
      rw [hcurrent, hversion₁] at hversion
      omega
    have hconflict := LedgerStore.updateBalance_conflict hu hv hrow hcurrent hne
    refine ⟨?_, fun row h _ => ?_, hmissing⟩
    · rw [hconflict]
      exact iff_of_false Bool.false_ne_true fun h => hzero h.2
    · cases hrow.symm.trans h
      exact ⟨current, hcurrent, hconflict⟩

/-- **Versions identify contents.**  `early` and `late` are two parts of a run of operations that gives
every new account a fresh name and never brings the account `x` to the last version.  From the end of
`early` to the end of `late` the version of `x` goes up by the number of writes; readings at these two
points that show the same version differ in the statement at most; an update that fits the store and
expects the version of the first reading is written if `x` exists and was not written in `late`, and
otherwise names the current version; an update that expects no version meets no conflict. -/
theorem versions_identify (minted : Mints l (early ++ late))
    (below : VersionsBelow x l (early ++ late)) :
    let l₁ := l.performAll early
    let l₂ := l₁.performAll late
    (∀ row₁ row₂, l₁.store.accounts.find? x = some row₁ → l₂.store.accounts.find? x = some row₂ →
      row₂.version.rank = row₁.version.rank + l₁.writesIn x late) ∧
    (∀ a₁ a₂, l₁.account x = .ok a₁ → l₂.account x = .ok a₂ → a₂.version = a₁.version →
      a₂ = { a₁ with statement := a₂.statement }) ∧
    (∀ a₁ u, l₁.account x = .ok a₁ → u.Storable → u.expectedVersion = some a₁.version →
      AnswersVersion x a₁.version (l₁.writesIn x late = 0) l₂ (l₂.updateBalance x u).1) ∧
    ∀ u, u.expectedVersion = none → ∀ y v n,
      (l₂.updateBalance x u).1 ≠ .error (.versionConflict y v n) := by
  intro l₁ l₂
  have hlate : VersionsBelow x l₁ late := below.after
  have hrows : ∀ row₁ row₂, l₁.store.accounts.find? x = some row₁ →
      l₂.store.accounts.find? x = some row₂ →
      row₂.version.rank = row₁.version.rank + l₁.writesIn x late ∧
        (l₁.writesIn x late = 0 → row₂ = row₁) := by
    intro row₁ row₂ hrow₁ hrow₂
    obtain ⟨row, hrow, hversion, hsame⟩ := row_performAll hlate (minted.ne_of_exists hrow₁) hrow₂
    cases hrow.symm.trans hrow₁
    exact ⟨hversion, hsame⟩
  refine ⟨fun row₁ row₂ h₁ h₂ => (hrows row₁ row₂ h₁ h₂).1, fun a₁ a₂ h₁ h₂ heq => ?_,
    fun a₁ u h₁ hu hv => ?_, fun u hv y v n => ?_⟩
  · obtain ⟨-, row₁, hrow₁, hread₁⟩ := read_of_account h₁
    obtain ⟨-, row₂, hrow₂, hread₂⟩ := read_of_account h₂
    obtain ⟨hversion, hsame⟩ := hrows row₁ row₂ hrow₁ hrow₂
    have hversion₁ := (AccountRow.read_spec hread₁).2.1
    have hversion₂ := (AccountRow.read_spec hread₂).2.1
    have hzero : l₁.writesIn x late = 0 := by
      rw [hversion₁, hversion₂, heq] at hversion
      omega
    rw [hsame hzero] at hread₂
    exact AccountRow.read_eq_of_read hread₁ hread₂
  · obtain ⟨hopen, row₁, hrow₁, hread₁⟩ := read_of_account h₁
    have hopen₂ : l₂.closed = false := (closed_performAll l₁ late).trans hopen
    cases hrow₂ : l₂.store.accounts.find? x with
    | none => exact answersVersion_of_missing hopen₂ hu hrow₂
    | some row₂ =>
      obtain ⟨hversion, hsame⟩ := hrows row₁ row₂ hrow₁ hrow₂
      exact answersVersion_of_row hopen₂ hu hv hread₁ hrow₂ hversion hsame (hlate.last row₂ hrow₂)
  · intro h
    unfold updateBalance change at h
    split at h
    · cases h
    · exact l₂.store.updateBalance_ne_conflict x hv y v n h

end Run

end Ledger

namespace StaleReading

open Ledger Sample

def account : AccountId := ⟨"a"⟩

def stamped (command : Command) : Stamped := ⟨account, default, command⟩

/-- An account is opened. -/
def early : List Stamped :=
  [stamped (.create (details "Cora"))]

/-- A statement entry and an empty change write nothing; a deposit, a new name and an update without
quantities are three writes. -/
def late : List Stamped :=
  [stamped (.append account ⟨"p"⟩), stamped (.amend account {}),
    stamped (.deposit card.number .zero),
    stamped (.amend account { firstName := some "Carla" }), stamped (.updateBalance account {})]

/-- The account as it was opened. -/
def opened : Account :=
  ⟨account, "Cora", "Lind", card, .zero, .zero, [], 0, default⟩

/-- The ledger after all of this. -/
def written : Ledger := (({} : Ledger).performAll early).performAll late

/-- An update that was computed from the account as it was opened meets version 3. -/
theorem versions_identify_staleReading :
    Mints {} (early ++ late) ∧ VersionsBelow account {} (early ++ late) ∧
      (({} : Ledger).performAll early).account account = .ok opened ∧
      (written.updateBalance account { expectedVersion := some 0 }).1 =
        .error (.versionConflict account 0 3) := by
  have minted : Mints {} (early ++ late) := ⟨by decide, by decide⟩
  have below : VersionsBelow account {} (early ++ late) := by decide +kernel
  have hread : (({} : Ledger).performAll early).account account = .ok opened := by decide +kernel
  obtain ⟨-, -, hupdate, -⟩ := versions_identify minted below
  have hanswer := hupdate opened { expectedVersion := some 0 } hread ⟨nofun, nofun⟩ rfl
  have hversion : (written.store.accounts.find? account).map AccountRow.version =
      some (.counted 3) := by decide +kernel
  obtain ⟨row, hrow, hrow3⟩ := Option.map_eq_some_iff.mp hversion
  obtain ⟨current, hcurrent, hconflict⟩ := hanswer.conflict row hrow (by decide +kernel)
  cases hrow3.symm.trans hcurrent
  exact ⟨minted, below, hread, hconflict⟩

end StaleReading

end CardHolds

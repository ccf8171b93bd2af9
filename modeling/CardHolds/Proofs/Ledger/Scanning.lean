import CardHolds.Proofs.Ledger.Failure
import CardHolds.Proofs.Ledger.Quantities
import CardHolds.Proofs.Text.ByteOrder
import Mathlib.Data.List.Sort
import Mathlib.Order.Lattice

/-!
# Scans of a ledger that changes

A scan reads page after page, and the ledger may be another one each time.  What links its pages is
the cursor, the last account delivered: a page starts right after it, in the order of the names, so
nothing is delivered twice; and an account that is skipped is one that is not there, or comes later.

`Scan.Course` is the recursion of `Scan.run` as a relation, with one case for each way in which a
page can turn out; the properties of a scan are inductions on it.

Main statement (`Scan.run_delivers`): what a scan delivers from any sequence of ledgers, and all that
it delivers from one that does not change.
-/

namespace CardHolds

/-- A list of computations succeeds just if each of them does. -/
theorem mapM_eq_ok_iff {ε α β : Type} {f : α → Except ε β} {xs : List α} {ys : List β} :
    xs.mapM f = .ok ys ↔ xs.map f = ys.map .ok := by
  induction xs generalizing ys with
  | nil =>
    cases ys with
    | nil => exact iff_of_true rfl rfl
    | cons y ys => exact iff_of_false (fun h => by cases h) (fun h => by cases h)
  | cons x xs ih =>
    rw [List.mapM_cons, List.map_cons]
    constructor
    · intro h
      obtain ⟨y, hy, h⟩ := ok_of_bind h
      obtain ⟨ys', hys, h⟩ := ok_of_bind h
      cases h
      rw [hy, ih.mp hys, List.map_cons]
    · intro h
      cases ys with
      | nil => cases h
      | cons y ys =>
        rw [List.map_cons, List.cons.injEq] at h
        rw [h.1, ih.mpr h.2]
        rfl

namespace AccountId

theorem lt_irrefl (a : AccountId) : ¬ a < a :=
  String.lt_irrefl a.text

theorem lt_trans {a b c : AccountId} (hab : a < b) (hbc : b < c) : a < c :=
  String.lt_trans hab hbc

end AccountId

/-- The name comes after the cursor of a scan. -/
def Ahead (after : Option AccountId) (id : AccountId) : Prop := ∀ x ∈ after, x < id

instance (after : Option AccountId) (id : AccountId) : Decidable (Ahead after id) :=
  inferInstanceAs (Decidable (∀ x ∈ after, x < id))

theorem ahead_none (id : AccountId) : Ahead none id := fun _ hx => by cases hx

theorem ahead_some_iff {x id : AccountId} : Ahead (some x) id ↔ x < id :=
  ⟨fun h => h x rfl, fun h y hy => by cases hy; exact h⟩

/-! ## Pages -/

namespace LedgerStore
variable {s : LedgerStore} {after : Option AccountId} {limit : Nat} {row : AccountRow}

/-- The rows after the cursor, in the order of their names. -/
def rowsAfter (s : LedgerStore) (after : Option AccountId) : List AccountRow :=
  s.sortedRows.filter fun row => decide (Ahead after row.id)

theorem pageRows_eq : s.pageRows after limit = (s.rowsAfter after).take limit := by
  cases after with
  | none =>
    have hall : s.rowsAfter none = s.sortedRows :=
      List.filter_eq_self.mpr fun row _ => decide_eq_true (ahead_none row.id)
    rw [hall]
    rfl
  | some x =>
    have hsame : s.rowsAfter (some x) = s.sortedRows.filter fun row => decide (x < row.id) :=
      List.filter_congr fun row _ => decide_eq_decide.mpr ahead_some_iff
    rw [hsame]
    rfl

theorem mem_rowsAfter : row ∈ s.rowsAfter after ↔ row ∈ s.accounts.rows ∧ Ahead after row.id := by
  rw [rowsAfter, List.mem_filter, decide_eq_true_iff, sortedRows, List.mem_mergeSort]

/-- Names are distinct, so the order of the rows is strict. -/
theorem pairwise_sortedRows (s : LedgerStore) :
    s.sortedRows.Pairwise fun a b => a.id < b.id := by
  have trans (a b c : AccountRow) (hab : decide (a.id.text ≤ b.id.text) = true)
      (hbc : decide (b.id.text ≤ c.id.text) = true) : decide (a.id.text ≤ c.id.text) = true :=
    decide_eq_true (String.le_trans (of_decide_eq_true hab) (of_decide_eq_true hbc))
  have total (a b : AccountRow) :
      (decide (a.id.text ≤ b.id.text) || decide (b.id.text ≤ a.id.text)) = true :=
    Bool.or_eq_true_iff.mpr
      ((String.le_total a.id.text b.id.text).imp decide_eq_true decide_eq_true)
  have hle := List.pairwise_mergeSort trans total s.accounts.rows
  have hne : s.sortedRows.Pairwise fun a b => a.id ≠ b.id :=
    List.pairwise_map.mp
      (((List.mergeSort_perm _ _).map AccountRow.id).nodup_iff.mpr s.accounts.nodup_keys)
  refine (List.pairwise_and_iff.mpr ⟨hle, hne⟩).imp fun {a b} h => ?_
  by_contra hnot
  exact h.2 (AccountId.ext (String.le_antisymm (of_decide_eq_true h.1) (String.not_lt.mp hnot)))

/-- There is no other way to put the rows in the order of their names. -/
theorem sortedRows_eq {rows : List AccountRow} (hperm : rows.Perm s.accounts.rows)
    (hlt : rows.Pairwise fun a b => a.id < b.id) : s.sortedRows = rows :=
  ((List.mergeSort_perm _ _).trans hperm.symm).eq_of_pairwise
    (fun _ _ _ _ hab hba => absurd (AccountId.lt_trans hab hba) (AccountId.lt_irrefl _))
    s.pairwise_sortedRows hlt

theorem pairwise_rowsAfter (s : LedgerStore) (after : Option AccountId) :
    (s.rowsAfter after).Pairwise fun a b => a.id < b.id :=
  s.pairwise_sortedRows.filter _

/-- After a page the cursor has passed the rows of this page, and no others. -/
theorem rowsAfter_of_split {pre post : List AccountRow}
    (h : s.rowsAfter after = pre ++ row :: post) : s.rowsAfter (some row.id) = post := by
  have hrow : row ∈ s.rowsAfter after := h ▸ List.mem_append_right pre List.mem_cons_self
  have hahead := (mem_rowsAfter.mp hrow).2
  have hsub : s.rowsAfter (some row.id) =
      (s.rowsAfter after).filter fun r => decide (row.id < r.id) := by
    rw [rowsAfter, rowsAfter, List.filter_filter]
    refine List.filter_congr fun r _ => ?_
    rw [← Bool.decide_and, decide_eq_decide, ahead_some_iff]
    exact ⟨fun hlt => ⟨hlt, fun x hx => AccountId.lt_trans (hahead x hx) hlt⟩, And.left⟩
  have hpairwise := s.pairwise_rowsAfter after
  rw [h, List.pairwise_append, List.pairwise_cons] at hpairwise
  obtain ⟨-, ⟨hpost, -⟩, hpre⟩ := hpairwise
  rw [hsub, h, List.filter_append, List.filter_cons_of_neg, List.filter_eq_nil_iff.mpr,
    List.filter_eq_self.mpr, List.nil_append]
  · exact fun r hr => decide_eq_true (hpost r hr)
  · intro r hr hlt
    exact AccountId.lt_irrefl _
      (AccountId.lt_trans (of_decide_eq_true hlt) (hpre r hr row List.mem_cons_self))
  · exact fun hlt => AccountId.lt_irrefl _ (of_decide_eq_true hlt)

/-- What is after the last account of a page is the rest of the accounts. -/
theorem map_readRow_rowsAfter {accounts : List Account} {z : Account}
    (hread : (s.rowsAfter after).map s.readRow = accounts.map .ok)
    (hz : (accounts.take limit).getLast? = some z) :
    (s.rowsAfter (some z.id)).map s.readRow = (accounts.drop limit).map .ok := by
  obtain ⟨init, hinit⟩ := List.getLast?_eq_some_iff.mp hz
  rw [← List.take_append_drop limit accounts, hinit, List.append_assoc, List.singleton_append,
    List.map_append, List.map_cons] at hread
  obtain ⟨pre, rest, hsplit, -, hrest⟩ := List.map_eq_append_iff.mp hread
  obtain ⟨row, post, rfl, hrow, hpost⟩ := List.map_eq_cons_iff.mp hrest
  rw [(AccountRow.read_spec hrow).1, rowsAfter_of_split hsplit]
  exact hpost

theorem page_eq_ok_iff {page : List Account} :
    s.page after limit = .ok page ↔ (s.pageRows after limit).map s.readRow = page.map .ok := by
  rw [← mapM_eq_ok_iff]
  constructor
  · intro h
    obtain ⟨versions, -, h⟩ := ok_of_bind h
    exact h
  · intro h
    cases hversions : (s.pageRows after limit).mapM fun row => row.version.read with
    | ok versions => exact (congrArg (· >>= fun _ => _) hversions).trans h
    | error e =>
      -- a row whose version cannot be read is not read at all
      obtain ⟨row, hrow, hversion⟩ := exists_of_mapM_error hversions
      have hread : s.readRow row = .error e := by
        rw [readRow, AccountRow.read, hversion]
        rfl
      have hmem := List.mem_map_of_mem (f := s.readRow) hrow
      rw [mapM_eq_ok_iff.mp h, hread] at hmem
      obtain ⟨a, -, ha⟩ := List.mem_map.mp hmem
      cases ha

end LedgerStore

namespace Ledger
variable {l : Ledger} {after : Option AccountId} {limit : Nat} {page : List Account}
  {row : AccountRow} {id : AccountId} {a : Account}

theorem account_of_mem (hopen : l.closed = false) (hrow : row ∈ l.store.accounts.rows) :
    l.account row.id = l.store.readRow row := by
  simp only [account, Ledger.read, hopen, Bool.false_eq_true, if_false, LedgerStore.fetch,
    Table.find?_key hrow]
  cases l.store.readRow row <;> rfl

theorem id_of_account (h : l.account id = .ok a) : a.id = id := by
  obtain ⟨-, -, hid, -⟩ := account_spec h
  exact hid

/-- A page is delivered if the ledger is open and all rows of the page can be read; it holds the
accounts of these rows as they are stored. -/
theorem page_eq_ok_iff : l.page after limit = .ok page ↔ l.closed = false ∧
    page.map .ok = (l.store.pageRows after limit).map fun row => l.account row.id := by
  unfold Ledger.page Ledger.read
  by_cases hclosed : l.closed = true
  · rw [if_pos hclosed, hclosed]
    exact iff_of_false (fun h => by cases h) (fun h => by cases h.1)
  · have hopen := eq_false_of_ne_true hclosed
    have hread : (l.store.pageRows after limit).map (fun row => l.account row.id) =
        (l.store.pageRows after limit).map l.store.readRow :=
      List.map_congr_left fun row hrow => account_of_mem hopen (LedgerStore.mem_of_pageRows hrow)
    rw [if_neg hclosed, LedgerStore.page_eq_ok_iff, hread, eq_comm]
    exact (and_iff_right hopen).symm

/-- A page is refused if the ledger is closed or a row of the page cannot be read. -/
theorem page_error_iff : (∃ e, l.page after limit = .error e) ↔
    l.closed = true ∨ ∃ row ∈ l.store.pageRows after limit, row.Unreadable := by
  constructor
  · rintro ⟨e, he⟩
    by_contra hnot
    obtain ⟨hopen, hreadable⟩ := not_or.mp hnot
    have hall : ∀ row ∈ l.store.pageRows after limit, ∃ a, l.store.readRow row = .ok a := by
      intro row hrow
      cases hread : l.store.readRow row with
      | ok a => exact ⟨a, rfl⟩
      | error e' => exact absurd ⟨row, hrow, (AccountRow.unreadable_iff _).mpr ⟨e', hread⟩⟩ hreadable
    unfold Ledger.page Ledger.read at he
    rw [if_neg hopen] at he
    cases hmap : (l.store.pageRows after limit).mapM l.store.readRow with
    | ok page =>
      have hpage := LedgerStore.page_eq_ok_iff.mpr (mapM_eq_ok_iff.mp hmap)
      simp only [hpage] at he
      cases he
    | error e' =>
      obtain ⟨row, hrow, hread⟩ := exists_of_mapM_error hmap
      obtain ⟨a, ha⟩ := hall row hrow
      rw [hread] at ha
      cases ha
  · intro h
    cases hpage : l.page after limit with
    | error e => exact ⟨e, rfl⟩
    | ok page =>
      obtain ⟨hopen, hpage⟩ := page_eq_ok_iff.mp hpage
      rcases h with hclosed | ⟨row, hrow, hunreadable⟩
      · rw [hopen] at hclosed
        cases hclosed
      · obtain ⟨e, he⟩ := (AccountRow.unreadable_iff (l.store.statement row.id)).mp hunreadable
        have hmem := List.mem_map_of_mem (f := fun row => l.account row.id) hrow
        rw [← hpage, account_of_mem hopen (LedgerStore.mem_of_pageRows hrow),
          LedgerStore.readRow, he] at hmem
        obtain ⟨a, -, ha⟩ := List.mem_map.mp hmem
        cases ha

/-- The names on a page are those of its rows. -/
theorem map_id_of_page (h : l.page after limit = .ok page) :
    page.map Account.id = (l.store.pageRows after limit).map AccountRow.id := by
  obtain ⟨-, hpage⟩ := page_eq_ok_iff.mp h
  exact (map_eq_map_of_ok hpage.symm fun row a ha => id_of_account ha)

end Ledger

/-! ## The course of a scan -/

namespace Scan

/-- The cursor after some pages: the last account delivered. -/
def cursor (after : Option AccountId) (pages : List (List Account)) : Option AccountId :=
  (pages.flatten.getLast?.map Account.id).or after

theorem cursor_cons {after : Option AccountId} {page : List Account} {z : Account}
    (h : page.getLast? = some z) (pages : List (List Account)) :
    cursor after (page :: pages) = cursor (some z.id) pages := by
  rw [cursor, cursor, List.flatten_cons, List.getLast?_append, h]
  cases pages.flatten.getLast? <;> rfl

/-- The pages that a scan reads from one ledger after the other, the error that ends it, and whether
it has ended. -/
inductive Course (size : Nat) : Option AccountId → List Ledger → List (List Account) →
    Option LedgerError → Bool → Prop
  /-- There is no further ledger yet. -/
  | waiting {after : Option AccountId} : Course size after [] [] none false
  /-- The page is refused. -/
  | refused {after : Option AccountId} {l : Ledger} {rest : List Ledger} {e : LedgerError}
      (read : l.page after size = .error e) : Course size after (l :: rest) [] (some e) true
  /-- The page is not full. -/
  | last {after : Option AccountId} {l : Ledger} {rest : List Ledger} {page : List Account}
      (read : l.page after size = .ok page) (short : page.length < size) :
      Course size after (l :: rest) [page] none true
  /-- The page is full, and the next one starts after its last account. -/
  | more {after : Option AccountId} {l : Ledger} {rest : List Ledger} {page : List Account}
      {z : Account} {pages : List (List Account)} {failure : Option LedgerError} {ended : Bool}
      (read : l.page after size = .ok page) (full : page.length = size)
      (last : page.getLast? = some z) (course : Course size (some z.id) rest pages failure ended) :
      Course size after (l :: rest) (page :: pages) failure ended

theorem run_of_ended {scan : Scan} (h : scan.ended = true) (ledgers : List Ledger) :
    scan.run ledgers = ([], scan) := by
  induction ledgers with
  | nil => rfl
  | cons l rest ih => simp only [run, nextPage, h, if_true, ih, List.nil_append]

theorem length_le_of_page {l : Ledger} {after : Option AccountId} {limit : Nat}
    {page : List Account} (h : l.page after limit = .ok page) : page.length ≤ limit := by
  have hlength := congrArg List.length (Ledger.map_id_of_page h)
  rw [List.length_map, List.length_map, LedgerStore.pageRows_eq] at hlength
  rw [hlength]
  exact List.length_take_le _ _

section Step
variable {scan : Scan} {l : Ledger} {page : List Account} (hended : scan.ended = false)
include hended

theorem nextPage_of_error {e : LedgerError} (hread : l.page scan.after scan.pageSize = .error e) :
    scan.nextPage l = ([.error e], { scan with ended := true }) := by
  simp only [nextPage, hended, hread, Bool.false_eq_true, if_false]

theorem nextPage_of_short (hread : l.page scan.after scan.pageSize = .ok page)
    (hshort : page.length < scan.pageSize) : scan.nextPage l =
      (page.map .ok, { scan with after := page.getLast?.map Account.id, ended := true }) := by
  simp only [nextPage, hended, hread, hshort, decide_true, Bool.true_or, Bool.false_eq_true, if_false]

theorem nextPage_of_full (hread : l.page scan.after scan.pageSize = .ok page)
    (hfull : page.length = scan.pageSize) {z : Account} (hlast : page.getLast? = some z) :
    scan.nextPage l = (page.map .ok, { scan with after := some z.id, ended := false }) := by
  have hne : page ≠ [] := by
    rintro rfl
    cases hlast
  simp only [nextPage, hended, hread, hfull, hlast, List.isEmpty_eq_false_iff.mpr hne,
    Nat.lt_irrefl, Option.map_some, decide_false, Bool.or_false, Bool.false_eq_true, if_false]

end Step

/-- Every scan has its course. -/
theorem exists_course {scan : Scan} (hended : scan.ended = false) (hsize : 0 < scan.pageSize)
    (ledgers : List Ledger) : ∃ pages failure,
      Course scan.pageSize scan.after ledgers pages failure (scan.run ledgers).2.ended ∧
        (scan.run ledgers).1 = pages.flatten.map .ok ++ failure.toList.map .error := by
  induction ledgers generalizing scan with
  | nil =>
    refine ⟨[], none, ?_, rfl⟩
    rw [run, hended]
    exact .waiting
  | cons l rest ih =>
    cases hread : l.page scan.after scan.pageSize with
    | error e =>
      simp only [run, nextPage_of_error hended hread, run_of_ended]
      exact ⟨[], some e, .refused hread, rfl⟩
    | ok page =>
      by_cases hshort : page.length < scan.pageSize
      · simp only [run, nextPage_of_short hended hread hshort, run_of_ended]
        refine ⟨[page], none, .last hread hshort, ?_⟩
        simp only [List.flatten_cons, List.flatten_nil, List.append_nil, Option.toList_none,
          List.map_nil]
      · have hfull : page.length = scan.pageSize :=
          Nat.le_antisymm (length_le_of_page hread) (Nat.le_of_not_lt hshort)
        obtain ⟨z, hz⟩ : ∃ z, page.getLast? = some z :=
          ⟨_, List.getLast?_eq_some_getLast (List.ne_nil_of_length_pos (hfull ▸ hsize))⟩
        obtain ⟨pages, failure, hcourse, hitems⟩ :=
          @ih { scan with after := some z.id, ended := false } rfl hsize
        simp only [run, nextPage_of_full hended hread hfull hz]
        refine ⟨page :: pages, failure, .more hread hfull hz hcourse, ?_⟩
        rw [hitems, List.flatten_cons, List.map_append, List.append_assoc]

/-! ## What a page holds -/

section Page
variable {l : Ledger} {after : Option AccountId} {size : Nat} {page : List Account}

theorem pairwise_of_page (h : l.page after size = .ok page) :
    page.Pairwise fun a b => a.id < b.id := by
  have hids : (page.map Account.id).Pairwise (· < ·) := by
    rw [Ledger.map_id_of_page h, LedgerStore.pageRows_eq, List.pairwise_map]
    exact (LedgerStore.pairwise_rowsAfter l.store after).sublist (List.take_sublist _ _)
  exact List.pairwise_map.mp hids

theorem ahead_of_page (h : l.page after size = .ok page) {a : Account} (ha : a ∈ page) :
    Ahead after a.id := by
  have hmem := List.mem_map_of_mem (f := Account.id) ha
  rw [Ledger.map_id_of_page h, LedgerStore.pageRows_eq] at hmem
  obtain ⟨row, hrow, hid⟩ := List.mem_map.mp hmem
  rw [← hid]
  exact (LedgerStore.mem_rowsAfter.mp (List.mem_of_mem_take hrow)).2

/-- What comes after the last account of a page comes after all of them. -/
theorem lt_of_getLast_lt {z : Account} (hpage : page.Pairwise fun a b => a.id < b.id)
    (hz : page.getLast? = some z) {a : Account} (ha : a ∈ page) {id : AccountId} (h : z.id < id) :
    a.id < id := by
  obtain ⟨init, rfl⟩ := List.getLast?_eq_some_iff.mp hz
  rcases List.mem_append.mp ha with ha | ha
  · exact AccountId.lt_trans ((List.pairwise_append.mp hpage).2.2 a ha z List.mem_cons_self) h
  · rw [List.mem_singleton.mp ha]
    exact h

/-- An account that comes after the cursor is on the page, or after a full page. -/
theorem page_complete (h : l.page after size = .ok page) {id : AccountId}
    (hid : l.store.accounts.contains id = true) (hahead : Ahead after id) :
    (∃ a ∈ page, a.id = id) ∨
      page.length = size ∧ ∀ z, page.getLast? = some z → z.id < id := by
  obtain ⟨row, hrow⟩ := Option.isSome_iff_exists.mp hid
  have hrowid := Table.key_of_find? hrow
  have hmem : row ∈ l.store.rowsAfter after :=
    LedgerStore.mem_rowsAfter.mpr ⟨Table.mem_of_find? hrow, hrowid ▸ hahead⟩
  have hids := Ledger.map_id_of_page h
  rw [LedgerStore.pageRows_eq] at hids
  have hpairwise := LedgerStore.pairwise_rowsAfter l.store after
  rw [← List.take_append_drop size (l.store.rowsAfter after)] at hmem hpairwise
  rcases List.mem_append.mp hmem with htake | hdrop
  · have hon : id ∈ page.map Account.id := by
      rw [hids, ← hrowid]
      exact List.mem_map_of_mem htake
    exact Or.inl (List.mem_map.mp hon)
  · refine Or.inr ⟨?_, fun z hz => ?_⟩
    · have hlength := congrArg List.length hids
      rw [List.length_map, List.length_map, List.length_take] at hlength
      have hpos := List.length_pos_of_mem hdrop
      rw [List.length_drop] at hpos
      omega
    · have hon := List.mem_map_of_mem (f := Account.id) (List.mem_of_getLast? hz)
      rw [hids] at hon
      obtain ⟨row', hrow', hid'⟩ := List.mem_map.mp hon
      rw [← hid', ← hrowid]
      exact (List.pairwise_append.mp hpairwise).2.2 row' hrow' row hdrop

end Page

/-! ## What a course delivers -/

namespace Course
variable {size : Nat} {after : Option AccountId} {ledgers : List Ledger}
  {pages : List (List Account)} {failure : Option LedgerError} {ended : Bool}

/-- Everything that is delivered comes after the cursor. -/
theorem ahead (h : Course size after ledgers pages failure ended) :
    ∀ a ∈ pages.flatten, Ahead after a.id := by
  induction h with
  | waiting | refused => exact fun a ha => by cases ha
  | last hread hshort =>
    intro a ha
    rw [List.flatten_cons, List.flatten_nil, List.append_nil] at ha
    exact ahead_of_page hread ha
  | more hread hfull hlast hcourse ih =>
    intro a ha
    rcases List.mem_append.mp ha with ha | ha
    · exact ahead_of_page hread ha
    · -- the last account of the page stands between the cursor and the rest
      have hz := ahead_of_page hread (List.mem_of_getLast? hlast)
      exact fun x hx => AccountId.lt_trans (hz x hx) (ahead_some_iff.mp (ih a ha))

theorem ascending (h : Course size after ledgers pages failure ended) :
    pages.flatten.Pairwise fun a b => a.id < b.id := by
  induction h with
  | waiting | refused => exact .nil
  | last hread hshort =>
    rw [List.flatten_cons, List.flatten_nil, List.append_nil]
    exact pairwise_of_page hread
  | more hread hfull hlast hcourse ih =>
    have hpage := pairwise_of_page hread
    refine List.pairwise_append.mpr ⟨hpage, ih, fun a ha b hb => ?_⟩
    exact lt_of_getLast_lt hpage hlast ha (ahead_some_iff.mp (hcourse.ahead b hb))

/-- Each page is read from its own ledger, and starts where the pages before it end. -/
theorem read_page (h : Course size after ledgers pages failure ended) {k : Nat}
    {page : List Account} (hk : pages[k]? = some page) :
    ∃ l, ledgers[k]? = some l ∧ l.page (cursor after (pages.take k)) size = .ok page := by
  induction h generalizing k with
  | waiting | refused => cases hk
  | last hread hshort =>
    cases k with
    | zero =>
      cases hk
      exact ⟨_, rfl, hread⟩
    | succ k => cases hk
  | more hread hfull hlast hcourse ih =>
    cases k with
    | zero =>
      cases hk
      exact ⟨_, rfl, hread⟩
    | succ k =>
      obtain ⟨l, hl, hpage⟩ := ih hk
      refine ⟨l, hl, ?_⟩
      rw [List.take_succ_cons, cursor_cons hlast]
      exact hpage

/-- The scan fails on the page that it gets to and cannot read. -/
theorem failure_eq_some_iff (h : Course size after ledgers pages failure ended) {e : LedgerError} :
    failure = some e ↔ (∀ page ∈ pages, page.length = size) ∧
      ∃ l, ledgers[pages.length]? = some l ∧ l.page (cursor after pages) size = .error e := by
  induction h with
  | waiting =>
    refine iff_of_false (fun h => by cases h) ?_
    rintro ⟨-, l, hl, -⟩
    cases hl
  | @refused after l rest e' hread =>
    constructor
    · intro he
      cases he
      exact ⟨List.forall_mem_nil _, l, rfl, hread⟩
    · rintro ⟨-, l', hl', he⟩
      cases hl'
      exact congrArg some (Except.error.inj (hread.symm.trans he))
  | last hread hshort =>
    refine iff_of_false (fun h => by cases h) ?_
    rintro ⟨hfull, -⟩
    exact absurd (hfull _ List.mem_cons_self) (Nat.ne_of_lt hshort)
  | more hread hfull hlast hcourse ih =>
    rw [ih, List.forall_mem_cons, and_iff_right hfull, cursor_cons hlast]
    rfl

/-- A scan has ended with an error or with a page that is not full. -/
theorem ended_iff (h : Course size after ledgers pages failure ended) :
    ended = true ↔ failure ≠ none ∨ ∃ page ∈ pages, page.length < size := by
  induction h with
  | waiting =>
    refine iff_of_false (fun h => by cases h) ?_
    rintro (hnone | ⟨page, hpage, -⟩)
    · exact hnone rfl
    · cases hpage
  | refused hread => exact iff_of_true rfl (Or.inl fun h => by cases h)
  | last hread hshort => exact iff_of_true rfl (Or.inr ⟨_, List.mem_cons_self, hshort⟩)
  | more hread hfull hlast hcourse ih =>
    simp only [List.mem_cons, exists_eq_or_imp, hfull, lt_self_iff_false, false_or]
    exact ih

theorem length_eq_of_waiting (h : Course size after ledgers pages failure ended)
    (hended : ended = false) : pages.length = ledgers.length := by
  induction h with
  | waiting => rfl
  | refused | last => cases hended
  | more hread hfull hlast hcourse ih =>
    rw [List.length_cons, List.length_cons, ih hended]

/-- What is there all the time has been delivered when the cursor has passed it, or the scan has ended
without an error. -/
theorem complete (h : Course size after ledgers pages failure ended) {id : AccountId}
    (hahead : Ahead after id)
    (hid : ∀ l ∈ ledgers.take pages.length, l.store.accounts.contains id = true)
    (hpast : ended = true ∧ failure = none ∨ ¬ Ahead (cursor after pages) id) :
    ∃ a ∈ pages.flatten, a.id = id := by
  induction h with
  | waiting =>
    rcases hpast with ⟨hended, -⟩ | hpast
    · cases hended
    · exact absurd hahead hpast
  | refused =>
    rcases hpast with ⟨-, hfailure⟩ | hpast
    · cases hfailure
    · exact absurd hahead hpast
  | last hread hshort =>
    rcases page_complete hread (hid _ List.mem_cons_self) hahead with hon | ⟨hfull, -⟩
    · rw [List.flatten_cons, List.flatten_nil, List.append_nil]
      exact hon
    · exact absurd hfull (Nat.ne_of_lt hshort)
  | more hread hfull hlast hcourse ih =>
    rw [List.length_cons, List.take_succ_cons] at hid
    rw [cursor_cons hlast] at hpast
    rcases page_complete hread (hid _ List.mem_cons_self) hahead with ⟨a, ha, haid⟩ | ⟨-, hnext⟩
    · exact ⟨a, List.mem_append_left _ ha, haid⟩
    · obtain ⟨a, ha, haid⟩ := ih (ahead_some_iff.mpr (hnext _ hlast))
        (fun l hl => hid l (List.mem_cons_of_mem _ hl)) hpast
      exact ⟨a, List.mem_append_right _ ha, haid⟩

end Course

/-! ## A ledger that does not change -/

theorem run_replicate {l : Ledger} (hopen : l.closed = false) {size : Nat} (hsize : 0 < size)
    {after : Option AccountId} {accounts : List Account}
    (hread : (l.store.rowsAfter after).map l.store.readRow = accounts.map .ok) (n : Nat) :
    (({ pageSize := size, after := after } : Scan).run (List.replicate n l)).1 =
        (accounts.take (n * size)).map .ok ∧
      (({ pageSize := size, after := after } : Scan).run (List.replicate n l)).2.ended =
        decide (accounts.length / size < n) := by
  induction n generalizing after accounts with
  | zero =>
    rw [Nat.zero_mul, List.take_zero]
    exact ⟨rfl, (decide_eq_false (Nat.not_lt_zero _)).symm⟩
  | succ n ih =>
    have hpage : l.page after size = .ok (accounts.take size) := by
      unfold Ledger.page Ledger.read
      rw [hopen, if_neg Bool.false_ne_true, LedgerStore.page_eq_ok_iff, LedgerStore.pageRows_eq,
        List.map_take, hread, List.map_take]
    have hlength : (accounts.take size).length = min size accounts.length := List.length_take
    have hmul : (n + 1) * size = size + n * size := by rw [Nat.succ_mul, Nat.add_comm]
    simp only [List.replicate_succ, run]
    by_cases hshort : accounts.length < size
    · have htake : ∀ k, size ≤ k → accounts.take k = accounts := fun k hk =>
        List.take_of_length_le (by omega)
      have hpageShort : (accounts.take size).length < size := by omega
      rw [nextPage_of_short rfl hpage hpageShort, run_of_ended rfl, htake size (Nat.le_refl _),
        htake _ (by omega)]
      exact ⟨List.append_nil _, (decide_eq_true (by rw [Nat.div_eq_of_lt hshort]; omega)).symm⟩
    · have hpageFull : (accounts.take size).length = size := by omega
      obtain ⟨z, hz⟩ : ∃ z, (accounts.take size).getLast? = some z :=
        ⟨_, List.getLast?_eq_some_getLast (List.ne_nil_of_length_pos (by omega))⟩
      obtain ⟨hitems, hended⟩ := ih (LedgerStore.map_readRow_rowsAfter hread hz)
      rw [nextPage_of_full rfl hpage hpageFull hz, hmul, List.take_add, List.map_append]
      refine ⟨congrArg _ hitems, hended.trans (decide_eq_decide.mpr ?_)⟩
      rw [List.length_drop, Nat.div_eq_sub_div hsize (Nat.le_of_not_lt hshort)]
      exact Nat.succ_lt_succ_iff.symm

/-- The accounts of a ledger whose rows can all be read, in the order of their names. -/
theorem exists_accounts {s : LedgerStore} (hread : ∀ row ∈ s.accounts.rows, ¬ row.Unreadable) :
    ∃ accounts : List Account, (s.rowsAfter none).map s.readRow = accounts.map .ok := by
  cases haccounts : (s.rowsAfter none).mapM s.readRow with
  | ok accounts => exact ⟨accounts, mapM_eq_ok_iff.mp haccounts⟩
  | error e =>
    obtain ⟨row, hrow, he⟩ := exists_of_mapM_error haccounts
    exact absurd ((AccountRow.unreadable_iff _).mpr ⟨e, he⟩)
      (hread row (LedgerStore.mem_rowsAfter.mp hrow).1)

/-- They are what the ledger shows by their names. -/
theorem mem_accounts_iff {l : Ledger} (hopen : l.closed = false) {accounts : List Account}
    (h : (l.store.rowsAfter none).map l.store.readRow = accounts.map .ok) (a : Account) :
    a ∈ accounts ↔ l.account a.id = .ok a := by
  have hmem : a ∈ accounts ↔ .ok a ∈ (l.store.rowsAfter none).map l.store.readRow := by
    rw [h]
    refine ⟨List.mem_map_of_mem, fun ha => ?_⟩
    obtain ⟨b, hb, heq⟩ := List.mem_map.mp ha
    cases heq
    exact hb
  rw [hmem, List.mem_map]
  constructor
  · rintro ⟨row, hrow, hread⟩
    rw [(AccountRow.read_spec hread).1,
      Ledger.account_of_mem hopen (LedgerStore.mem_rowsAfter.mp hrow).1, hread]
  · intro haccount
    obtain ⟨row, hrow, -⟩ := Ledger.account_spec haccount
    have hmem := Table.mem_of_find? hrow
    refine ⟨row, LedgerStore.mem_rowsAfter.mpr ⟨hmem, ahead_none _⟩, ?_⟩
    rw [← Ledger.account_of_mem hopen hmem, Table.key_of_find? hrow]
    exact haccount

/-! ## Scans -/

/-- Accounts are in the order of the bytes of their names, and so none of them twice. -/
def Ascending (accounts : List Account) : Prop :=
  (accounts.map fun a => a.id.bytes).Pairwise (· < ·)

theorem ascending_iff {accounts : List Account} :
    Ascending accounts ↔ accounts.Pairwise fun a b => a.id < b.id := by
  rw [Ascending, List.pairwise_map]
  simp only [AccountId.lt_iff_bytes_lt]

/-- What a scan has delivered that was to read its pages, of `size` accounts each, from one ledger
after the other: `pages`, and an error after them if there was one. -/
structure Delivery (size : Nat) (ledgers : List Ledger)
    (delivered : List (Except LedgerError Account) × Scan) (pages : List (List Account))
    (failure : Option LedgerError) : Prop where
  /-- The accounts of the pages, then at most one error. -/
  items : delivered.1 = pages.flatten.map .ok ++ failure.toList.map .error
  ascending : Ascending pages.flatten
  /-- Each page holds the accounts after the cursor as they are stored in the ledger that it was read
  from. -/
  stored : ∀ (k : Nat) (page : List Account), pages[k]? = some page → ∃ l : Ledger,
    ledgers[k]? = some l ∧ (∀ a ∈ page, l.account a.id = .ok a) ∧
    page.map .ok = (l.store.pageRows (cursor none (pages.take k)) size).map fun row => l.account row.id
  /-- An account that was there for every page is delivered by the time that the cursor passes it, and
  before the scan ends without an error. -/
  complete : ∀ id, (∀ l ∈ ledgers.take pages.length, l.store.accounts.contains id = true) →
    (delivered.2.ended = true ∧ failure = none ∨ ¬ Ahead (cursor none pages) id) →
    ∃ a ∈ pages.flatten, a.id = id
  /-- The error is that of the first page that cannot be read: the ledger is closed, or the page has a
  row that cannot be read. -/
  failed_iff : failure ≠ none ↔ (∀ page ∈ pages, page.length = size) ∧
    ∃ l : Ledger, ledgers[pages.length]? = some l ∧
      (l.closed = true ∨ ∃ row ∈ l.store.pageRows (cursor none pages) size, row.Unreadable)
  /-- The scan has ended with the error, or with a page that is not full. -/
  ended_iff : delivered.2.ended = true ↔ failure ≠ none ∨ ∃ page ∈ pages, page.length < size
  /-- Until it ends, it has read a page from each ledger. -/
  waiting : delivered.2.ended = false → pages.length = ledgers.length
  /-- When it has ended, nothing follows. -/
  final : delivered.2.ended = true → ∀ later, delivered.2.run later = ([], delivered.2)

/-- A scan of an unchanging ledger delivers `accounts`, which are all that there are, page by page, and
ends with the first page that is not full. -/
structure DeliversAll (pageSize : Nat) (l : Ledger) (accounts : List Account) : Prop where
  ascending : Ascending accounts
  mem_iff : ∀ a, a ∈ accounts ↔ l.account a.id = .ok a
  items : ∀ n, ((start pageSize).run (List.replicate n l)).1 =
    (accounts.take (n * max 1 pageSize)).map .ok
  ended : ∀ n, ((start pageSize).run (List.replicate n l)).2.ended =
    decide (accounts.length / max 1 pageSize < n)
  complete : (complete l pageSize).1 = accounts.map .ok ∧ (complete l pageSize).2.ended = true

theorem exists_delivery (pageSize : Nat) (ledgers : List Ledger) : ∃ pages failure,
    Delivery (max 1 pageSize) ledgers ((start pageSize).run ledgers) pages failure := by
  obtain ⟨pages, failure, hcourse, hitems⟩ :=
    @exists_course (start pageSize) rfl (Nat.le_max_left 1 pageSize) ledgers
  refine ⟨pages, failure, hitems, ascending_iff.mpr hcourse.ascending, fun k page hk => ?_,
    fun id hid hpast => hcourse.complete (ahead_none id) hid hpast, ?_, hcourse.ended_iff,
    hcourse.length_eq_of_waiting, run_of_ended⟩
  · obtain ⟨l, hl, hread⟩ := hcourse.read_page hk
    obtain ⟨-, hpage⟩ := Ledger.page_eq_ok_iff.mp hread
    refine ⟨l, hl, fun a ha => ?_, hpage⟩
    have hmem := @List.mem_map_of_mem _ (Except LedgerError Account) page a .ok ha
    rw [hpage] at hmem
    obtain ⟨row, -, hrow⟩ := List.mem_map.mp hmem
    rw [Ledger.id_of_account hrow]
    exact hrow
  · rw [Option.ne_none_iff_exists']
    constructor
    · rintro ⟨e, he⟩
      obtain ⟨hfull, l, hl, hread⟩ := hcourse.failure_eq_some_iff.mp he
      exact ⟨hfull, l, hl, Ledger.page_error_iff.mp ⟨e, hread⟩⟩
    · rintro ⟨hfull, l, hl, hrefused⟩
      obtain ⟨e, he⟩ := Ledger.page_error_iff.mpr hrefused
      exact ⟨e, hcourse.failure_eq_some_iff.mpr ⟨hfull, l, hl, he⟩⟩

theorem exists_deliversAll (pageSize : Nat) {l : Ledger} (hopen : l.closed = false)
    (hread : ∀ row ∈ l.store.accounts.rows, ¬ row.Unreadable) :
    ∃ accounts, DeliversAll pageSize l accounts := by
  obtain ⟨accounts, haccounts⟩ := exists_accounts hread
  have hrun := run_replicate hopen (Nat.le_max_left 1 pageSize) haccounts
  have hids : accounts.map Account.id = (l.store.rowsAfter none).map AccountRow.id :=
    map_eq_map_of_ok haccounts fun row a ha => (AccountRow.read_spec ha).1
  have hlength : accounts.length ≤ l.store.accounts.rows.length := by
    have hlength := congrArg List.length hids
    rw [List.length_map, List.length_map] at hlength
    rw [hlength]
    exact (List.length_filter_le _ _).trans (Nat.le_of_eq (List.length_mergeSort _))
  refine ⟨accounts, ascending_iff.mpr ?_, mem_accounts_iff hopen haccounts, fun n => (hrun n).1,
    fun n => (hrun n).2, ?_, ?_⟩
  · have hpairwise := l.store.pairwise_rowsAfter none
    rw [← List.pairwise_map, ← hids, List.pairwise_map] at hpairwise
    exact hpairwise
  · refine (hrun _).1.trans (congrArg _ (List.take_of_length_le ?_))
    exact hlength.trans ((Nat.le_succ _).trans (Nat.le_mul_of_pos_right _ (Nat.le_max_left 1 _)))
  · refine (hrun _).2.trans (decide_eq_true ?_)
    exact Nat.lt_succ_of_le ((Nat.div_le_self _ _).trans hlength)

/-- **A scan misses nothing and repeats nothing.**  Each page may be read from another ledger; an
unchanging one whose rows can be read is delivered entirely. -/
theorem run_delivers (pageSize : Nat) (ledgers : List Ledger) :
    (∃ pages failure,
      Delivery (max 1 pageSize) ledgers ((start pageSize).run ledgers) pages failure) ∧
    ∀ l : Ledger, l.closed = false → (∀ row ∈ l.store.accounts.rows, ¬ row.Unreadable) →
      ∃ accounts, DeliversAll pageSize l accounts :=
  ⟨exists_delivery pageSize ledgers, fun _ hopen hread => exists_deliversAll pageSize hopen hread⟩

end Scan

/-! ## A ledger that changes between two pages -/

namespace ChangingLedger

open Sample

def row (name : String) : AccountRow := .opened ⟨name⟩ default (details name)

def before : Ledger := { store := ⟨⟨[row "d", row "b", row "a"], by decide⟩, []⟩ }

/-- The first page ends at `b`.  Then `b` is removed, `aa` is opened behind the cursor and `c` before
it, and `d` gets another name. -/
def after : Ledger :=
  let l₁ := (before.perform ⟨""⟩ default (.delete ⟨"b"⟩)).2
  let l₂ := (l₁.perform ⟨"aa"⟩ default (.create (details "aa"))).2
  let l₃ := (l₂.perform ⟨"c"⟩ default (.create (details "c"))).2
  (l₃.perform ⟨""⟩ default (.amend ⟨"d"⟩ { firstName := some "Dora" })).2

/-- Two full pages, and a third one that is empty. -/
theorem run_delivers_changing :
    ((Scan.start 2).run [before, after, after]).1.map
        (fun item => (item.map fun a => (a.id.text, a.firstName)).toOption) =
      [some ("a", "a"), some ("b", "b"), some ("c", "c"), some ("d", "Dora")] ∧
    ((Scan.start 2).run [before, after, after]).2.ended = true ∧
    (∃ pages failure, Scan.Delivery (max 1 2) [before, after, after]
      ((Scan.start 2).run [before, after, after]) pages failure) ∧
    after.closed = false ∧ (∀ row ∈ after.store.accounts.rows, ¬ row.Unreadable) ∧
    ∃ accounts, Scan.DeliversAll 2 after accounts := by
  have hbefore : before.store.sortedRows = [row "a", row "b", row "d"] :=
    LedgerStore.sortedRows_eq (by decide) (by decide)
  have hafter : after.store.sortedRows =
      ["a", "aa", "c", "d"].filterMap fun name => after.store.accounts.find? ⟨name⟩ :=
    LedgerStore.sortedRows_eq (by decide +kernel) (by decide +kernel)
  have hrun : (((Scan.start 2).run [before, after, after]).1.map
        (fun item => (item.map fun a => (a.id.text, a.firstName)).toOption),
      ((Scan.start 2).run [before, after, after]).2.ended) =
        ([some ("a", "a"), some ("b", "b"), some ("c", "c"), some ("d", "Dora")], true) := by
    simp only [Scan.run, Scan.nextPage, Ledger.page, Ledger.read, LedgerStore.page,
      LedgerStore.pageRows, hbefore, hafter]
    decide +kernel
  have hopen : after.closed = false := by decide +kernel
  have hread : ∀ row ∈ after.store.accounts.rows, ¬ row.Unreadable := by decide +kernel
  obtain ⟨hdelivery, hall⟩ := Scan.run_delivers 2 [before, after, after]
  exact ⟨congrArg Prod.fst hrun, congrArg Prod.snd hrun, hdelivery, hopen, hread, hall after hopen hread⟩

end ChangingLedger

end CardHolds

/-!
# Tables

A `Table key` is a list of rows in the order of their insertion, no two of which have the same key.
Rows are found, changed and erased by key; a row is inserted only while its key is free.
-/

namespace CardHolds

/-- Rows with distinct keys, oldest first. -/
structure Table {κ ρ : Type} (key : ρ → κ) where
  rows : List ρ
  nodup_keys : (rows.map key).Nodup

namespace Table

variable {κ ρ : Type} {key : ρ → κ}

/-- The table without rows. -/
def empty : Table key := ⟨[], .nil⟩

instance : Inhabited (Table key) := ⟨empty⟩

@[ext]
theorem ext {s t : Table key} (h : s.rows = t.rows) : s = t := by
  cases s; cases t; cases h; rfl

variable [DecidableEq κ]

instance [DecidableEq ρ] : DecidableEq (Table key) := fun s t =>
  if h : s.rows = t.rows then .isTrue (ext h) else .isFalse fun e => h (e ▸ rfl)

/-- The row with the given key. -/
def find? (t : Table key) (k : κ) : Option ρ :=
  t.rows.find? fun r => decide (key r = k)

/-- Whether some row has the given key. -/
def contains (t : Table key) (k : κ) : Bool :=
  (t.find? k).isSome

theorem key_of_find? {t : Table key} {k : κ} {r : ρ} (h : t.find? k = some r) : key r = k := by
  simpa using List.find?_some h

theorem mem_of_find? {t : Table key} {k : κ} {r : ρ} (h : t.find? k = some r) : r ∈ t.rows :=
  List.mem_of_find?_eq_some h

theorem find?_eq_none_iff {t : Table key} {k : κ} : t.find? k = none ↔ k ∉ t.rows.map key := by
  simp [find?, List.find?_eq_none]

theorem contains_eq_false_iff {t : Table key} {k : κ} :
    t.contains k = false ↔ k ∉ t.rows.map key := by
  rw [contains, ← find?_eq_none_iff]
  cases t.find? k <;> simp

/-- A row is what its key finds. -/
theorem find?_key {t : Table key} {r : ρ} (h : r ∈ t.rows) : t.find? (key r) = some r := by
  obtain ⟨rows, nodup⟩ := t
  simp only [find?] at h ⊢
  induction rows with
  | nil => cases h
  | cons a rest ih =>
    rw [List.map_cons, List.nodup_cons] at nodup
    rcases List.mem_cons.1 h with rfl | h
    · simp
    · have ne : key a ≠ key r := fun e => nodup.1 (e ▸ List.mem_map_of_mem h)
      rw [List.find?_cons_of_neg (by simpa using ne), ih nodup.2 h]

/-- Adds a row at the end, if its key is free. -/
def insert? (t : Table key) (r : ρ) : Option (Table key) :=
  if h : key r ∈ t.rows.map key then
    none
  else
    some ⟨t.rows ++ [r], by
      rw [List.map_append, List.nodup_append]
      refine ⟨t.nodup_keys, by simp, ?_⟩
      rintro a ha b hb rfl
      rw [List.map_cons, List.map_nil, List.mem_singleton] at hb
      exact h (hb ▸ ha)⟩

theorem rows_of_insert? {t u : Table key} {r : ρ} (h : t.insert? r = some u) :
    u.rows = t.rows ++ [r] := by
  unfold insert? at h
  split at h
  · cases h
  · cases h; rfl

/-- A row that was added is what its key finds; all other keys find what they did. -/
theorem find?_insert? {t u : Table key} {r : ρ} {k : κ} (h : t.insert? r = some u) :
    u.find? k = if k = key r then some r else t.find? k := by
  split
  · rename_i hk
    rw [hk]
    exact find?_key (rows_of_insert? h ▸ List.mem_append_right _ List.mem_cons_self)
  · rename_i hk
    rw [find?, rows_of_insert? h, List.find?_append, List.find?_cons_of_neg (by simp [Ne.symm hk]),
      List.find?_nil, Option.or_none, find?]

theorem find?_of_insert?_eq_none {t : Table key} {r : ρ} (h : t.insert? r = none) :
    ∃ r', t.find? (key r) = some r' := by
  unfold insert? at h
  split at h
  · rename_i hmem
    cases hfind : t.find? (key r) with
    | none => exact absurd hmem (find?_eq_none_iff.1 hfind)
    | some r' => exact ⟨r', rfl⟩
  · cases h

theorem find?_of_insert?_eq_some {t u : Table key} {r : ρ} (h : t.insert? r = some u) :
    t.find? (key r) = none := by
  rw [find?_eq_none_iff]
  unfold insert? at h
  split at h
  · cases h
  · assumption

/-- Adds several rows at the end, in order, if all their keys are free. -/
def insertAll? (t : Table key) (rs : List ρ) : Option (Table key) :=
  rs.foldlM insert? t

theorem rows_of_insertAll? {t u : Table key} {rs : List ρ} (h : t.insertAll? rs = some u) :
    u.rows = t.rows ++ rs := by
  induction rs generalizing t with
  | nil =>
    cases h
    exact (List.append_nil _).symm
  | cons r rest ih =>
    obtain ⟨t', ht', h⟩ := Option.bind_eq_some_iff.mp h
    rw [ih h, rows_of_insert? ht', List.append_assoc, List.singleton_append]

/-- Changes the row with the given key. -/
def modify (t : Table key) (k : κ) (f : ρ → ρ) (key_eq : ∀ r, key (f r) = key r) : Table key where
  rows := t.rows.map fun r => if key r = k then f r else r
  nodup_keys := by
    have h : (key ∘ fun r => if key r = k then f r else r) = key := by
      funext r
      by_cases h : key r = k <;> simp [h, key_eq]
    rw [List.map_map, h]
    exact t.nodup_keys

theorem find?_modify {t : Table key} {k j : κ} {f : ρ → ρ} {key_eq : ∀ r, key (f r) = key r} :
    (t.modify k f key_eq).find? j = if j = k then (t.find? j).map f else t.find? j := by
  obtain ⟨rows, nodup⟩ := t
  simp only [find?, modify]
  clear nodup
  induction rows with
  | nil => simp
  | cons a rest ih =>
    by_cases hj : key a = j <;> by_cases hk : key a = k <;> by_cases hjk : j = k <;>
      simp_all

/-- Removes the row with the given key. -/
def erase (t : Table key) (k : κ) : Table key where
  rows := t.rows.filter fun r => decide (key r ≠ k)
  nodup_keys := t.nodup_keys.sublist (List.filter_sublist.map key)

theorem find?_erase {t : Table key} {k j : κ} :
    (t.erase k).find? j = if j = k then none else t.find? j := by
  obtain ⟨rows, nodup⟩ := t
  simp only [find?, erase]
  clear nodup
  induction rows with
  | nil => simp
  | cons a rest ih =>
    by_cases hj : key a = j <;> by_cases hk : key a = k <;> by_cases hjk : j = k <;>
      simp_all

end Table

end CardHolds

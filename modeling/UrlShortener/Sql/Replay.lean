import UrlShortener.Sql.Table

/-!
# Inserting rows again

`INSERT OR IGNORE` leaves a table alone that has a row with the key of the new one. A list of rows inserted this way
can be inserted again, from its start and up to any point, and each time nothing but its new rows comes in.

* `insertAll_eq`: inserting a list appends its new rows.
* `insertAll_take_take`: **two initial parts, one after the other, are the longer one of them.**
-/

namespace UrlShortener.Sql

variable {R K : Type} [BEq K] (column : R → K)

/-- `INSERT OR IGNORE`, also `INSERT .. ON CONFLICT DO NOTHING`. -/
def insertOrIgnore (table : Table R) (row : R) : Table R :=
  (insert (fun r r' => column r == column r') row table).getD table

/-- A list of rows, one after the other. -/
def insertAll (table : Table R) (rows : List R) : Table R := rows.foldl (insertOrIgnore column) table

/-- The rows whose key has not been seen: the first one of each key. -/
def newRows : (seen : List K) → List R → List R
  | _, [] => []
  | seen, row :: rows =>
    if seen.contains (column row) then newRows seen rows else row :: newRows (seen ++ [column row]) rows

variable {column} {table : Table R} {row : R} {rows : List R}

theorem insertAll_cons (table : Table R) (row : R) (rows : List R) :
    insertAll column table (row :: rows) = insertAll column (insertOrIgnore column table row) rows := rfl

theorem insertAll_append (table : Table R) (rows rows' : List R) :
    insertAll column table (rows ++ rows') = insertAll column (insertAll column table rows) rows' :=
  List.foldl_append

theorem newRows_isPrefix (seen : List K) {rows rows' : List R} (h : rows <+: rows') :
    newRows column seen rows <+: newRows column seen rows' := by
  induction rows generalizing seen rows' with
  | nil => exact List.nil_prefix
  | cons row rows ih =>
    obtain ⟨rest, rfl⟩ := h
    have hrows : rows <+: rows ++ rest := List.prefix_append rows rest
    rw [List.cons_append, newRows, newRows]
    split
    case isTrue => exact ih seen hrows
    case isFalse => exact List.cons_prefix_cons.2 ⟨rfl, ih _ hrows⟩

variable [LawfulBEq K]

theorem insertOrIgnore_of_mem (h : column row ∈ table.map column) : insertOrIgnore column table row = table := by
  obtain ⟨r, hr, heq⟩ := List.mem_map.1 h
  have hany : table.any (fun r => column row == column r) = true := List.any_eq_true.2 ⟨r, hr, by simp [heq]⟩
  rw [insertOrIgnore, insert, hany, if_pos rfl, Option.getD_none]

theorem insertOrIgnore_of_notMem (h : column row ∉ table.map column) :
    insertOrIgnore column table row = table ++ [row] := by
  have hany : table.any (fun r => column row == column r) = false := by
    rw [List.any_eq_false]
    intro r hr heq
    exact h (List.mem_map.2 ⟨r, hr, (eq_of_beq heq).symm⟩)
  rw [insertOrIgnore, insert, hany, if_neg Bool.false_ne_true, Option.getD_some]

/-- **The rows that come in.** -/
theorem insertAll_eq (table : Table R) (rows : List R) :
    insertAll column table rows = table ++ newRows column (table.map column) rows := by
  induction rows generalizing table with
  | nil => rw [newRows, List.append_nil]; rfl
  | cons row rows ih =>
    rw [insertAll_cons, newRows]
    split
    case isTrue h => rw [insertOrIgnore_of_mem (List.contains_iff_mem.1 h), ih]
    case isFalse h =>
      rw [insertOrIgnore_of_notMem (mt List.contains_iff_mem.2 h), ih, List.map_append, List.map_singleton,
        List.append_assoc, List.singleton_append]

/-- All rows are new when no two keys agree. -/
theorem newRows_of_nodup {seen : List K} (h : (seen ++ rows.map column).Nodup) : newRows column seen rows = rows := by
  induction rows generalizing seen with
  | nil => rfl
  | cons row rows ih =>
    rw [List.map_cons, ← List.singleton_append, ← List.append_assoc] at h
    have hseen : column row ∉ seen := fun hmem =>
      List.nodup_append.1 (List.nodup_append.1 h).1 |>.2.2 _ hmem _ List.mem_cons_self rfl
    rw [newRows, if_neg (mt List.contains_iff_mem.1 hseen), ih h]

/-- A key stays in the table. -/
theorem mem_insertAll_of_mem {k : K} (h : k ∈ table.map column) : k ∈ (insertAll column table rows).map column := by
  rw [insertAll_eq, List.map_append]
  exact List.mem_append_left _ h

/-- The key of every row is in the table afterwards. -/
theorem mem_insertAll (table : Table R) {rows : List R} (h : row ∈ rows) :
    column row ∈ (insertAll column table rows).map column := by
  obtain ⟨before, after, rfl⟩ := List.append_of_mem h
  rw [insertAll_append, insertAll_cons]
  refine mem_insertAll_of_mem ?_
  by_cases hmem : column row ∈ (insertAll column table before).map column
  · rwa [insertOrIgnore_of_mem hmem]
  · rw [insertOrIgnore_of_notMem hmem, List.map_append]
    exact List.mem_append_right _ (List.mem_singleton.2 rfl)

/-- Rows that have come in are ignored. -/
theorem insertAll_of_forall_mem (h : ∀ row ∈ rows, column row ∈ table.map column) :
    insertAll column table rows = table := by
  induction rows with
  | nil => rfl
  | cons row rows ih =>
    rw [insertAll_cons, insertOrIgnore_of_mem (h row List.mem_cons_self)]
    exact ih fun r hr => h r (List.mem_cons_of_mem row hr)

/-- **An initial part, and after it another one.** -/
theorem insertAll_take_take (table : Table R) (rows : List R) (k j : ℕ) :
    insertAll column (insertAll column table (rows.take k)) (rows.take j) =
      insertAll column table (rows.take (max k j)) := by
  rcases Nat.le_total j k with hjk | hkj
  · -- the second part is one of the first
    rw [Nat.max_eq_left hjk]
    refine insertAll_of_forall_mem fun row hrow => mem_insertAll table ?_
    exact (List.take_prefix_take_left hjk).subset hrow
  · -- the second part is the first one and more
    obtain ⟨rest, hrest⟩ := List.take_prefix_take_left hkj
    rw [Nat.max_eq_right hkj, ← hrest, insertAll_append, insertAll_append]
    congr 1
    exact insertAll_of_forall_mem fun row hrow => mem_insertAll table hrow

/-- The keys of the rows stay apart. -/
theorem Unique.insertAll (h : Unique column table) (rows : List R) : Unique column (insertAll column table rows) := by
  induction rows generalizing table with
  | nil => exact h
  | cons row rows ih =>
    rw [insertAll_cons]
    refine ih ?_
    by_cases hmem : column row ∈ table.map column
    · rwa [insertOrIgnore_of_mem hmem]
    · rw [insertOrIgnore_of_notMem hmem]
      exact h.append fun r hr heq => hmem (List.mem_map.2 ⟨r, hr, heq⟩)

end UrlShortener.Sql

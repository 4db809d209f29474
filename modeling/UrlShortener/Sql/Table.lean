import Mathlib.Data.List.Basic
import Mathlib.Data.List.Nodup
import Mathlib.Data.List.Sort

/-!
# Tables

A table is the list of its rows, in the order they were inserted; the statements that single components
issue are functions on it.

* `insert`: refused when a row clashes with the new one, as under a `UNIQUE` constraint.
* `update`, `delete`, `count`, `first`: by a condition on the row.
* `orderBy`, `page`: `ORDER BY` a column, and `LIMIT` with `OFFSET`.
* `flatMap_pages`: pages of one size that follow one another give the rows up to the end of the last.
* `Unique`: no two rows agree in a column. A statement that keeps the column keeps the rows apart.
* A table whose rows are computed from those of another one: each statement is a statement on the other.
-/

namespace UrlShortener.Sql

variable {R K : Type}

/-- Rows in the order of insertion. -/
abbrev Table (R : Type) := List R

/-- `INSERT`, unless a row clashes. -/
def insert (clash : R → R → Bool) (row : R) (table : Table R) : Option (Table R) :=
  if table.any (clash row) then none else some (table ++ [row])

/-- `UPDATE .. SET .. WHERE ..`. -/
def update (cond : R → Bool) (set : R → R) (table : Table R) : Table R :=
  table.map fun row => if cond row then set row else row

/-- `DELETE .. WHERE ..`. -/
def delete (cond : R → Bool) (table : Table R) : Table R := table.filter fun row => !cond row

/-- `SELECT COUNT(1) .. WHERE ..`, and the `changes()` of an `UPDATE`. -/
def count (cond : R → Bool) (table : Table R) : ℕ := table.countP cond

/-- `ORDER BY` a column; rows that agree in it stay in their order. -/
def orderBy (column : R → ℤ) (rows : List R) : List R := rows.insertionSort fun r r' => column r ≤ column r'

/-- `LIMIT` and `OFFSET`: a negative limit is no limit, and a negative offset is none. -/
def page (limit offset : ℤ) (rows : List R) : List R :=
  if limit < 0 then rows.drop offset.toNat else (rows.drop offset.toNat).take limit.toNat

/-- The first row of a `SELECT`. -/
def first (cond : R → Bool) (table : Table R) : Option R := table.find? cond

/-- No two rows agree in the column. -/
def Unique (column : R → K) (table : Table R) : Prop := (table.map column).Nodup

variable {clash : R → R → Bool} {cond : R → Bool} {set : R → R} {row : R} {table table' : Table R} {column : R → K}

/-- **Pages of one size, one after the other.** -/
theorem flatMap_pages (rows : List R) (size n : ℕ) :
    ((List.range n).flatMap fun i => (rows.drop (i * size)).take size) = rows.take (n * size) := by
  induction n with
  | zero => simp
  | succ n ih =>
    rw [List.range_succ, List.flatMap_append, List.flatMap_singleton, ih, Nat.succ_mul, List.take_add]

theorem insert_eq_some (h : insert clash row table = some table') :
    table' = table ++ [row] ∧ ∀ r ∈ table, clash row r = false := by
  unfold insert at h
  split at h
  case isTrue => cases h
  case isFalse hany =>
    refine ⟨(Option.some.inj h).symm, ?_⟩
    simpa using hany

/-- An `UPDATE` that matches no row changes nothing. -/
theorem update_of_count_eq_zero (h : count cond table = 0) : update cond set table = table := by
  have hnone : ∀ r ∈ table, ¬cond r = true := List.countP_eq_zero.1 h
  refine (List.map_congr_left fun r hr => ?_).trans (List.map_id table)
  exact if_neg (hnone r hr)

/-- Rows that change in place and keep the column. -/
theorem Unique.map (h : Unique column table) {f : R → R} (hf : ∀ r, column (f r) = column r) :
    Unique column (table.map f) := by
  have hcolumn : column ∘ f = column := funext hf
  unfold Unique
  rw [List.map_map, hcolumn]
  exact h

theorem Unique.append (h : Unique column table) (hrow : ∀ r ∈ table, column r ≠ column row) :
    Unique column (table ++ [row]) := by
  unfold Unique
  rw [List.map_append, List.map_singleton, List.nodup_append]
  refine ⟨h, List.nodup_singleton _, ?_⟩
  intro a ha b hb
  obtain ⟨r, hr, rfl⟩ := List.mem_map.1 ha
  rw [List.mem_singleton.1 hb]
  exact hrow r hr

/-- Rows that change in place, and at most one new row with a value of its own. -/
theorem Unique.map_append {f : R → R} {new : List R} (h : Unique column table) (hf : ∀ r, column (f r) = column r)
    (hnew : new = [] ∨ ∃ row, new = [row] ∧ ∀ r ∈ table, column r ≠ column row) :
    Unique column (table.map f ++ new) := by
  have hmap := h.map hf
  rcases hnew with rfl | ⟨row, rfl, hfresh⟩
  · rwa [List.append_nil]
  · refine hmap.append fun r hr => ?_
    obtain ⟨r₀, hr₀, rfl⟩ := List.mem_map.1 hr
    rw [hf]
    exact hfresh r₀ hr₀

theorem Unique.eq_of_column (h : Unique column table) {r r' : R} (hr : r ∈ table) (hr' : r' ∈ table)
    (heq : column r = column r') : r = r' :=
  List.inj_on_of_nodup_map h hr hr' heq

theorem first_eq_some (h : first cond table = some row) : row ∈ table ∧ cond row = true :=
  ⟨List.mem_of_find?_eq_some h, List.find?_some h⟩

/-- A query for a value of the column finds the one row that has it. -/
theorem Unique.first_eq_some [BEq K] [LawfulBEq K] (h : Unique column table) {k : K} {row : R} :
    first (column · == k) table = some row ↔ row ∈ table ∧ column row = k := by
  constructor
  · intro hfirst
    obtain ⟨hrow, hcond⟩ := Sql.first_eq_some hfirst
    exact ⟨hrow, eq_of_beq hcond⟩
  · rintro ⟨hrow, rfl⟩
    have hfound : (first (column · == column row) table).isSome = true :=
      List.find?_isSome.2 ⟨row, hrow, by simp⟩
    obtain ⟨row', hfirst⟩ := Option.isSome_iff_exists.1 hfound
    obtain ⟨hrow', hcond⟩ := Sql.first_eq_some hfirst
    rw [hfirst, h.eq_of_column hrow' hrow (eq_of_beq hcond)]

/-! ## Rows computed from other rows -/

section Image

variable {R' : Type} {image : R → R'} {cond' : R' → Bool}

theorem first_image (hcond : ∀ r, cond' (image r) = cond r) :
    first cond' (table.map image) = (first cond table).map image := by
  rw [first, List.find?_map, funext hcond (f := cond' ∘ image)]
  rfl

theorem count_image (hcond : ∀ r, cond' (image r) = cond r) : count cond' (table.map image) = count cond table := by
  rw [count, List.countP_map, funext hcond (f := cond' ∘ image)]
  rfl

theorem delete_image (hcond : ∀ r, cond' (image r) = cond r) :
    delete cond' (table.map image) = (delete cond table).map image := by
  unfold delete
  rw [List.filter_map]
  congr 2
  funext r
  exact congrArg not (hcond r)

theorem update_image {set' : R' → R'} (hcond : ∀ r, cond' (image r) = cond r)
    (hset : ∀ r ∈ table, cond r = true → set' (image r) = image (set r)) :
    update cond' set' (table.map image) = (update cond set table).map image := by
  unfold update
  rw [List.map_map, List.map_map]
  refine List.map_congr_left fun r hr => ?_
  simp only [Function.comp_apply, hcond]
  split
  case isTrue h => exact hset r hr h
  case isFalse => rfl

theorem orderBy_image {column : R → ℤ} {column' : R' → ℤ}
    (hcolumn : ∀ r ∈ table, ∀ r' ∈ table, column r ≤ column r' ↔ column' (image r) ≤ column' (image r')) :
    orderBy column' (table.map image) = (orderBy column table).map image :=
  (List.map_insertionSort _ _ image table hcolumn).symm

theorem page_image (limit offset : ℤ) (rows : List R) :
    page limit offset (rows.map image) = (page limit offset rows).map image := by
  unfold page
  split <;> simp [List.map_drop, List.map_take]

end Image

end UrlShortener.Sql

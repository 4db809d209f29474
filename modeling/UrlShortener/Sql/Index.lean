import UrlShortener.Sql.Table
import Mathlib.Data.Finmap

/-!
# Maps that index a table

A finite map indexes a table when it holds, under every value of a column, what the row with this value
stands for, and nothing else.

* `Indexed.insert`, `Indexed.replace`, `Indexed.delete`: the map operations that keep up with the statements.
* `Indexed.lookup_first`, `Indexed.count_eq_zero`: what a query finds, the map finds.
* `Indexed.entries`: the map holds the rows of the table, in no order.
-/

namespace UrlShortener.Sql

variable {R K V : Type} [DecidableEq K] {column : R → K} {value : R → V} {table : Table R}
  {m : Finmap fun _ : K => V}

/-- No two rows agree in the column, and the map holds exactly the values of the rows. -/
structure Indexed (column : R → K) (value : R → V) (table : Table R) (m : Finmap fun _ : K => V) : Prop where
  unique : Unique column table
  lookup : ∀ k v, m.lookup k = some v ↔ ∃ row ∈ table, column row = k ∧ value row = v

namespace Indexed

theorem empty : Indexed column value [] (∅ : Finmap fun _ : K => V) where
  unique := List.nodup_nil
  lookup k v := by simp

theorem lookup_mem (h : Indexed column value table m) {row : R} (hrow : row ∈ table) :
    m.lookup (column row) = some (value row) :=
  (h.lookup _ _).2 ⟨row, hrow, rfl, rfl⟩

/-- **The map holds the rows of the table.** -/
theorem entries (h : Indexed column value table m) : m.entries.map Sigma.snd = ↑(table.map value) := by
  have hrows : m.entries = ↑(table.map fun row => (⟨column row, value row⟩ : (_ : K) × V)) := by
    refine Multiset.Nodup.ext m.nodup_entries ?_ |>.2 ?_
    · refine Multiset.coe_nodup.2 (List.Nodup.of_map Sigma.fst ?_)
      rw [List.map_map]
      exact h.unique
    · rintro ⟨k, v⟩
      rw [← Finmap.lookup_eq_some_iff, h.lookup, Multiset.mem_coe, List.mem_map]
      simp
  rw [hrows, Multiset.map_coe, List.map_map]
  rfl

variable [BEq K] [LawfulBEq K]

theorem lookup_first (h : Indexed column value table m) (k : K) :
    m.lookup k = (first (column · == k) table).map value := by
  ext v
  rw [h.lookup k v, Option.map_eq_some_iff]
  simp only [h.unique.first_eq_some, and_assoc]

theorem lookup_eq_none (h : Indexed column value table m) {k : K} :
    m.lookup k = none ↔ ∀ row ∈ table, column row ≠ k := by
  rw [h.lookup_first k, Option.map_eq_none_iff]
  simp [first]

/-- No row has a value of the column exactly when the map does not have it. -/
theorem count_eq_zero (h : Indexed column value table m) {k : K} :
    count (column · == k) table = 0 ↔ m.lookup k = none := by
  rw [h.lookup_eq_none, count, List.countP_eq_zero]
  simp

theorem insert (h : Indexed column value table m) {row : R} (hnew : m.lookup (column row) = none) :
    Indexed column value (table ++ [row]) (m.insert (column row) (value row)) where
  unique := h.unique.append (h.lookup_eq_none.1 hnew)
  lookup k v := by
    rcases eq_or_ne k (column row) with rfl | hk
    · rw [Finmap.lookup_insert, Option.some.injEq]
      constructor
      · intro hv
        exact ⟨row, by simp, rfl, hv⟩
      · rintro ⟨row', hrow', hcolumn, rfl⟩
        rcases List.mem_append.1 hrow' with hold | hlast
        · exact absurd hcolumn (h.lookup_eq_none.1 hnew row' hold)
        · rw [List.mem_singleton.1 hlast]
    · rw [Finmap.lookup_insert_of_ne _ hk, h.lookup]
      simp [or_and_right, exists_or, hk.symm]

/-- An `UPDATE` of the row with a value of the column, and the new value under it. -/
theorem replace (h : Indexed column value table m) {k : K} {v : V} {set : R → R} (hthere : m.lookup k ≠ none)
    (hcolumn : ∀ row, column row = k → column (set row) = k)
    (hvalue : ∀ row, column row = k → value (set row) = v) :
    Indexed column value (update (column · == k) set table) (m.insert k v) := by
  have hkept : ∀ row, column (if column row == k then set row else row) = column row := by
    intro row
    split
    case isTrue hk => rw [hcolumn row (eq_of_beq hk), eq_of_beq hk]
    case isFalse => rfl
  refine ⟨h.unique.map hkept, fun k' v' => ?_⟩
  simp only [update, List.mem_map, exists_exists_and_eq_and, hkept]
  rcases eq_or_ne k' k with rfl | hk
  · rw [Finmap.lookup_insert, Option.some.injEq]
    obtain ⟨old, hold⟩ := Option.ne_none_iff_exists'.1 hthere
    obtain ⟨row, hrow, hcol, -⟩ := (h.lookup _ _).1 hold
    constructor
    · rintro rfl
      exact ⟨row, hrow, hcol, by simp [hcol, hvalue row hcol]⟩
    · rintro ⟨row', -, hcol', rfl⟩
      simp [hcol', hvalue row' hcol']
  · rw [Finmap.lookup_insert_of_ne _ hk, h.lookup]
    refine exists_congr fun row => and_congr_right fun _ => and_congr_right fun hcol => ?_
    rw [if_neg (by simp [hcol, hk])]

theorem delete (h : Indexed column value table m) (k : K) :
    Indexed column value (delete (column · == k) table) (m.erase k) where
  unique := List.Nodup.sublist (List.filter_sublist.map column) h.unique
  lookup k' v := by
    rcases eq_or_ne k' k with rfl | hk
    · rw [Finmap.lookup_erase]
      simp +contextual [Sql.delete]
    · rw [Finmap.lookup_erase_ne hk, h.lookup]
      refine exists_congr fun row => ?_
      simp only [Sql.delete, List.mem_filter, Bool.not_eq_true', beq_eq_false_iff_ne, and_assoc]
      refine and_congr_right fun _ => ⟨fun hv => ⟨hv.1 ▸ hk, hv⟩, fun hv => hv.2⟩

end Indexed

end UrlShortener.Sql

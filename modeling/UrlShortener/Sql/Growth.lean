import UrlShortener.Sql.Table

/-!
# Tables whose rows stay

A table under statements that change rows in place and insert new ones, but delete none.

* `Grows`: one such statement. A column tells the rows apart, and `keeps` says what a change leaves of a row.
* `RowIs`: the row of a key has a property. It keeps it under every statement that keeps the property
  (`RowIs.grows`), and a query for the key finds no row without it (`RowIs.of_first`).
-/

namespace UrlShortener.Sql

variable {R K : Type} {column : R → K} {keeps : R → R → Prop} {table table' : Table R} {k : K} {P : R → Prop}

/-- Rows change in place and keep their column, and at most one row is added, with a value of its own. -/
def Grows (column : R → K) (keeps : R → R → Prop) (table table' : Table R) : Prop :=
  ∃ f new, table' = table.map f ++ new ∧ (∀ r, column (f r) = column r ∧ keeps r (f r)) ∧
    (new = [] ∨ ∃ row, new = [row] ∧ ∀ r ∈ table, column r ≠ column row)

theorem Grows.refl (hrefl : ∀ r, keeps r r) (table : Table R) : Grows column keeps table table :=
  ⟨id, [], by simp, fun r => ⟨rfl, hrefl r⟩, .inl rfl⟩

theorem grows_update {cond : R → Bool} {set : R → R} (hrefl : ∀ r, keeps r r)
    (hset : ∀ r, column (set r) = column r ∧ keeps r (set r)) (table : Table R) :
    Grows column keeps table (update cond set table) := by
  refine ⟨fun r => if cond r then set r else r, [], by simp [update], fun r => ?_, .inl rfl⟩
  dsimp only
  split
  · exact hset r
  · exact ⟨rfl, hrefl r⟩

theorem grows_insert {clash : R → R → Bool} {row : R} (hrefl : ∀ r, keeps r r)
    (hclash : ∀ r, clash row r = false → column r ≠ column row) (h : insert clash row table = some table') :
    Grows column keeps table table' := by
  obtain ⟨rfl, hfresh⟩ := insert_eq_some h
  exact ⟨id, [row], by simp, fun r => ⟨rfl, hrefl r⟩, .inr ⟨row, rfl, fun r hr => hclash r (hfresh r hr)⟩⟩

theorem Grows.unique (hgrows : Grows column keeps table table') (hunique : Unique column table) :
    Unique column table' := by
  obtain ⟨f, new, rfl, hf, hnew⟩ := hgrows
  exact hunique.map_append (fun r => (hf r).1) hnew

/-- The column tells the rows apart, and the row of `k` has the property. -/
def RowIs (column : R → K) (k : K) (P : R → Prop) (table : Table R) : Prop :=
  Unique column table ∧ ∃ row ∈ table, column row = k ∧ P row

/-- **The row stays**, with a property that no change takes away. -/
theorem RowIs.grows (h : RowIs column k P table) (hgrows : Grows column keeps table table')
    (hP : ∀ r r', keeps r r' → P r → P r') : RowIs column k P table' := by
  obtain ⟨hunique, row, hrow, hk, hprop⟩ := h
  have hunique' : Unique column table' := hgrows.unique hunique
  obtain ⟨f, new, rfl, hf, -⟩ := hgrows
  refine ⟨hunique', f row, ?_, (hf row).1.trans hk, hP _ _ (hf row).2 hprop⟩
  exact List.mem_append_left _ (List.mem_map_of_mem hrow)

/-- Every row that a query for the key finds has the property. -/
theorem RowIs.of_first (h : RowIs column k P table) {cond : R → Bool} (hcond : ∀ r, cond r = true → column r = k)
    {row : R} (hfirst : first cond table = some row) : P row := by
  obtain ⟨hunique, r, hr, hk, hprop⟩ := h
  obtain ⟨hrow, htrue⟩ := first_eq_some hfirst
  rwa [hunique.eq_of_column hrow hr ((hcond row htrue).trans hk.symm)]

/-- A change of the row of the key establishes the property. -/
theorem RowIs.update {P' : R → Prop} {cond : R → Bool} {set : R → R} (h : RowIs column k P table)
    (hcolumn : ∀ r, column (set r) = column r) (hset : ∀ r, column r = k → P r → P' (if cond r then set r else r)) :
    RowIs column k P' (Sql.update cond set table) := by
  obtain ⟨hunique, row, hrow, hk, hprop⟩ := h
  have hkept : ∀ r, column (if cond r then set r else r) = column r := by
    intro r
    split
    · exact hcolumn r
    · rfl
  exact ⟨hunique.map hkept, _, List.mem_map_of_mem hrow, (hkept row).trans hk, hset row hk hprop⟩

end UrlShortener.Sql

import UrlShortener.Spec.Soci

/-!
# Reading rowsets

A loop over a rowset appends what it delivers, and ends as the fetching does unless a row cannot be converted.

* `RowSet.pushInto_eq`: what the loop appends and how it ends.
* `RowSet.result_cases`: **the two ways in which it ends.**
-/

namespace UrlShortener.Storage

variable {α : Type} (convert : SociRow → Except Str α)

/-- What is made of the rows up to the first one that cannot be converted. -/
def converted : List SociRow → List α
  | [] => []
  | r :: rs =>
    match convert r with
    | .error _ => []
    | .ok item => item :: converted rs

namespace RowSet

variable (rs : RowSet)

/-- What a loop over the rowset appends. -/
def delivered : List α := converted convert rs.rows

/-- How it ends. -/
def result : Except Str Unit := (rs.pushInto convert []).1

/-- Every row is fetched and converted. -/
structure Reads : Prop where
  failure : rs.failure = none
  rows : rs.rows.map convert = (rs.delivered convert).map .ok

end RowSet

variable {convert}

theorem pushRows_eq (failure : Option Str) (rs : List SociRow) (items : List α) :
    pushRows convert failure rs items = ((pushRows convert failure rs []).1, items ++ converted convert rs) := by
  induction rs generalizing items with
  | nil =>
    cases failure with
    | none => simp [pushRows, converted]
    | some what => simp [pushRows, converted]
  | cons r rs ih =>
    simp only [pushRows, converted]
    cases convert r with
    | error what => simp
    | ok item =>
      simp only
      rw [ih (items ++ [item]), ih ([] ++ [item]), List.append_assoc, List.singleton_append]

theorem pushRows_cases (failure : Option Str) (rs : List SociRow) :
    (rs.map convert = (converted convert rs).map .ok ∧
      (pushRows convert failure rs []).1 = failure.elim (.ok ()) .error) ∨
    ∃ r ∈ rs, ∃ what, convert r = .error what ∧ (pushRows convert failure rs []).1 = .error what := by
  induction rs with
  | nil => cases failure <;> exact .inl ⟨rfl, rfl⟩
  | cons r rs ih =>
    simp only [pushRows, converted, List.map_cons]
    cases hr : convert r with
    | error what => exact .inr ⟨r, List.mem_cons_self, what, hr, rfl⟩
    | ok item =>
      simp only
      rw [pushRows_eq]
      rcases ih with ⟨hmap, hresult⟩ | ⟨r', hr', what, hwhat, hresult⟩
      · exact .inl ⟨by rw [hmap, List.map_cons], hresult⟩
      · exact .inr ⟨r', List.mem_cons_of_mem _ hr', what, hwhat, hresult⟩

namespace RowSet

variable {rs : RowSet}

/-- **A loop over a rowset appends what it delivers.** -/
theorem pushInto_eq (rs : RowSet) (items : List α) :
    rs.pushInto convert items = (rs.result convert, items ++ rs.delivered convert) :=
  pushRows_eq rs.failure rs.rows items

/-- **How the loop ends**: as the fetching does, all rows converted, or at a row that cannot be converted. -/
theorem result_cases (rs : RowSet) (convert : SociRow → Except Str α) :
    (rs.rows.map convert = (rs.delivered convert).map .ok ∧ rs.result convert = rs.failure.elim (.ok ()) .error) ∨
    ∃ r ∈ rs.rows, ∃ what, convert r = .error what ∧ rs.result convert = .error what :=
  pushRows_cases rs.failure rs.rows

theorem reads_iff :
    rs.Reads convert ↔ rs.failure = none ∧ ∀ r ∈ rs.rows, ∃ item, convert r = .ok item := by
  constructor
  · rintro ⟨hfailure, hrows⟩
    refine ⟨hfailure, fun r hr => ?_⟩
    have hmem : convert r ∈ (rs.delivered convert).map .ok := hrows ▸ List.mem_map_of_mem hr
    obtain ⟨item, -, heq⟩ := List.mem_map.1 hmem
    exact ⟨item, heq.symm⟩
  · rintro ⟨hfailure, hrows⟩
    rcases rs.result_cases convert with ⟨hmap, -⟩ | ⟨r, hr, what, hwhat, -⟩
    · exact ⟨hfailure, hmap⟩
    · obtain ⟨item, hitem⟩ := hrows r hr
      rw [hwhat] at hitem
      cases hitem

theorem result_ok_iff : rs.result convert = .ok () ↔ rs.Reads convert := by
  constructor
  · intro hok
    rcases rs.result_cases convert with ⟨hmap, hresult⟩ | ⟨r, hr, what, hwhat, hresult⟩
    · refine ⟨?_, hmap⟩
      rw [hok] at hresult
      cases hfailure : rs.failure with
      | none => rfl
      | some what =>
        rw [hfailure] at hresult
        cases hresult
    · rw [hok] at hresult
      cases hresult
  · intro h
    obtain ⟨hfailure, hrows⟩ := reads_iff.1 h
    rcases rs.result_cases convert with ⟨-, hresult⟩ | ⟨r, hr, what, hwhat, -⟩
    · rw [hresult, hfailure]
      rfl
    · -- a row that cannot be converted is not among those that were
      obtain ⟨item, hitem⟩ := hrows r hr
      rw [hwhat] at hitem
      cases hitem

/-- A rowset without a failure whose rows are all converted. -/
theorem pushInto_map {G : Type} {row : G → SociRow} {item : G → α} {groups : List G}
    (h : ∀ g ∈ groups, convert (row g) = .ok (item g)) (items : List α) :
    (⟨groups.map row, none⟩ : RowSet).pushInto convert items = (.ok (), items ++ groups.map item) := by
  induction groups generalizing items with
  | nil => exact congrArg _ (List.append_nil items).symm
  | cons g groups ih =>
    have hg := h g List.mem_cons_self
    have hrest := ih (fun g' hg' => h g' (List.mem_cons_of_mem g hg')) (items ++ [item g])
    simp only [pushInto, pushRows, List.map_cons, hg] at hrest ⊢
    rw [hrest, List.append_assoc, List.singleton_append]

end RowSet

end UrlShortener.Storage

import UrlShortener.Proof.JsonText

/-!
# Exact comparison of a table

Without `order_by` the rows of both sides are sorted by their JSON texts and compared rank by rank.

* `passes_iff`: the verdict in exact mode.
* `compareTable_perm`: **the result does not depend on the order of the rows**, since rows with one text are one row.
* `exact_verdict`: how the verdict stands to the pairings of expected with actual rows.

A passing table has a pairing, but a pairing need not be found: a matcher is sorted by its own text and not by that of
the value it accepts. With literals only, the rows that belong together have the same rank.
-/

namespace UrlShortener.StateAssert

variable {F : Type} {py : Python F}

/-! ## Acceptance -/

/-- The expected value, a literal or a matcher, accepts the actual one. -/
def Accepts (py : Python F) (expected actual : Value F) : Prop := matchValue py expected actual = .ok true

/-- Every value of the expected row accepts what the actual row has in its column, or null. -/
def RowAccepts (py : Python F) (expectedRow actualRow : Row F) : Prop :=
  ∀ item ∈ expectedRow.items, Accepts py item.2 (actualRow.get item.1)

theorem rowsMatchLoop_iff {actualRow : Row F} {items : List (Str × Value F)} :
    rowsMatchLoop py actualRow items = .ok true ↔ ∀ item ∈ items, Accepts py item.2 (actualRow.get item.1) := by
  induction items with
  | nil => simp [rowsMatchLoop]
  | cons item items ih =>
    rw [List.forall_mem_cons, ← ih]
    constructor
    · intro h
      obtain ⟨ok, hok, h⟩ := bind_eq_ok h
      obtain ⟨rest, hrest, h⟩ := bind_eq_ok h
      obtain ⟨rfl, rfl⟩ := (Bool.and_eq_true _ _).mp (Except.ok.inj h)
      exact ⟨hok, hrest⟩
    · rintro ⟨hok, hrest⟩
      rw [rowsMatchLoop, hok, hrest]
      rfl

theorem allMatch_iff {pairs : List (Row F × Row F)} :
    allMatch py pairs = .ok true ↔ ∀ pair ∈ pairs, RowAccepts py pair.1 pair.2 := by
  induction pairs with
  | nil => simp [allMatch]
  | cons pair pairs ih =>
    rw [List.forall_mem_cons, ← ih, RowAccepts, ← rowsMatchLoop_iff]
    constructor
    · intro h
      obtain ⟨ok, hok, h⟩ := bind_eq_ok h
      cases ok with
      | false => cases h
      | true => exact ⟨hok, h⟩
    · rintro ⟨hok, hrest⟩
      rw [allMatch, rowsMatch, hok]
      exact hrest

/-- The table passes. -/
def Passes (py : Python F) (expected : TableExpectation F) (actualRows : List (Row F)) : Prop :=
  ∃ result, compareTable py expected actualRows = .ok result ∧ result.status = .pass

theorem compareExact_iff {expected : TableExpectation F} {expectedRows actualRows : List (Row F)} :
    (∃ result, compareExact py expected expectedRows actualRows = .ok result ∧ result.status = .pass) ↔
      List.Forall₂ (RowAccepts py) expectedRows actualRows := by
  rw [List.forall₂_iff_zip]
  unfold compareExact
  by_cases hlength : expectedRows.length = actualRows.length
  · rw [if_neg (not_not_intro hlength)]
    constructor
    · rintro ⟨result, hresult, hpass⟩
      obtain ⟨all, hall, h⟩ := bind_eq_ok hresult
      cases all with
      | false =>
        cases h
        cases hpass
      | true => exact ⟨hlength, fun {_ _} hmem => allMatch_iff.1 hall _ hmem⟩
    · rintro ⟨-, hpairs⟩
      have hall : allMatch py (expectedRows.zip actualRows) = .ok true := allMatch_iff.2 fun _ hmem => hpairs hmem
      rw [hall]
      exact ⟨_, rfl, rfl⟩
  · rw [if_pos hlength]
    constructor
    · rintro ⟨result, hresult, hpass⟩
      cases hresult
      cases hpass
    · rintro ⟨h, -⟩
      exact absurd h hlength

/-! ## Order -/

theorem sortRows_perm (py : Python F) (rows : List (Row F)) : (sortRows py rows).Perm rows :=
  List.perm_insertionSort _ _

theorem sortRows_congr (py : Python F) {rows rows' : List (Row F)} (h : rows.Perm rows') :
    sortRows py rows = sortRows py rows' := by
  have htrans : IsTrans (Row F) fun row row' => row.text py ≤ row'.text py := ⟨fun _ _ _ => le_trans⟩
  have htotal : Std.Total fun row row' : Row F => row.text py ≤ row'.text py := ⟨fun _ _ => le_total _ _⟩
  exact Sorting.insertionSort_congr h fun row _ row' _ hle hge => Row.text_injective py (le_antisymm hle hge)

section

variable {expected : TableExpectation F} {actual : List (Row F)}

theorem compareTable_sorted (py : Python F) (expected : TableExpectation F) (actual : List (Row F))
    (horder : expected.orderBy = []) :
    compareTable py expected actual =
      match expected.mode with
      | .exact => compareExact py expected (sortRows py expected.rows)
          (sortRows py (actual.map (Row.without expected.ignoreColumns)))
      | .contains => compareContains py expected (sortRows py expected.rows)
          (sortRows py (actual.map (Row.without expected.ignoreColumns))) := by
  obtain ⟨name, mode, ignore, orderBy, rows⟩ := expected
  obtain rfl : orderBy = [] := horder
  rfl

/-- The sorted rows match pair by pair. -/
theorem passes_iff (hmode : expected.mode = .exact) (horder : expected.orderBy = []) :
    Passes py expected actual ↔ List.Forall₂ (RowAccepts py) (sortRows py expected.rows)
      (sortRows py (actual.map (Row.without expected.ignoreColumns))) := by
  rw [Passes, compareTable_sorted py _ _ horder, hmode]
  exact compareExact_iff

/-- **The result does not depend on the order of the rows.** -/
theorem compareTable_perm (py : Python F) (horder : expected.orderBy = []) {rows' actual' : List (Row F)}
    (hrows : expected.rows.Perm rows') (hactual : actual.Perm actual') :
    compareTable py { expected with rows := rows' } actual' = compareTable py expected actual := by
  rw [compareTable_sorted py { expected with rows := rows' } actual' horder, compareTable_sorted py expected _ horder,
    sortRows_congr py hrows, sortRows_congr py (hactual.map (Row.without expected.ignoreColumns))]
  rfl

/-- The ranks pair the rows. -/
theorem paired_of_passes (hmode : expected.mode = .exact) (horder : expected.orderBy = [])
    (h : Passes py expected actual) :
    ∃ paired, paired.Perm actual ∧
      List.Forall₂ (fun e a => RowAccepts py e (a.without expected.ignoreColumns)) expected.rows paired := by
  rw [passes_iff hmode horder, sortRows, sortRows,
    ← List.map_insertionSort (fun row row' => (row.without expected.ignoreColumns).text py ≤
      (row'.without expected.ignoreColumns).text py) _ _ _ fun _ _ _ _ => Iff.rfl, List.forall₂_map_right_iff] at h
  exact Sorting.exists_pairing (List.perm_insertionSort _ _) (List.perm_insertionSort _ _) h

end

/-! ## Pairings -/

/-- The columns of a row, in order. -/
def Row.columns (row : Row F) : List Str := row.items.map Prod.fst

/-- The rows have the same columns, and every expected value accepts the actual one. -/
def Corresponds (py : Python F) (expectedRow actualRow : Row F) : Prop :=
  expectedRow.columns = actualRow.columns ∧ RowAccepts py expectedRow actualRow

/-- **A pairing of the expected with the actual rows**, the ignored columns removed. -/
def Paired (py : Python F) (expected : TableExpectation F) (actual : List (Row F)) : Prop :=
  ∃ paired, paired.Perm actual ∧ List.Forall₂ (fun e a =>
    Corresponds py (e.without expected.ignoreColumns) (a.without expected.ignoreColumns)) expected.rows paired

theorem Row.get_of_mem {row : Row F} {col : Str} {v : Value F} (h : (col, v) ∈ row.items) : row.get col = v := by
  obtain ⟨front, back, hitems⟩ := List.append_of_mem h
  have hsorted := row.sorted
  rw [hitems, List.pairwise_append] at hsorted
  have hlookup : row.items.lookup col = some v := by
    refine List.lookup_eq_some_iff.2 ⟨front, back, hitems, fun item hitem => bne_iff_ne.2 ?_⟩
    exact (hsorted.2.2 item hitem _ List.mem_cons_self).ne'
  rw [Row.get, hlookup, Option.getD_some]

theorem Row.items_eq (row : Row F) : row.items = row.columns.map fun col => (col, row.get col) := by
  rw [Row.columns, List.map_map]
  refine (List.map_id _).symm.trans (List.map_congr_left fun item hitem => ?_)
  exact Prod.ext rfl (Row.get_of_mem hitem).symm

/-- A row is given by its columns and what it has in them. -/
theorem Row.ext_get {row row' : Row F} (hcolumns : row.columns = row'.columns)
    (hget : ∀ col ∈ row.columns, row.get col = row'.get col) : row = row' := by
  have hitems : row.items = row'.items := by
    rw [row.items_eq, row'.items_eq, ← hcolumns]
    exact List.map_congr_left fun col hcol => by rw [hget col hcol]
  cases row
  cases row'
  cases hitems
  rfl

theorem Row.without_eq_self {row : Row F} {ignore : List Str} (h : ∀ col ∈ row.columns, col ∉ ignore) :
    row.without ignore = row := by
  have hitems : (row.without ignore).items = row.items :=
    List.filter_eq_self.2 fun item hitem => by simpa using h item.1 (List.mem_map_of_mem hitem)
  cases row
  simp only [Row.without, Row.mk.injEq]
  exact hitems

theorem Row.not_mem_ignore {row : Row F} {ignore : List Str} {col : Str} (h : col ∈ (row.without ignore).columns) :
    col ∉ ignore := by
  obtain ⟨item, hitem, rfl⟩ := List.mem_map.1 h
  simpa using (List.mem_filter.1 hitem).2

/-! ## Literals -/

/-- Null, an integer or a string. -/
def isPlain : Value F → Bool
  | .none => true
  | .int _ => true
  | .str _ => true
  | _ => false

/-- **A plain value accepts itself and nothing else that is plain.** -/
theorem accepts_iff_of_isPlain {v w : Value F} (hv : isPlain v = true) (hw : isPlain w = true) :
    Accepts py v w ↔ v = w := by
  cases v <;> cases hv <;> cases w <;> cases hw <;> simp [Accepts, matchValue, pyEq, number, FloatValue.eq]

/-- No matchers in the row. -/
def Row.Plain (row : Row F) : Prop := ∀ item ∈ row.items, isPlain item.2 = true

theorem Row.isPlain_get {row : Row F} (h : row.Plain) {col : Str} (hcol : col ∈ row.columns) :
    isPlain (row.get col) = true := by
  obtain ⟨item, hitem, rfl⟩ := List.mem_map.1 hcol
  rw [Row.get_of_mem hitem]
  exact h item hitem

theorem Corresponds.eq {e a : Row F} (he : e.Plain) (ha : a.Plain) (h : Corresponds py e a) : e = a := by
  refine Row.ext_get h.1 fun col hcol => ?_
  have haccepts : Accepts py (e.get col) (a.get col) := by
    obtain ⟨item, hitem, rfl⟩ := List.mem_map.1 hcol
    rw [Row.get_of_mem hitem]
    exact h.2 item hitem
  exact (accepts_iff_of_isPlain (e.isPlain_get he hcol) (a.isPlain_get ha (h.1 ▸ hcol))).1 haccepts

theorem RowAccepts.refl {row : Row F} (h : row.Plain) : RowAccepts py row row := by
  intro item hitem
  rw [Row.get_of_mem hitem]
  exact (accepts_iff_of_isPlain (h item hitem) (h item hitem)).2 rfl

/-! ## The verdict -/

/-- Every expected row names the columns of the actual rows that are not ignored. -/
def SameColumns (expected : TableExpectation F) (actual : List (Row F)) : Prop :=
  ∀ e ∈ expected.rows, ∀ a ∈ actual, e.columns = (a.without expected.ignoreColumns).columns

/-- The values are plain, and no expected row names an ignored column. -/
def OnlyLiterals (expected : TableExpectation F) (actual : List (Row F)) : Prop :=
  (∀ e ∈ expected.rows, e.Plain ∧ ∀ col ∈ e.columns, col ∉ expected.ignoreColumns) ∧
    ∀ a ∈ actual, (a.without expected.ignoreColumns).Plain

section

variable {expected : TableExpectation F} {actual : List (Row F)}

theorem Paired.of_passes (hmode : expected.mode = .exact) (horder : expected.orderBy = [])
    (hcolumns : SameColumns expected actual) (h : Passes py expected actual) : Paired py expected actual := by
  obtain ⟨paired, hperm, hpairs⟩ := paired_of_passes hmode horder h
  refine ⟨paired, hperm, Sorting.forall₂_imp_mem hpairs fun e he a ha haccepts => ?_⟩
  have hsame := hcolumns e he a (hperm.mem_iff.1 ha)
  rw [Row.without_eq_self fun col hcol => Row.not_mem_ignore (hsame ▸ hcol)]
  exact ⟨hsame, haccepts⟩

theorem Paired.passes (hmode : expected.mode = .exact) (horder : expected.orderBy = [])
    (hliterals : OnlyLiterals expected actual) (h : Paired py expected actual) : Passes py expected actual := by
  obtain ⟨hexpected, hactual⟩ := hliterals
  obtain ⟨paired, hperm, hpairs⟩ := h
  -- rows that are paired are the same row, so that both sides are sorted into one list
  have heq : List.Forall₂ (fun e a => e = a.without expected.ignoreColumns) expected.rows paired := by
    refine Sorting.forall₂_imp_mem hpairs fun e he a ha hcorresponds => ?_
    rw [Row.without_eq_self (hexpected e he).2] at hcorresponds
    exact hcorresponds.eq (hexpected e he).1 (hactual a (hperm.mem_iff.1 ha))
  rw [← List.forall₂_map_right_iff, List.forall₂_eq_eq_eq] at heq
  have hsorted := sortRows_congr py (hperm.map (Row.without expected.ignoreColumns))
  rw [← heq] at hsorted
  rw [passes_iff hmode horder, ← hsorted, List.forall₂_same]
  intro e he
  exact .refl (hexpected e ((sortRows_perm py _).mem_iff.1 he)).1

end

/-- **Exact mode without `order_by`.** The table passes exactly if, both sides sorted by their texts, every expected row
accepts the actual row of its rank. So the order of the rows does not matter, and a table that passes has a pairing
in which every expected row accepts its actual one; the columns are then the same if the expected rows name them all.
A pairing of rows with the same columns is sure to be found where the values are literals. -/
theorem exact_verdict (py : Python F) (expected : TableExpectation F) (actual : List (Row F))
    (hmode : expected.mode = .exact) (horder : expected.orderBy = []) :
    (Passes py expected actual ↔ List.Forall₂ (RowAccepts py) (sortRows py expected.rows)
      (sortRows py (actual.map (Row.without expected.ignoreColumns)))) ∧
    (∀ rows' actual', expected.rows.Perm rows' → actual.Perm actual' →
      compareTable py { expected with rows := rows' } actual' = compareTable py expected actual) ∧
    (Passes py expected actual → ∃ paired, paired.Perm actual ∧
      List.Forall₂ (fun e a => RowAccepts py e (a.without expected.ignoreColumns)) expected.rows paired) ∧
    (SameColumns expected actual → Passes py expected actual → Paired py expected actual) ∧
    (OnlyLiterals expected actual → Paired py expected actual → Passes py expected actual) :=
  ⟨passes_iff hmode horder, fun _ _ => compareTable_perm py horder, paired_of_passes hmode horder,
    Paired.of_passes hmode horder, Paired.passes hmode horder⟩

/-- An interpreter for tables without floats. -/
def noFloats : Python Empty where
  repr := Empty.elim
  value := Empty.elim
  repr_injective := fun x => x.elim
  repr_chars := fun x => x.elim
  repr_mark := fun x => x.elim
  search := fun _ _ => .ok false
  makeDiff := fun _ _ => []

/-- A row with the column `a`. -/
def rowA (v : Value Empty) : Row Empty := ⟨[("a", v)], List.pairwise_singleton _ _⟩

/-- A row with the columns `a` and `id`. -/
def rowWithId (v id : Value Empty) : Row Empty :=
  ⟨[("a", v), ("id", id)], List.pairwise_pair.2 (show "a" < "id" by decide)⟩

/-- The expectation of exactly these rows. -/
def expectRows (ignore : List Str) (rows : List (Row Empty)) : TableExpectation Empty :=
  ⟨"t", .exact, ignore, [], rows⟩

theorem exact_verdict_sample :
    let expected := expectRows ["id"] [rowA (.int 2), rowA (.int 1)]
    let actual := [rowWithId (.int 1) (.int 7), rowWithId (.int 2) (.int 8)]
    SameColumns expected actual ∧ OnlyLiterals expected actual ∧
      (Passes noFloats expected actual ↔ Paired noFloats expected actual) := by
  intro expected actual
  have hplain : ∀ n, (rowA (.int n)).Plain := fun n => List.forall_mem_singleton.2 rfl
  have hnames : ∀ v, ∀ col ∈ (rowA v).columns, col ∉ ["id".toList] :=
    fun v => List.forall_mem_singleton.2 (show "a".toList ∉ ["id".toList] by decide)
  have hcolumns : SameColumns expected actual := by
    simp only [SameColumns, expected, actual, expectRows, List.forall_mem_cons, List.not_mem_nil, IsEmpty.forall_iff,
      implies_true, and_true]
    exact ⟨⟨rfl, rfl⟩, rfl, rfl⟩
  have hliterals : OnlyLiterals expected actual := by
    simp only [OnlyLiterals, expected, actual, expectRows, List.forall_mem_cons, List.not_mem_nil, IsEmpty.forall_iff,
      implies_true, and_true]
    exact ⟨⟨⟨hplain 2, hnames _⟩, hplain 1, hnames _⟩, hplain 1, hplain 2⟩
  obtain ⟨-, -, -, hsound, hcomplete⟩ := exact_verdict noFloats expected actual rfl rfl
  exact ⟨hcolumns, hliterals, hsound hcolumns, hcomplete hliterals⟩

/-- The row of `$any` is sorted behind that of 1, so that 1 is compared with 0. A column that no expected row names is
not compared at all. -/
theorem verdict_not_pairing :
    let anyAndOne := expectRows [] [rowA (.dict [("$any", .bool true)]), rowA (.int 1)]
    let one := expectRows [] [rowA (.int 1)]
    (Paired noFloats anyAndOne [rowA (.int 1), rowA (.int 0)] ∧
      ¬Passes noFloats anyAndOne [rowA (.int 1), rowA (.int 0)]) ∧
    (Passes noFloats one [rowWithId (.int 1) (.int 7)] ∧ ¬Paired noFloats one [rowWithId (.int 1) (.int 7)]) := by
  intro anyAndOne one
  refine ⟨⟨?_, ?_⟩, ⟨_, rfl, rfl⟩, ?_⟩
  · refine ⟨[rowA (.int 0), rowA (.int 1)], List.Perm.swap _ _ _, .cons ⟨rfl, ?_⟩ (.cons ⟨rfl, ?_⟩ .nil)⟩
    · exact List.forall_mem_singleton.2 rfl
    · exact List.forall_mem_singleton.2 rfl
  · rintro ⟨result, hresult, hpass⟩
    have hstatus : (compareTable noFloats anyAndOne [rowA (.int 1), rowA (.int 0)]).map (·.status) = .ok .fail := rfl
    rw [hresult] at hstatus
    cases hpass.symm.trans (Except.ok.inj hstatus)
  · rintro ⟨paired, hperm, hpairs⟩
    rw [List.perm_singleton.1 hperm] at hpairs
    cases hpairs with
    | cons hcorresponds _ => exact absurd hcorresponds.1 (by decide)

end UrlShortener.StateAssert

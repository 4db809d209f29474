import Mathlib.Data.Finmap
import Mathlib.Data.List.Dedup
import Mathlib.Data.List.Sort
import Mathlib.Data.List.Nodup
import Mathlib.Algebra.BigOperators.Group.List.Lemmas
import Mathlib.Algebra.GroupWithZero.Nat

/-!
# Counting rows by a column

`GROUP BY` with `COUNT(*)`, and the counters that a loop over the rows keeps in a map.

* `groupCount`: every value of the column with the number of its rows.
* `tally`: the loop `counts[column(row)]++`.
* `toMap_groupCount`: **both give the same counts.**
* `sum_groupCount`: the counts of some groups add up to the number of their rows.
-/

namespace UrlShortener.Sql

variable {R K V : Type} [DecidableEq K] {column : R → K} {rows : List R} {k : K} {n : ℕ}

/-- `SELECT column, COUNT(*) .. GROUP BY column`; the order of the groups is up to the database. -/
def groupCount (column : R → K) (rows : List R) : List (K × ℕ) :=
  (rows.map column).dedup.map fun k => (k, rows.countP fun r => column r = k)

/-- `counts[k]++`. -/
def bump (k : K) (counts : Finmap fun _ : K => ℕ) : Finmap fun _ : K => ℕ :=
  counts.insert k ((counts.lookup k).getD 0 + 1)

/-- The counters after a loop over the rows. -/
def tally (column : R → K) (rows : List R) : Finmap fun _ : K => ℕ :=
  rows.foldl (fun counts r => bump (column r) counts) ∅

/-- Pairs taken into a map one after the other. -/
def toMap (items : List (K × V)) : Finmap fun _ : K => V := items.foldl (fun m item => m.insert item.1 item.2) ∅

/-- The map only holds what was put into it. -/
theorem mem_of_lookup_toMap {items : List (K × V)} {key : K} {value : V} (h : (toMap items).lookup key = some value) :
    (key, value) ∈ items := by
  induction items using List.reverseRecOn with
  | nil => cases h
  | append_singleton items item ih =>
    rw [toMap, List.foldl_append, List.foldl_cons, List.foldl_nil] at h
    by_cases hk : key = item.1
    · rw [hk, Finmap.lookup_insert, Option.some.injEq] at h
      rw [hk, ← h]
      exact List.mem_append_right _ (List.mem_singleton_self _)
    · rw [Finmap.lookup_insert_of_ne _ hk] at h
      exact List.mem_append_left _ (ih h)

/-- With distinct keys the map holds all that was put into it. -/
theorem lookup_toMap {items : List (K × V)} (hkeys : (items.map (·.1)).Nodup) (key : K) (value : V) :
    (toMap items).lookup key = some value ↔ (key, value) ∈ items := by
  refine ⟨mem_of_lookup_toMap, fun hmem => ?_⟩
  induction items using List.reverseRecOn with
  | nil => cases hmem
  | append_singleton items item ih =>
    rw [List.map_append, List.map_singleton, List.nodup_append] at hkeys
    obtain ⟨hnodup, -, hdisjoint⟩ := hkeys
    rw [toMap, List.foldl_append, List.foldl_cons, List.foldl_nil]
    rcases List.mem_append.1 hmem with hold | hlast
    · have hne : key ≠ item.1 := hdisjoint _ (List.mem_map_of_mem hold) _ (List.mem_singleton_self _)
      rw [Finmap.lookup_insert_of_ne _ hne]
      exact ih hnodup hold
    · rw [← List.mem_singleton.1 hlast, Finmap.lookup_insert]

theorem countP_pos_of_mem (h : k ∈ rows.map column) : 0 < rows.countP fun r => column r = k := by
  obtain ⟨r, hr, rfl⟩ := List.mem_map.1 h
  exact List.countP_pos_iff.2 ⟨r, hr, by simp⟩

/-- **The groups**: the values that occur, each with its count. -/
theorem mem_groupCount : (k, n) ∈ groupCount column rows ↔ 0 < n ∧ (rows.countP fun r => column r = k) = n := by
  unfold groupCount
  rw [List.mem_map]
  constructor
  · rintro ⟨k', hk', h⟩
    obtain ⟨rfl, rfl⟩ := Prod.mk.inj h
    exact ⟨countP_pos_of_mem (List.mem_dedup.1 hk'), rfl⟩
  · rintro ⟨hpos, rfl⟩
    obtain ⟨r, hr, hk⟩ := List.countP_pos_iff.1 hpos
    have hk' : column r = k := of_decide_eq_true hk
    exact ⟨k, List.mem_dedup.2 (hk' ▸ List.mem_map_of_mem hr), rfl⟩

theorem groupCount_keys : (groupCount column rows).map (·.1) = (rows.map column).dedup := by
  rw [groupCount, List.map_map]
  exact List.map_id _

theorem exists_of_mem_groupCount {g : K × ℕ} (h : g ∈ groupCount column rows) : ∃ r ∈ rows, column r = g.1 := by
  have hkey : g.1 ∈ (groupCount column rows).map (·.1) := List.mem_map_of_mem h
  rw [groupCount_keys] at hkey
  exact List.mem_map.1 (List.mem_dedup.1 hkey)

theorem groupCount_of_mem (column : R → K) {r : R} (h : r ∈ rows) : ∃ n, (column r, n) ∈ groupCount column rows :=
  ⟨_, mem_groupCount.2 ⟨countP_pos_of_mem (List.mem_map_of_mem h), rfl⟩⟩

theorem groupCount_keys_nodup : ((groupCount column rows).map (·.1)).Nodup := by
  rw [groupCount_keys]
  exact List.nodup_dedup _

/-- Grouping by an injective function of the column. -/
theorem groupCount_comp {K' : Type} [DecidableEq K'] {f : K → K'} (hf : Function.Injective f) (column : R → K)
    (rows : List R) :
    groupCount (fun r => f (column r)) rows = (groupCount column rows).map fun g => (f g.1, g.2) := by
  have hkeys : (rows.map fun r => f (column r)).dedup = (rows.map column).dedup.map f := by
    rw [← List.dedup_map_of_injective hf, List.map_map]
    rfl
  rw [groupCount, groupCount, hkeys, List.map_map, List.map_map]
  refine List.map_congr_left fun k _ => ?_
  simp only [Function.comp_apply, hf.eq_iff]

/-- Grouping rows that are computed from others. -/
theorem groupCount_map {R' : Type} (image : R' → R) (column : R → K) (rows : List R') :
    groupCount column (rows.map image) = groupCount (fun r => column (image r)) rows := by
  unfold groupCount
  rw [List.map_map]
  simp only [List.countP_map, Function.comp_def]

/-- **The counts of the groups with a property add up.** -/
theorem sum_groupCount (column : R → K) (rows : List R) (p : K → Bool) :
    (((groupCount column rows).filter fun g => p g.1).map (·.2)).sum = rows.countP fun r => p (column r) := by
  have hcount : ∀ k, (rows.countP fun r => column r = k) = (rows.map column).count k := by
    intro k
    rw [List.count, List.countP_map]
    exact List.countP_congr fun r _ => by simp
  have hsum := List.sum_map_count_dedup_filter_eq_countP p (rows.map column)
  rw [List.countP_map] at hsum
  rw [groupCount, List.filter_map, List.map_map]
  simp only [Function.comp_def, hcount]
  exact hsum

/-- All the counts add up. -/
theorem sum_groupCount_all (column : R → K) (rows : List R) :
    ((groupCount column rows).map (·.2)).sum = rows.length := by
  have hsum := sum_groupCount column rows fun _ => true
  rwa [List.filter_true, List.countP_true] at hsum

theorem tally_append (r : R) : tally column (rows ++ [r]) = bump (column r) (tally column rows) := by
  rw [tally, List.foldl_append]
  rfl

/-- **The counters**: the values that occur, each with its count. -/
theorem lookup_tally :
    (tally column rows).lookup k = some n ↔ 0 < n ∧ (rows.countP fun r => column r = k) = n := by
  induction rows using List.reverseRecOn generalizing n with
  | nil =>
    rw [tally, List.foldl_nil, Finmap.lookup_empty, List.countP_nil]
    constructor
    · intro h
      cases h
    · rintro ⟨hpos, rfl⟩
      exact absurd hpos (Nat.lt_irrefl 0)
  | append_singleton rows r ih =>
    rw [tally_append, bump, List.countP_append, List.countP_singleton]
    by_cases hk : k = column r
    · subst hk
      rw [Finmap.lookup_insert, Option.some.injEq, decide_eq_true rfl, if_pos rfl]
      -- the counter stands at the number of rows seen so far, which is none if there is no counter
      have hcount : ((tally column rows).lookup (column r)).getD 0 =
          rows.countP fun r' => column r' = column r := by
        cases hl : (tally column rows).lookup (column r) with
        | none =>
          by_contra hne
          have hsome := (ih (n := rows.countP fun r' => column r' = column r)).2
            ⟨Nat.pos_of_ne_zero fun h => hne (by rw [h]; rfl), rfl⟩
          rw [hl] at hsome
          cases hsome
        | some m => exact (ih.1 hl).2.symm
      rw [hcount]
      constructor
      · rintro rfl
        exact ⟨Nat.succ_pos _, rfl⟩
      · exact And.right
    · have hne : ¬decide (column r = k) = true := by
        rw [decide_eq_true_eq]
        exact Ne.symm hk
      rw [Finmap.lookup_insert_of_ne _ hk, if_neg hne, Nat.add_zero]
      exact ih

/-- A counter, or 0 where there is none. -/
theorem getD_lookup_tally : ((tally column rows).lookup k).getD 0 = rows.countP fun r => column r = k := by
  cases hl : (tally column rows).lookup k with
  | none =>
    by_contra hne
    have hsome := (lookup_tally (n := rows.countP fun r => column r = k)).2
      ⟨Nat.pos_of_ne_zero fun h => hne (by rw [h]; rfl), rfl⟩
    rw [hl] at hsome
    cases hsome
  | some m => exact (lookup_tally.1 hl).2.symm

/-- **Groups and counters agree.** -/
theorem toMap_groupCount : toMap (groupCount column rows) = tally column rows := by
  refine Finmap.ext_lookup fun k => Option.ext fun n => ?_
  rw [lookup_toMap groupCount_keys_nodup, mem_groupCount, lookup_tally]

theorem groupCount_nodup : (groupCount column rows).Nodup := groupCount_keys_nodup.of_map _

/-- The entries of the counters are the groups. -/
theorem tally_entries :
    (tally column rows).entries.map (fun e => (e.1, e.2)) = (groupCount column rows : Multiset (K × ℕ)) := by
  have hinj : Function.Injective fun e : (_ : K) × ℕ => (e.1, e.2) := by
    rintro ⟨k, n⟩ ⟨k', n'⟩ h
    obtain ⟨rfl, rfl⟩ := Prod.mk.inj h
    rfl
  refine (Multiset.Nodup.ext ?_ (Multiset.coe_nodup.2 groupCount_nodup)).2 fun g => ?_
  · exact (tally column rows).nodupKeys.nodup.map hinj
  · obtain ⟨k, n⟩ := g
    rw [Multiset.mem_coe, mem_groupCount, ← lookup_tally, Finmap.lookup_eq_some_iff]
    exact Multiset.mem_map_of_injective hinj (a := ⟨k, n⟩)

/-! ## Groups in order -/

/-- `ORDER BY` a column of the result. -/
def orderRows [LE V] [DecidableLE V] (value : R → V) (rows : List R) : List R :=
  rows.insertionSort fun r r' => value r ≤ value r'

theorem orderRows_perm [LE V] [DecidableLE V] (value : R → V) (rows : List R) : (orderRows value rows).Perm rows :=
  List.perm_insertionSort _ rows

theorem orderRows_sorted {V : Type} [LinearOrder V] (value : R → V) (rows : List R) :
    (orderRows value rows).Pairwise (value · ≤ value ·) := by
  have htrans : IsTrans R fun r r' => value r ≤ value r' := ⟨fun _ _ _ => le_trans⟩
  have htotal : Std.Total fun r r' : R => value r ≤ value r' := ⟨fun r r' => le_total (value r) (value r')⟩
  exact List.pairwise_insertionSort (fun r r' => value r ≤ value r') rows

/-- **Rows in the order of one column are in the order of another** exactly when the second says the same about
every two of them. -/
theorem sorted_eq_iff {K V : Type} [LinearOrder K] [LinearOrder V] {key : R → K} {value : R → V}
    {sorted ordered : List R} (hperm : sorted.Perm ordered) (hsorted : sorted.Pairwise (key · < key ·))
    (hordered : ordered.Pairwise (value · ≤ value ·))
    (hvalue : ∀ r ∈ sorted, ∀ r' ∈ sorted, value r = value r' → key r = key r') :
    sorted = ordered ↔ ∀ r ∈ sorted, ∀ r' ∈ sorted, key r < key r' → value r < value r' := by
  constructor
  · rintro rfl r hr r' hr' hlt
    -- of two rows, the one with the smaller key comes first
    have hle : ∀ r ∈ sorted, ∀ r' ∈ sorted, key r < key r' → value r ≤ value r' := by
      refine List.Pairwise.forall_of_forall_of_flip (fun r _ hlt => absurd hlt (lt_irrefl _)) ?_ ?_
      · refine hordered.imp fun {r r'} h => ?_
        exact fun _ => h
      · refine hsorted.imp fun {r r'} h => ?_
        exact fun hlt => absurd hlt h.not_gt
    refine lt_of_le_of_ne (hle r hr r' hr' hlt) fun heq => ?_
    exact hlt.ne (hvalue r hr r' hr' heq)
  · intro hagree
    have hne : ordered.Pairwise fun r r' => key r ≠ key r' :=
      hperm.pairwise (hsorted.imp fun h => h.ne) fun h => h.symm
    have hordered' : ordered.Pairwise (key · < key ·) := by
      refine (hordered.and hne).imp_of_mem fun {r r'} hr hr' h => ?_
      rcases lt_trichotomy (key r) (key r') with hlt | heq | hgt
      · exact hlt
      · exact absurd heq h.2
      · exact absurd (hagree r' (hperm.mem_iff.2 hr') r (hperm.mem_iff.2 hr) hgt) h.1.not_gt
    exact hperm.eq_of_pairwise (fun r r' _ _ h h' => absurd h h'.not_gt) hsorted hordered'

end UrlShortener.Sql

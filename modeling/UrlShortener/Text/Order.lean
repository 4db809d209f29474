import Mathlib.Data.List.Lex
import Mathlib.Data.List.Sort

/-!
# The order of texts that end at a separator

* `append_le_append_iff`: two texts without a separator compare alike whatever follows the separator behind them. They
  are told apart in front of it or by it.
* `map_sort_append`: so names with a common ending are sorted in one order for all endings.
-/

namespace UrlShortener.Text

variable {α : Type*} [LinearOrder α] {sep : α} {a b : List α}

theorem append_lt_append_iff (ha : sep ∉ a) (hb : sep ∉ b) (hne : a ≠ b) (t u t' u' : List α) :
    a ++ sep :: t < b ++ sep :: u ↔ a ++ sep :: t' < b ++ sep :: u' := by
  -- by recursion on both texts: the first difference decides, and it is not behind the separator
  induction a generalizing b with
  | nil =>
    cases b with
    | nil => exact absurd rfl hne
    | cons d b =>
      have hd : sep ≠ d := fun h => hb (h ▸ List.mem_cons_self)
      simp only [List.nil_append, List.cons_append, List.cons_lt_cons_iff, hd, false_and, or_false]
  | cons c a ih =>
    have hc : c ≠ sep := fun h => ha (h ▸ List.mem_cons_self)
    cases b with
    | nil => simp only [List.nil_append, List.cons_append, List.cons_lt_cons_iff, hc, false_and, or_false]
    | cons d b =>
      have hrest : c = d → a ≠ b := fun hcd hab => hne (by rw [hcd, hab])
      simp only [List.cons_append, List.cons_lt_cons_iff]
      refine or_congr_right (and_congr_right fun hcd => ?_)
      exact ih (fun h => ha (List.mem_cons_of_mem _ h)) (fun h => hb (List.mem_cons_of_mem _ h)) (hrest hcd)

/-- **What follows the separator does not count.** -/
theorem append_le_append_iff (ha : sep ∉ a) (hb : sep ∉ b) (t u : List α) :
    a ++ sep :: t ≤ b ++ sep :: t ↔ a ++ sep :: u ≤ b ++ sep :: u := by
  by_cases h : a = b
  · subst h
    exact iff_of_true le_rfl le_rfl
  · have hlt := append_lt_append_iff hb ha (Ne.symm h) t t u u
    rw [← not_lt, ← not_lt, hlt]

/-- **Names with a common ending**: sorting them is sorting by the names with any other ending. -/
theorem map_sort_append {names : List (List α)} (h : ∀ a ∈ names, sep ∉ a) (t u : List α) :
    (names.map (· ++ sep :: t)).insertionSort (· ≤ ·) =
      (names.insertionSort fun a b => a ++ sep :: u ≤ b ++ sep :: u).map (· ++ sep :: t) := by
  refine (List.map_insertionSort _ _ _ _ fun a ha b hb => ?_).symm
  exact append_le_append_iff (h a ha) (h b hb) u t

end UrlShortener.Text

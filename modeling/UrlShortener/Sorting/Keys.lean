import Mathlib.Data.List.Forall2
import Mathlib.Data.List.Perm.Basic
import Mathlib.Data.List.Sort

/-!
# Sorted lists and pairings

* `insertionSort_congr`: **sorting forgets the order of a list** in which no two elements are ties.
* `exists_pairing`: a pairing of two lists in other orders is a pairing of the lists.
-/

namespace UrlShortener.Sorting

variable {α β : Type*}

theorem insertionSort_congr {r : α → α → Prop} [DecidableRel r] [Std.Total r] [IsTrans α r] {l l' : List α}
    (h : l.Perm l') (hanti : ∀ a ∈ l, ∀ b ∈ l, r a b → r b a → a = b) : l.insertionSort r = l'.insertionSort r := by
  refine List.Perm.eq_of_pairwise ?_ (List.pairwise_insertionSort r l) (List.pairwise_insertionSort r l')
    ((List.perm_insertionSort r l).trans (h.trans (List.perm_insertionSort r l').symm))
  intro a b ha hb
  exact hanti a ((List.mem_insertionSort r).1 ha) b (h.mem_iff.2 ((List.mem_insertionSort r).1 hb))

/-- **A pairing does not depend on the orders of the lists.** -/
theorem exists_pairing {R : α → β → Prop} {l l₁ : List α} {m m₁ : List β} (hl : l₁.Perm l) (hm : m₁.Perm m)
    (h : List.Forall₂ R l₁ m₁) : ∃ m', m'.Perm m ∧ List.Forall₂ R l m' := by
  obtain ⟨m', hpairs, hperm⟩ := List.perm_comp_forall₂ hl.symm h
  exact ⟨m', hperm.trans hm, hpairs⟩

theorem forall₂_imp_mem {R S : α → β → Prop} {l : List α} {m : List β} (h : List.Forall₂ R l m)
    (himp : ∀ a ∈ l, ∀ b ∈ m, R a b → S a b) : List.Forall₂ S l m := by
  obtain ⟨hlength, hpairs⟩ := List.forall₂_iff_zip.1 h
  refine List.forall₂_iff_zip.2 ⟨hlength, fun {a b} hmem => ?_⟩
  obtain ⟨ha, hb⟩ := List.of_mem_zip hmem
  exact himp a ha b hb (hpairs hmem)

end UrlShortener.Sorting

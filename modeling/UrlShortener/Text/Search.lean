import Mathlib.Data.List.Infix

/-!
# First occurrences

`cut pat s` splits a text at the first occurrence of a pattern. It is what a search followed by
`substr` computes, without positions.

* `cut_eq`: the two parts around the pattern are the text.
* `cut_least`: no occurrence starts earlier.
* `cut_isSome`: there is a cut exactly when the pattern occurs.
* `cut_singleton`: cutting at a character that the front part does not hold.
-/

namespace UrlShortener.Text

variable {α : Type*} [DecidableEq α]

/-- **The text before and after the first occurrence of `pat`.** -/
def cut (pat : List α) : List α → Option (List α × List α)
  | [] => if pat = [] then some ([], []) else none
  | c :: s =>
    if pat.isPrefixOf (c :: s) then some ([], (c :: s).drop pat.length)
    else (cut pat s).map fun p => (c :: p.1, p.2)

/-- Does `pat` occur in `s`? -/
def contains (s pat : List α) : Bool := (cut pat s).isSome

theorem cut_cons_here {pat s : List α} {c : α} (h : pat <+: c :: s) :
    cut pat (c :: s) = some ([], (c :: s).drop pat.length) := by
  rw [cut, if_pos (List.isPrefixOf_iff_prefix.2 h)]

theorem cut_cons_later {pat s : List α} {c : α} (h : ¬ pat <+: c :: s) :
    cut pat (c :: s) = (cut pat s).map fun p => (c :: p.1, p.2) := by
  rw [cut, if_neg (by rwa [List.isPrefixOf_iff_prefix])]

/-- A cut puts the text back together. -/
theorem cut_eq {pat : List α} : ∀ {s a b : List α}, cut pat s = some (a, b) → s = a ++ pat ++ b := by
  intro s
  induction s with
  | nil =>
    intro a b h
    unfold cut at h
    split at h
    · rename_i hp; simp at h; simp [hp, h]
    · simp at h
  | cons c s ih =>
    intro a b h
    by_cases hp : pat <+: c :: s
    · rw [cut_cons_here hp] at h
      obtain ⟨t, ht⟩ := hp
      simp only [Option.some.injEq, Prod.mk.injEq] at h
      rw [← h.1, ← h.2, ← ht]; simp
    · rw [cut_cons_later hp, Option.map_eq_some_iff] at h
      obtain ⟨⟨a', b'⟩, hq, he⟩ := h
      simp only [Prod.mk.injEq] at he
      rw [ih hq, ← he.1, ← he.2]; simp

/-- **The cut is at the first occurrence**: every way of reading the pattern in the text starts at
or after it. -/
theorem cut_least {pat : List α} : ∀ {s a b : List α}, cut pat s = some (a, b) →
    ∀ a' b', s = a' ++ pat ++ b' → a.length ≤ a'.length := by
  intro s
  induction s with
  | nil =>
    intro a b h a' b' hs
    have := congrArg List.length (cut_eq h); simp at this; omega
  | cons c s ih =>
    intro a b h a' b' hs
    by_cases hp : pat <+: c :: s
    · rw [cut_cons_here hp] at h
      simp only [Option.some.injEq, Prod.mk.injEq] at h
      rw [← h.1]; simp
    · rw [cut_cons_later hp, Option.map_eq_some_iff] at h
      obtain ⟨⟨a₀, b₀⟩, hq, he⟩ := h
      simp only [Prod.mk.injEq] at he
      cases a' with
      | nil => exact absurd ⟨b', by simpa using hs.symm⟩ hp
      | cons d a' =>
        simp only [List.cons_append, List.cons.injEq] at hs
        have := ih hq a' b' hs.2
        rw [← he.1]; simpa using this

theorem cut_isSome {pat s : List α} : (cut pat s).isSome ↔ pat <:+: s := by
  constructor
  · intro h
    obtain ⟨⟨a, b⟩, hc⟩ := Option.isSome_iff_exists.1 h
    exact ⟨a, b, (cut_eq hc).symm⟩
  · rintro ⟨a, b, rfl⟩
    induction a with
    | nil =>
      cases h : [] ++ pat ++ b with
      | nil => simp at h; simp [cut, h.1]
      | cons c s => rw [cut_cons_here ⟨b, by simpa using h⟩]; rfl
    | cons c a ih =>
      by_cases hp : pat <+: c :: (a ++ pat ++ b)
      · simp only [List.cons_append]; rw [cut_cons_here hp]; rfl
      · simp only [List.cons_append]; rw [cut_cons_later hp]; simpa using ih

theorem cut_eq_none {pat s : List α} : cut pat s = none ↔ ¬ pat <:+: s := by
  rw [← cut_isSome, Option.not_isSome_iff_eq_none]

theorem contains_iff {pat s : List α} : contains s pat = true ↔ pat <:+: s := cut_isSome

/-- Where an occurrence is not preceded by an earlier one, the cut is there. -/
theorem cut_of_least {pat a b : List α}
    (h : ∀ a' b', a ++ pat ++ b = a' ++ pat ++ b' → a.length ≤ a'.length) :
    cut pat (a ++ pat ++ b) = some (a, b) := by
  obtain ⟨⟨a₀, b₀⟩, hc⟩ := Option.isSome_iff_exists.1 (cut_isSome.2 ⟨a, b, rfl⟩)
  have h1 := cut_least hc a b rfl
  have h2 := h a₀ b₀ (cut_eq hc)
  have he := cut_eq hc
  simp only [List.append_assoc] at he
  obtain ⟨ha, hb⟩ := List.append_inj he (by omega)
  rw [hc, ← ha, List.append_cancel_left hb]

/-- Where the first character of the pattern has not occurred before, the cut is there. -/
theorem cut_of_head_not_mem {c : α} {p a b : List α} (h : c ∉ a) :
    cut (c :: p) (a ++ (c :: p) ++ b) = some (a, b) := by
  refine cut_of_least fun a' b' he => ?_
  by_contra hlt
  push Not at hlt
  apply h
  have hg : (a ++ (c :: p) ++ b)[a'.length]? = some c := by rw [he]; simp
  rw [List.append_assoc, List.getElem?_append_left hlt] at hg
  exact List.mem_of_getElem? hg

theorem cut_singleton {c : α} {a b : List α} (h : c ∉ a) : cut [c] (a ++ c :: b) = some (a, b) := by
  simpa using cut_of_head_not_mem (p := []) (b := b) h

/-- A text is cut at its first separator in one way. -/
theorem append_cons_inj {a b r s : List α} {sep : α} (ha : sep ∉ a) (hb : sep ∉ b)
    (h : a ++ sep :: r = b ++ sep :: s) : a = b ∧ r = s := by
  have hcut := congrArg (cut [sep]) h
  rw [cut_singleton ha, cut_singleton hb, Option.some.injEq, Prod.mk.injEq] at hcut
  exact hcut

theorem cut_singleton_not_mem {c : α} {s a b : List α} (h : cut [c] s = some (a, b)) : c ∉ a := by
  intro hc
  obtain ⟨a₁, a₂, rfl⟩ := List.append_of_mem hc
  have hle := cut_least h a₁ (a₂ ++ [c] ++ b) (by rw [cut_eq h]; simp)
  simp only [List.length_append, List.length_cons] at hle
  omega

theorem cut_singleton_none {c : α} {s : List α} : cut [c] s = none ↔ c ∉ s := by
  rw [cut_eq_none, List.singleton_infix_iff]

end UrlShortener.Text

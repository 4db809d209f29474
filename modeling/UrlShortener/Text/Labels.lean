import UrlShortener.Text.Search

/-!
# Labels joined by a separator

Texts of the form `a.b.c`, where no label holds the separator.

* `prefix_intercalate`: a prefix without separator is a prefix of the first label.
* `intercalate_prefix`: a prefix that ends in a separator is a list of first labels.
* `cons_infix_intercalate`: a separator followed by a pattern occurs exactly where a later label begins with
  the pattern.
* `cut_intercalate`: a search for a pattern without separator finds it in the first label that holds it.
-/

namespace UrlShortener.Text

variable {α : Type} {c : α} {pat l l' : List α} {ps ls : List (List α)}

theorem intercalate_cons_cons (c : α) (l l' : List α) (ls : List (List α)) :
    [c].intercalate (l :: l' :: ls) = l ++ c :: [c].intercalate (l' :: ls) := by
  rw [List.intercalate_cons_cons, List.append_assoc]
  rfl

theorem mem_intercalate {x : α} (h : x ∈ [c].intercalate ls) : x = c ∨ ∃ l ∈ ls, x ∈ l := by
  induction ls with
  | nil => simp at h
  | cons l ls ih =>
    cases ls with
    | nil => exact .inr ⟨l, by simp, by simpa using h⟩
    | cons l' ls =>
      rw [intercalate_cons_cons, List.mem_append, List.mem_cons] at h
      rcases h with h | h | h
      · exact .inr ⟨l, by simp, h⟩
      · exact .inl h
      · rcases ih h with h | ⟨l₀, hmem, h⟩
        · exact .inl h
        · exact .inr ⟨l₀, List.mem_cons_of_mem _ hmem, h⟩

theorem map_intercalate {β : Type} (f : α → β) (c : α) (ls : List (List α)) :
    ([c].intercalate ls).map f = [f c].intercalate (ls.map (List.map f)) := by
  induction ls with
  | nil => rfl
  | cons l ls ih =>
    cases ls with
    | nil => simp
    | cons l' ls =>
      rw [intercalate_cons_cons, List.map_append, List.map_cons, ih]
      simp only [List.map_cons]
      rw [intercalate_cons_cons]

/-- A prefix that does not hold the separator ends before it. -/
theorem prefix_append_cons (hpat : c ∉ pat) {rest : List α} : pat <+: l ++ c :: rest ↔ pat <+: l := by
  constructor
  · intro h
    rcases Nat.le_total pat.length l.length with hlen | hlen
    · exact List.prefix_of_prefix_length_le h (List.prefix_append l _) hlen
    · -- otherwise the separator would be in the prefix, or the two are equal
      obtain ⟨r, hr⟩ := List.prefix_of_prefix_length_le (List.prefix_append l (c :: rest)) h hlen
      cases r with
      | nil => rw [← hr, List.append_nil]
      | cons d r =>
        rw [← hr, List.prefix_append_right_inj, List.cons_prefix_cons] at h
        exact absurd (by rw [← hr, ← h.1]; simp) hpat
  · intro h
    exact h.trans (List.prefix_append l _)

theorem prefix_intercalate (hpat : c ∉ pat) : pat <+: [c].intercalate (l :: ls) ↔ pat <+: l := by
  cases ls with
  | nil => rw [List.intercalate_singleton]
  | cons l' ls => rw [intercalate_cons_cons, prefix_append_cons hpat]

/-- Two texts up to their first separators. -/
theorem append_cons_prefix_append_cons (hl : c ∉ l) (hl' : c ∉ l') {r r' : List α} :
    l ++ c :: r <+: l' ++ c :: r' ↔ l = l' ∧ r <+: r' := by
  constructor
  · intro h
    have hleads : l <+: l' := (prefix_append_cons hl).1 ((List.prefix_append l _).trans h)
    obtain ⟨t, rfl⟩ := hleads
    rw [List.append_assoc, List.prefix_append_right_inj] at h
    cases t with
    | nil =>
      rw [List.nil_append, List.cons_prefix_cons] at h
      exact ⟨(List.append_nil l).symm, h.2⟩
    | cons d t =>
      rw [List.cons_append, List.cons_prefix_cons] at h
      exact absurd (by rw [h.1]; simp) hl'
  · rintro ⟨rfl, h⟩
    rw [List.prefix_append_right_inj, List.cons_prefix_cons]
    exact ⟨rfl, h⟩

/-- **A prefix that ends in a separator is a list of first labels.** -/
theorem intercalate_prefix (hps : ∀ p ∈ ps, c ∉ p) (hls : ∀ l ∈ ls, c ∉ l) (hne : ps ≠ []) :
    [c].intercalate ps ++ [c] <+: [c].intercalate ls ↔ ps <+: ls ∧ ps.length < ls.length := by
  induction ps generalizing ls with
  | nil => exact absurd rfl hne
  | cons p ps ih =>
    have hp : c ∉ p := hps p List.mem_cons_self
    match ls with
    | [] => simp
    | [l] =>
      have hl : c ∉ l := hls l List.mem_cons_self
      -- a single label holds no separator
      have hfalse : ¬[c].intercalate (p :: ps) ++ [c] <+: [c].intercalate [l] := by
        intro h
        rw [List.intercalate_singleton] at h
        exact hl (h.subset (by simp))
      have hlength : ¬(p :: ps).length < [l].length := by simp
      exact iff_of_false hfalse fun h => hlength h.2
    | l :: l' :: ls =>
      have hl : c ∉ l := hls l List.mem_cons_self
      have hrest : ∀ l₀ ∈ l' :: ls, c ∉ l₀ := fun l₀ hmem => hls l₀ (List.mem_cons_of_mem _ hmem)
      rw [intercalate_cons_cons, List.cons_prefix_cons]
      cases ps with
      | nil =>
        rw [List.intercalate_singleton, append_cons_prefix_append_cons hp hl]
        simp
      | cons p' ps =>
        have hps' : ∀ p₀ ∈ p' :: ps, c ∉ p₀ := fun p₀ hmem => hps p₀ (List.mem_cons_of_mem _ hmem)
        rw [intercalate_cons_cons, List.append_assoc, List.cons_append, append_cons_prefix_append_cons hp hl,
          ih hps' hrest (by simp), and_assoc]
        simp only [List.length_cons, Nat.add_lt_add_iff_right]

/-- **A separator and a pattern occur where a later label begins with the pattern.** -/
theorem cons_infix_intercalate (hpat : c ∉ pat) (hls : ∀ l ∈ ls, c ∉ l) :
    c :: pat <:+: [c].intercalate ls ↔ ∃ l ∈ ls.tail, pat <+: l := by
  induction ls with
  | nil => simp
  | cons l ls ih =>
    have hl : c ∉ l := hls l List.mem_cons_self
    have hrest : ∀ l₀ ∈ ls, c ∉ l₀ := fun l₀ hmem => hls l₀ (List.mem_cons_of_mem _ hmem)
    -- no occurrence begins in the first label
    have hskip : ∀ (l : List α) (rest : List α), c ∉ l → (c :: pat <:+: l ++ rest ↔ c :: pat <:+: rest) := by
      intro l rest hl
      induction l with
      | nil => rfl
      | cons d l ihl =>
        have hd : c ≠ d := fun h => hl (by rw [h]; simp)
        rw [List.cons_append, List.infix_cons_iff, List.cons_prefix_cons]
        rw [ihl fun hmem => hl (List.mem_cons_of_mem _ hmem)]
        simp [hd]
    cases ls with
    | nil =>
      have h := hskip l [] hl
      rw [List.append_nil] at h
      rw [List.intercalate_singleton, h]
      simp
    | cons l' ls =>
      rw [intercalate_cons_cons, hskip l _ hl, List.infix_cons_iff, List.cons_prefix_cons, ih hrest,
        prefix_intercalate hpat]
      simp

/-! ## Searching -/

section Search

variable [DecidableEq α] {a b : List α}

/-- A pattern without separator is found before it, or else behind it. -/
theorem cut_append_cons (hpat : c ∉ pat) (hne : pat ≠ []) (l r : List α) :
    cut pat (l ++ c :: r) =
      ((cut pat l).map fun p => (p.1, p.2 ++ c :: r)).or ((cut pat r).map fun p => (l ++ c :: p.1, p.2)) := by
  induction l with
  | nil =>
    have hnil : cut pat [] = none := by rw [cut, if_neg hne]
    have hlater : ¬pat <+: c :: r := by
      intro h
      have hempty : pat <+: [] := (prefix_append_cons (l := []) hpat).1 h
      exact hne (List.prefix_nil.1 hempty)
    rw [List.nil_append, cut_cons_later hlater, hnil]
    rfl
  | cons d l ih =>
    by_cases hhere : pat <+: d :: l
    · have hhere' : pat <+: d :: (l ++ c :: r) := hhere.trans (List.prefix_append (d :: l) (c :: r))
      rw [List.cons_append, cut_cons_here hhere', cut_cons_here hhere, Option.map_some, Option.some_or,
        ← List.cons_append, List.drop_append_of_le_length hhere.length_le]
    · have hlater : ¬pat <+: d :: (l ++ c :: r) := fun h => hhere ((prefix_append_cons (l := d :: l) hpat).1 h)
      rw [List.cons_append, cut_cons_later hlater, cut_cons_later hhere, ih]
      cases cut pat l <;> cases cut pat r <;> rfl

/-- **Where a pattern without separator is found**: in the first label that holds it. -/
theorem cut_intercalate (hpat : c ∉ pat) (hne : pat ≠ []) (hls : ∀ l ∈ ls, ¬pat <:+: l)
    (hl : cut pat l = some (a, b)) (ls' : List (List α)) :
    ∃ a' r, cut pat ([c].intercalate (ls ++ l :: ls')) = some (a', b ++ r) ∧ ∀ d ∈ r.head?, d = c := by
  induction ls with
  | nil =>
    cases ls' with
    | nil => exact ⟨a, [], by simpa using hl, by simp⟩
    | cons l' ls' =>
      refine ⟨a, c :: [c].intercalate (l' :: ls'), ?_, by simp⟩
      rw [List.nil_append, intercalate_cons_cons, cut_append_cons hpat hne, hl]
      rfl
  | cons l₀ ls ih =>
    obtain ⟨a', r, ha', hr⟩ := ih fun l hmem => hls l (List.mem_cons_of_mem _ hmem)
    have hnone : cut pat l₀ = none := cut_eq_none.2 (hls l₀ List.mem_cons_self)
    obtain ⟨l₁, ls₁, hls₁⟩ : ∃ l₁ ls₁, ls ++ l :: ls' = l₁ :: ls₁ :=
      List.exists_cons_of_ne_nil (by simp)
    refine ⟨l₀ ++ c :: a', r, ?_, hr⟩
    rw [hls₁] at ha'
    rw [List.cons_append, hls₁, intercalate_cons_cons, cut_append_cons hpat hne, hnone, ha']
    rfl

/-- A pattern without separator that no label holds does not occur. -/
theorem cut_intercalate_none (hpat : c ∉ pat) (hne : pat ≠ []) (hls : ∀ l ∈ ls, ¬pat <:+: l) :
    cut pat ([c].intercalate ls) = none := by
  induction ls with
  | nil => rw [List.intercalate_nil, cut, if_neg hne]
  | cons l ls ih =>
    have hl : cut pat l = none := cut_eq_none.2 (hls l List.mem_cons_self)
    have hrest := ih fun l hmem => hls l (List.mem_cons_of_mem _ hmem)
    cases ls with
    | nil => rw [List.intercalate_singleton, hl]
    | cons l' ls =>
      rw [intercalate_cons_cons, cut_append_cons hpat hne, hl, hrest]
      rfl

end Search

end UrlShortener.Text

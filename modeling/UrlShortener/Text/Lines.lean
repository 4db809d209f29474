import Mathlib.Data.List.Basic

/-!
# Splitting at a separator

* The pieces of `List.splitOn` hold no separator and nothing that is not in the text.
* `readTexts`: the texts that repeated reads up to a separator give.
-/

namespace UrlShortener.Text

variable {α : Type*} [DecidableEq α] {c x : α} {s piece : List α}

/-- The pieces are made of the characters of the text other than the separator. -/
theorem mem_of_mem_splitOn (hp : piece ∈ s.splitOn c) (hx : x ∈ piece) : x ∈ s ∧ x ≠ c := by
  induction s generalizing piece with
  | nil => simp_all
  | cons d s ih =>
    rw [List.splitOn_cons_eq_if_modifyHead] at hp
    split at hp
    · rcases List.mem_cons.1 hp with rfl | hp
      · cases hx
      · obtain ⟨hs, hc⟩ := ih hp hx
        exact ⟨List.mem_cons_of_mem _ hs, hc⟩
    · rename_i hd
      obtain ⟨q, qs, hq⟩ := List.exists_cons_of_ne_nil (List.splitOn_ne_nil c s)
      rw [hq, List.modifyHead_cons] at hp
      rcases List.mem_cons.1 hp with rfl | hp
      · rcases List.mem_cons.1 hx with rfl | hx
        · exact ⟨List.mem_cons_self, by simpa using hd⟩
        · obtain ⟨hs, hc⟩ := ih (hq ▸ List.mem_cons_self) hx
          exact ⟨List.mem_cons_of_mem _ hs, hc⟩
      · obtain ⟨hs, hc⟩ := ih (hq ▸ List.mem_cons_of_mem _ hp) hx
        exact ⟨List.mem_cons_of_mem _ hs, hc⟩

theorem not_mem_of_mem_splitOn (hp : piece ∈ s.splitOn c) : c ∉ piece := by
  intro hc
  exact (mem_of_mem_splitOn hp hc).2 rfl

/-- A text without separator is put before the first piece. -/
theorem splitOn_append_of_not_mem {label : List α} (h : c ∉ label) (s : List α) :
    (label ++ s).splitOn c = (s.splitOn c).modifyHead (label ++ ·) := by
  induction label with
  | nil => exact (congrFun List.modifyHead_id _).symm
  | cons d label ih =>
    have hd : ¬(d == c) = true := by
      rintro hd
      exact h (by simp [beq_iff_eq.1 hd])
    rw [List.cons_append, List.splitOn_cons_eq_if_modifyHead, if_neg hd,
      ih fun hc => h (List.mem_cons_of_mem _ hc), List.modifyHead_modifyHead]
    rfl

/-- The texts that reads up to a separator give, one after the other. Nothing is read behind a separator at the end. -/
def readTexts (c : α) (s : List α) : List (List α) :=
  let pieces := s.splitOn c
  if pieces.getLast? = some [] then pieces.dropLast else pieces

theorem readTexts_append (c : α) (text rest : List α) :
    readTexts c (text ++ c :: rest) = text.splitOn c ++ readTexts c rest := by
  unfold readTexts
  have hne := List.splitOn_ne_nil c rest
  simp only [List.splitOn_append_cons_self, List.getLast?_append_of_ne_nil _ hne, List.dropLast_append_of_ne_nil hne]
  split <;> rfl

/-- A text without separator, read first. -/
theorem readTexts_cons {text : List α} (h : c ∉ text) (rest : List α) :
    readTexts c (text ++ c :: rest) = text :: readTexts c rest := by
  rw [readTexts_append, List.splitOn_eq_singleton h, List.singleton_append]

theorem readTexts_singleton {text : List α} (h : c ∉ text) (hne : text ≠ []) : readTexts c text = [text] := by
  rw [readTexts, List.splitOn_eq_singleton h, List.getLast?_singleton]
  exact if_neg (by simpa using hne)

theorem not_mem_of_mem_readTexts (hp : piece ∈ readTexts c s) : c ∉ piece := by
  unfold readTexts at hp
  simp only at hp
  split at hp
  · exact not_mem_of_mem_splitOn ((List.dropLast_sublist _).subset hp)
  · exact not_mem_of_mem_splitOn hp

end UrlShortener.Text

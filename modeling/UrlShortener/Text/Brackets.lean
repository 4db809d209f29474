import Mathlib.Data.List.Infix

/-!
# Balanced text

`Balanced opn cls s`: the brackets `opn` and `cls` of the text `s` match, not counting those between
double quotes. Strings hold no backslash here, so that a quote always ends one.
-/

namespace UrlShortener.Text

/-- Every bracket is closed, in nesting order. -/
inductive Balanced (opn cls : Char) : List Char → Prop
  | nil : Balanced opn cls []
  | plain {c : Char} {s : List Char} : c ≠ '"' → c ≠ opn → c ≠ cls → Balanced opn cls s → Balanced opn cls (c :: s)
  | quote {q s : List Char} : '"' ∉ q → '\\' ∉ q → Balanced opn cls s → Balanced opn cls ('"' :: q ++ '"' :: s)
  | nest {a s : List Char} : Balanced opn cls a → Balanced opn cls s → Balanced opn cls (opn :: a ++ cls :: s)

variable {opn cls : Char} {s t : List Char}

theorem Balanced.append (hs : Balanced opn cls s) (ht : Balanced opn cls t) : Balanced opn cls (s ++ t) := by
  induction hs with
  | nil => exact ht
  | plain hq ho hc _ ih => exact .plain hq ho hc ih
  | quote hq hb _ ih => simpa using Balanced.quote hq hb ih
  | nest ha _ _ ih => simpa using Balanced.nest ha ih

theorem balanced_of_plain (h : ∀ c ∈ s, c ≠ '"' ∧ c ≠ opn ∧ c ≠ cls) : Balanced opn cls s := by
  induction s with
  | nil => exact .nil
  | cons c s ih =>
    obtain ⟨hq, ho, hc⟩ := h c (by simp)
    exact .plain hq ho hc (ih fun d hd => h d (by simp [hd]))

/-- A string literal. -/
theorem balanced_quoted {q : List Char} (hq : '"' ∉ q) (hb : '\\' ∉ q) :
    Balanced opn cls ('"' :: q ++ ['"']) :=
  .quote hq hb .nil

/-- A bracketed text, seen by a scan for these brackets. -/
theorem Balanced.bracketed (h : Balanced opn cls s) : Balanced opn cls (opn :: s ++ [cls]) :=
  .nest h .nil

end UrlShortener.Text

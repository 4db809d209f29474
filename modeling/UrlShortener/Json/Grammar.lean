import UrlShortener.Text.Brackets
import Mathlib.Tactic.Common

/-!
# JSON texts

Concrete syntax of JSON without escapes: a `Tree` holds a value together with its layout, so that its
`text` is the text that was read. One indexed family covers values, the elements of an array and the
members of an object, so that every property of texts is one structural recursion.

* White space, string contents and numbers carry the proof of their form.
* `Tree.balanced`: the brackets of a text match, for either kind of bracket.
-/

namespace UrlShortener.Json

open Text

/-! ## Lexical parts -/

/-- Blanks between tokens. -/
def isWhite (c : Char) : Bool := c == ' ' || c == '\t' || c == '\n' || c == '\r'

/-- White space. -/
structure White where
  text : List Char := []
  white : text.all isWhite = true := by decide

/-- Characters of a string that needs no escapes. -/
def isPlain (c : Char) : Bool := 32 ≤ c.toNat && c != '"' && c != '\\'

/-- The contents of a string without escapes. -/
structure Chars where
  text : List Char
  plain : text.all isPlain = true := by decide

/-- One digit or more. -/
def isDigits (s : List Char) : Bool := s != [] && s.all Char.isDigit

/-- No leading zeros. -/
def isInteger : List Char → Bool
  | ['0'] => true
  | c :: s => c != '0' && isDigits (c :: s)
  | [] => false

/-- A number, in its parts: digits after the point, and an exponent with its letter and sign. -/
structure Number where
  negative : Bool := false
  integer : List Char
  fraction : Option (List Char) := none
  exponent : Option (Char × Option Char × List Char) := none
  integer_ok : isInteger integer = true := by decide
  fraction_ok : fraction.all isDigits = true := by decide
  exponent_ok : exponent.all (fun e => (e.1 == 'e' || e.1 == 'E') && e.2.1.all (fun c => c == '+' || c == '-') &&
    isDigits e.2.2) = true := by decide

namespace Number

/-- The part after the point. -/
def fractionText (n : Number) : List Char :=
  match n.fraction with
  | none => []
  | some digits => '.' :: digits

/-- The part from the `e` on. -/
def exponentText (n : Number) : List Char :=
  match n.exponent with
  | none => []
  | some (letter, sign, digits) => letter :: sign.toList ++ digits

/-- A number as it is written. -/
def text (n : Number) : List Char :=
  (if n.negative then ['-'] else []) ++ n.integer ++ n.fractionText ++ n.exponentText

end Number

/-! ## Trees -/

/-- What a tree stands for. -/
inductive Kind
  | value
  | items
  | members

/-- Texts by the grammar, blanks included. -/
inductive Tree : Kind → Type
  | null : Tree .value
  | bool (b : Bool) : Tree .value
  | number (n : Number) : Tree .value
  | string (s : Chars) : Tree .value
  | array (ws : White) (items : Tree .items) : Tree .value
  | object (ws : White) (members : Tree .members) : Tree .value
  | noItems : Tree .items
  | item (before : White) (v : Tree .value) (after : White) (rest : Tree .items) : Tree .items
  | noMembers : Tree .members
  | member (before : White) (name : Chars) (mid gap : White) (v : Tree .value) (after : White)
      (rest : Tree .members) : Tree .members

/-- A value. -/
abbrev Value := Tree .value

/-- A string as it stands in a text. -/
def Chars.quoted (s : Chars) : List Char := '"' :: s.text ++ ['"']

namespace Tree

/-- The text. Elements and members come with a comma in front of each; the container drops the first. -/
def text : {k : Kind} → Tree k → List Char
  | _, null => ['n', 'u', 'l', 'l']
  | _, bool true => ['t', 'r', 'u', 'e']
  | _, bool false => ['f', 'a', 'l', 's', 'e']
  | _, number n => n.text
  | _, string s => s.quoted
  | _, array ws items => '[' :: (ws.text ++ items.text.tail) ++ [']']
  | _, object ws members => '{' :: (ws.text ++ members.text.tail) ++ ['}']
  | _, noItems => []
  | _, item before v after rest => ',' :: (before.text ++ v.text ++ after.text) ++ rest.text
  | _, noMembers => []
  | _, member before name mid gap v after rest =>
    ',' :: (before.text ++ name.quoted ++ mid.text ++ ':' :: gap.text ++ v.text ++ after.text) ++ rest.text

/-- The names of the members. -/
def names : {k : Kind} → Tree k → List (List Char)
  | _, member _ name _ _ _ _ rest => name.text :: rest.names
  | _, _ => []

/-- The first member of that name. -/
def lookup (field : List Char) : {k : Kind} → Tree k → Option Value
  | _, member _ name _ _ v _ rest => if name.text = field then some v else rest.lookup field
  | _, _ => none

/-- The names are pairwise distinct at each level. -/
def distinct : {k : Kind} → Tree k → Bool
  | _, null => true
  | _, bool _ => true
  | _, number _ => true
  | _, string _ => true
  | _, array _ items => items.distinct
  | _, object _ members => members.distinct
  | _, noItems => true
  | _, item _ v _ rest => v.distinct && rest.distinct
  | _, noMembers => true
  | _, member _ name _ _ v _ rest => name.text ∉ rest.names && v.distinct && rest.distinct

end Tree

/-! ## Characters of a text -/

theorem White.isWhite_of_mem (w : White) {c : Char} (h : c ∈ w.text) : isWhite c = true :=
  List.all_eq_true.1 w.white c h

theorem White.not_mem (w : White) {c : Char} (hc : isWhite c = false) : c ∉ w.text := by
  intro h
  have := w.isWhite_of_mem h
  rw [hc] at this
  cases this

theorem Chars.not_mem (s : Chars) {c : Char} (hc : isPlain c = false) : c ∉ s.text := by
  intro h
  have := List.all_eq_true.1 s.plain c h
  rw [hc] at this
  cases this

/-- The characters of a number. -/
def isNumeric (c : Char) : Bool := c.isDigit || c == '-' || c == '+' || c == '.' || c == 'e' || c == 'E'

theorem isNumeric_of_isDigits {s : List Char} (h : isDigits s = true) : ∀ c ∈ s, isNumeric c = true := by
  intro c hc
  simp only [isDigits, Bool.and_eq_true, List.all_eq_true] at h
  simp [isNumeric, h.2 c hc]

theorem isDigits_of_isInteger {s : List Char} (h : isInteger s = true) : isDigits s = true := by
  unfold isInteger at h
  split at h
  · rfl
  · simp only [Bool.and_eq_true] at h
    exact h.2
  · cases h

namespace Number

theorem isNumeric_integer (n : Number) : ∀ c ∈ n.integer, isNumeric c = true :=
  isNumeric_of_isDigits (isDigits_of_isInteger n.integer_ok)

theorem isNumeric_fractionText (n : Number) : ∀ c ∈ n.fractionText, isNumeric c = true := by
  intro c hc
  have hok := n.fraction_ok
  unfold fractionText at hc
  cases hf : n.fraction with
  | none => simp [hf] at hc
  | some digits =>
    rw [hf] at hc hok
    rcases List.mem_cons.1 hc with rfl | hc
    · rfl
    · exact isNumeric_of_isDigits hok c hc

theorem isNumeric_exponentText (n : Number) : ∀ c ∈ n.exponentText, isNumeric c = true := by
  intro c hc
  have hok := n.exponent_ok
  unfold exponentText at hc
  cases he : n.exponent with
  | none => simp [he] at hc
  | some e =>
    obtain ⟨letter, sign, digits⟩ := e
    rw [he] at hc hok
    simp only [Option.all_some, Bool.and_eq_true, Bool.or_eq_true, beq_iff_eq] at hok
    obtain ⟨⟨hletter, hsign⟩, hdigits⟩ := hok
    rcases List.mem_cons.1 hc with rfl | hc
    · rcases hletter with rfl | rfl <;> rfl
    · rcases List.mem_append.1 hc with hc | hc
      · rw [Option.mem_toList] at hc
        rw [hc] at hsign
        simp only [Option.all_some, Bool.or_eq_true, beq_iff_eq] at hsign
        rcases hsign with rfl | rfl <;> rfl
      · exact isNumeric_of_isDigits hdigits c hc

theorem isNumeric_text (n : Number) : ∀ c ∈ n.text, isNumeric c = true := by
  intro c hc
  simp only [text, List.mem_append] at hc
  rcases hc with ((hc | hc) | hc) | hc
  · split at hc
    · simp only [List.mem_singleton] at hc
      subst hc
      rfl
    · cases hc
  · exact n.isNumeric_integer c hc
  · exact n.isNumeric_fractionText c hc
  · exact n.isNumeric_exponentText c hc

theorem not_mem_text (n : Number) {c : Char} (hc : isNumeric c = false) : c ∉ n.text := by
  intro h
  have := n.isNumeric_text c h
  rw [hc] at this
  cases this

end Number

/-! ## Brackets -/

/-- The two kinds of brackets. -/
inductive Brackets : Char → Char → Prop
  | square : Brackets '[' ']'
  | curly : Brackets '{' '}'

variable {opn cls o c : Char}

theorem Brackets.white (h : Brackets opn cls) (w : White) : Balanced opn cls w.text := by
  refine balanced_of_plain fun d hd => ?_
  have hd := w.isWhite_of_mem hd
  cases h <;> refine ⟨?_, ?_, ?_⟩ <;> rintro rfl <;> cases hd

theorem Brackets.quoted (_ : Brackets opn cls) (s : Chars) : Balanced opn cls s.quoted :=
  balanced_quoted (s.not_mem rfl) (s.not_mem rfl)

theorem Brackets.number (h : Brackets opn cls) (n : Number) : Balanced opn cls n.text := by
  refine balanced_of_plain fun d hd => ?_
  have hd := n.isNumeric_text d hd
  cases h <;> refine ⟨?_, ?_, ?_⟩ <;> rintro rfl <;> cases hd

theorem Brackets.cons (h : Brackets opn cls) {s : List Char} (hs : Balanced opn cls s) {d : Char}
    (hd : d = ',' ∨ d = ':') : Balanced opn cls (d :: s) := by
  rcases hd with rfl | rfl <;> cases h <;> exact .plain (by decide) (by decide) (by decide) hs

theorem Brackets.tail (h : Brackets opn cls) {s : List Char} (hs : Balanced opn cls (',' :: s)) :
    Balanced opn cls s := by
  generalize ht : ',' :: s = t at hs
  cases hs with
  | nil => cases ht
  | plain _ _ _ hs => cases ht; exact hs
  | quote _ _ _ => cases ht
  | nest _ _ => cases h <;> cases ht

theorem Brackets.items (h : Brackets opn cls) {items : Tree .items} (hs : Balanced opn cls items.text) :
    Balanced opn cls items.text.tail := by
  cases items with
  | noItems => exact .nil
  | item before v after rest => exact h.tail hs

theorem Brackets.members (h : Brackets opn cls) {members : Tree .members}
    (hs : Balanced opn cls members.text) : Balanced opn cls members.text.tail := by
  cases members with
  | noMembers => exact .nil
  | member before name mid gap v after rest => exact h.tail hs

end UrlShortener.Json

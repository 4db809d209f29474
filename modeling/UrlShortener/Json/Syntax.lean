import UrlShortener.Json.Grammar
import UrlShortener.Text.Codes

/-!
# The grammar of JSON texts

RFC 8259 as a relation between a text and what is left of it behind a value. The parts without nesting are
functions: white space, strings with their escapes, and numbers. Characters stand for bytes, and no encoding is
assumed above 0x7f.

* `Parses.unique`: what is left is determined.
* `parses_value_object`, `parses_members`, `parses_items`: one step of the grammar, read backwards.
* `ValueText`: a text that is one value where a comma or a closing bracket follows, if a condition holds.
* `isJson_objectText`: **a printed object is a JSON text exactly if each of its values is.**
-/

namespace UrlShortener.Json

open Text

/-! ## Lexical parts -/

/-- Blanks are skipped. -/
def skipWhite (s : List Char) : List Char := s.dropWhile isWhite

/-- One digit of a `\u` escape. -/
def isHexDigit (c : Char) : Bool := c.isDigit || ('a' ≤ c && c ≤ 'f') || ('A' ≤ c && c ≤ 'F')

/-- The characters that make an escape with a backslash. -/
def isEscapeLetter (c : Char) : Bool :=
  c == '"' || c == '\\' || c == '/' || c == 'b' || c == 'f' || c == 'n' || c == 'r' || c == 't'

/-- **Behind the opening quote of a string**: what is left behind the closing one. -/
def readChars : List Char → Option (List Char)
  | [] => none
  | c :: s =>
    if c = '"' then some s
    else if c = '\\' then
      match s with
      | [] => none
      | 'u' :: h₁ :: h₂ :: h₃ :: h₄ :: s =>
        if isHexDigit h₁ && isHexDigit h₂ && isHexDigit h₃ && isHexDigit h₄ then readChars s else none
      | e :: s => if isEscapeLetter e then readChars s else none
    else if c.toNat < 32 then none
    else readChars s

/-- At least one digit. -/
def readDigits : List Char → Option (List Char)
  | [] => none
  | c :: s => if c.isDigit then some (s.dropWhile Char.isDigit) else none

/-- No digit behind a leading zero. -/
def readInteger : List Char → Option (List Char)
  | '0' :: s => some s
  | s => readDigits s

/-- Past the fraction, if there is one. -/
def readFraction : List Char → Option (List Char)
  | '.' :: s => readDigits s
  | s => some s

/-- Past the exponent, if there is one. -/
def readExponent : List Char → Option (List Char)
  | [] => some []
  | e :: s =>
    if e = 'e' ∨ e = 'E' then
      match s with
      | '+' :: s => readDigits s
      | '-' :: s => readDigits s
      | s => readDigits s
    else some (e :: s)

/-- Past a number. -/
def readNumber (s : List Char) : Option (List Char) :=
  let unsigned := match s with
    | '-' :: s => s
    | s => s
  (readInteger unsigned).bind fun s => (readFraction s).bind readExponent

theorem readChars_quote (s : List Char) : readChars ('"' :: s) = some s := by
  unfold readChars
  rfl

theorem readChars_plain {c : Char} (hquote : c ≠ '"') (hback : c ≠ '\\') (s : List Char) :
    readChars (c :: s) = if c.toNat < 32 then none else readChars s := by
  rw [readChars.eq_def]
  simp only [if_neg hquote, if_neg hback]

theorem readChars_escape {e : Char} (he : isEscapeLetter e = true) (s : List Char) :
    readChars ('\\' :: e :: s) = readChars s := by
  rw [readChars.eq_def]
  simp only [if_true, if_neg (show '\\' ≠ '"' by decide)]
  split
  · rename_i heq
    cases heq
  · rename_i heq
    cases heq
    cases he
  · rename_i heq
    cases heq
    exact if_pos he

/-! ## Values -/

/-- What is looked for: a value, or the elements or members of a container up to its closing bracket. -/
inductive Goal
  | value
  | items
  | members

/-- **`Parses g s r`**: at the start of `s` stands what is looked for, and `r` is left. -/
inductive Parses : Goal → List Char → List Char → Prop
  | null {s : List Char} : Parses .value ('n' :: 'u' :: 'l' :: 'l' :: s) s
  | true {s : List Char} : Parses .value ('t' :: 'r' :: 'u' :: 'e' :: s) s
  | false {s : List Char} : Parses .value ('f' :: 'a' :: 'l' :: 's' :: 'e' :: s) s
  | number {s r : List Char} : readNumber s = some r → Parses .value s r
  | string {s r : List Char} : readChars s = some r → Parses .value ('"' :: s) r
  | emptyArray {s r : List Char} : skipWhite s = ']' :: r → Parses .value ('[' :: s) r
  | array {s r : List Char} : Parses .items (skipWhite s) r → Parses .value ('[' :: s) r
  | lastItem {s s₁ r : List Char} : Parses .value s s₁ → skipWhite s₁ = ']' :: r → Parses .items s r
  | item {s s₁ s₂ r : List Char} : Parses .value s s₁ → skipWhite s₁ = ',' :: s₂ → Parses .items (skipWhite s₂) r →
    Parses .items s r
  | emptyObject {s r : List Char} : skipWhite s = '}' :: r → Parses .value ('{' :: s) r
  | object {s r : List Char} : Parses .members (skipWhite s) r → Parses .value ('{' :: s) r
  | lastMember {s s₁ s₂ s₃ r : List Char} : readChars s = some s₁ → skipWhite s₁ = ':' :: s₂ →
    Parses .value (skipWhite s₂) s₃ → skipWhite s₃ = '}' :: r → Parses .members ('"' :: s) r
  | member {s s₁ s₂ s₃ s₄ r : List Char} : readChars s = some s₁ → skipWhite s₁ = ':' :: s₂ →
    Parses .value (skipWhite s₂) s₃ → skipWhite s₃ = ',' :: s₄ → Parses .members (skipWhite s₄) r →
    Parses .members ('"' :: s) r

/-- **A JSON text**: one value, with white space around it. -/
def IsJson (s : List Char) : Prop := ∃ r, Parses .value (skipWhite s) r ∧ skipWhite r = []

/-- A JSON text whose value is an object. -/
def IsJsonObject (s : List Char) : Prop := IsJson s ∧ (skipWhite s).head? = some '{'

variable {s r r' : List Char} {g : Goal}

/-! ## Reading backwards -/

/-- A text that begins like no literal, string or container is a number or nothing. -/
theorem parses_value_number {c : Char} (hc : c ∉ ['n', 't', 'f', '"', '[', '{']) :
    Parses .value (c :: s) r ↔ readNumber (c :: s) = some r := by
  constructor
  · intro h
    cases h with
    | number h => exact h
    | _ => simp at hc
  · exact .number

theorem readNumber_not_digit {c : Char} (hminus : c ≠ '-') (hdigit : c.isDigit = Bool.false) :
    readNumber (c :: s) = none := by
  have hzero : c ≠ '0' := by
    rintro rfl
    cases hdigit
  simp [readNumber, readInteger, readDigits, hminus, hdigit, hzero]

theorem parses_value_string : Parses .value ('"' :: s) r ↔ readChars s = some r := by
  constructor
  · intro h
    cases h with
    | number h => simp [readNumber, readInteger, readDigits] at h
    | string h => exact h
  · exact .string

theorem parses_value_array :
    Parses .value ('[' :: s) r ↔ skipWhite s = ']' :: r ∨ Parses .items (skipWhite s) r := by
  constructor
  · intro h
    cases h with
    | number h => simp [readNumber, readInteger, readDigits] at h
    | emptyArray h => exact .inl h
    | array h => exact .inr h
  · rintro (h | h)
    · exact .emptyArray h
    · exact .array h

theorem parses_value_object :
    Parses .value ('{' :: s) r ↔ skipWhite s = '}' :: r ∨ Parses .members (skipWhite s) r := by
  constructor
  · intro h
    cases h with
    | number h => simp [readNumber, readInteger, readDigits] at h
    | emptyObject h => exact .inl h
    | object h => exact .inr h
  · rintro (h | h)
    · exact .emptyObject h
    · exact .object h

theorem parses_items : Parses .items s r ↔ ∃ s₁, Parses .value s s₁ ∧
    (skipWhite s₁ = ']' :: r ∨ ∃ s₂, skipWhite s₁ = ',' :: s₂ ∧ Parses .items (skipWhite s₂) r) := by
  constructor
  · intro h
    cases h with
    | lastItem hv hclose => exact ⟨_, hv, .inl hclose⟩
    | item hv hcomma hrest => exact ⟨_, hv, .inr ⟨_, hcomma, hrest⟩⟩
  · rintro ⟨s₁, hv, hclose | ⟨s₂, hcomma, hrest⟩⟩
    · exact .lastItem hv hclose
    · exact .item hv hcomma hrest

theorem parses_members : Parses .members s r ↔ ∃ t s₁ s₂ s₃, s = '"' :: t ∧ readChars t = some s₁ ∧
    skipWhite s₁ = ':' :: s₂ ∧ Parses .value (skipWhite s₂) s₃ ∧
    (skipWhite s₃ = '}' :: r ∨ ∃ s₄, skipWhite s₃ = ',' :: s₄ ∧ Parses .members (skipWhite s₄) r) := by
  constructor
  · intro h
    cases h with
    | lastMember hname hcolon hv hclose => exact ⟨_, _, _, _, rfl, hname, hcolon, hv, .inl hclose⟩
    | member hname hcolon hv hcomma hrest => exact ⟨_, _, _, _, rfl, hname, hcolon, hv, .inr ⟨_, hcomma, hrest⟩⟩
  · rintro ⟨t, s₁, s₂, s₃, rfl, hname, hcolon, hv, hclose | ⟨s₄, hcomma, hrest⟩⟩
    · exact .lastMember hname hcolon hv hclose
    · exact .member hname hcolon hv hcomma hrest

/-- What follows the name of a member. -/
theorem parses_members_of_name {t s₁ s₂ : List Char} (hname : readChars t = some s₁)
    (hcolon : skipWhite s₁ = ':' :: s₂) :
    Parses .members ('"' :: t) r ↔ ∃ s₃, Parses .value (skipWhite s₂) s₃ ∧
      (skipWhite s₃ = '}' :: r ∨ ∃ s₄, skipWhite s₃ = ',' :: s₄ ∧ Parses .members (skipWhite s₄) r) := by
  rw [parses_members]
  constructor
  · rintro ⟨t', s₁', s₂', s₃, ht, hname', hcolon', hv, hrest⟩
    cases ht
    cases hname.symm.trans hname'
    cases hcolon.symm.trans hcolon'
    exact ⟨s₃, hv, hrest⟩
  · rintro ⟨s₃, hv, hrest⟩
    exact ⟨t, s₁, s₂, s₃, rfl, hname, hcolon, hv, hrest⟩

/-- The characters that end a value within a container. -/
def isEnd (c : Char) : Bool := c == ',' || c == '}' || c == ']'

theorem isEnd_cases {c : Char} (h : isEnd c = Bool.true) : c = ',' ∨ c = '}' ∨ c = ']' := by
  simpa [isEnd, or_assoc] using h

theorem not_parses_value_end {c : Char} (hc : isEnd c = Bool.true) : ¬Parses .value (c :: s) r := by
  intro h
  rcases isEnd_cases hc with rfl | rfl | rfl <;>
  · rw [parses_value_number (by decide), readNumber_not_digit (by decide) (by decide)] at h
    cases h

/-- Behind a value, a closing bracket leaves what follows it. -/
theorem eq_of_closed {t : List Char} {c : Char} {p : List Char → Prop} (hc : c ≠ ',') (hclose : t = c :: r)
    (hend : t = c :: r' ∨ ∃ s, t = ',' :: s ∧ p s) : r = r' := by
  rcases hend with hend | ⟨s, hend, -⟩
  · exact (List.cons.inj (hclose.symm.trans hend)).2
  · exact absurd (List.cons.inj (hclose.symm.trans hend)).1 hc

/-- Behind a value, a comma goes on with the next one. -/
theorem rest_of_comma {t : List Char} {c : Char} {p : List Char → Prop} (hc : c ≠ ',') (hcomma : t = ',' :: s)
    (hend : t = c :: r ∨ ∃ s, t = ',' :: s ∧ p s) : p s := by
  rcases hend with hend | ⟨s', hend, hrest⟩
  · exact absurd (List.cons.inj (hcomma.symm.trans hend)).1.symm hc
  · rwa [(List.cons.inj (hcomma.symm.trans hend)).2]

/-- **What is left is determined.** -/
theorem Parses.unique (h : Parses g s r) (h' : Parses g s r') : r = r' := by
  -- by the derivation: the first character tells the rules apart, and a number begins like no other value
  induction h generalizing r' with
  | null =>
    cases h' with
    | null => rfl
    | number h => simp [readNumber, readInteger, readDigits] at h
  | true =>
    cases h' with
    | true => rfl
    | number h => simp [readNumber, readInteger, readDigits] at h
  | false =>
    cases h' with
    | false => rfl
    | number h => simp [readNumber, readInteger, readDigits] at h
  | @number s r h =>
    cases h' with
    | number h' => exact Option.some.inj (h.symm.trans h')
    | _ => simp [readNumber, readInteger, readDigits] at h
  | string h => exact Option.some.inj (h.symm.trans (parses_value_string.1 h'))
  | emptyArray h =>
    rcases parses_value_array.1 h' with h' | h'
    · exact (List.cons.inj (h.symm.trans h')).2
    · obtain ⟨s₁, hv, -⟩ := parses_items.1 h'
      rw [h] at hv
      exact absurd hv (not_parses_value_end rfl)
  | array h ih =>
    rcases parses_value_array.1 h' with h' | h'
    · obtain ⟨s₁, hv, -⟩ := parses_items.1 h
      rw [h'] at hv
      exact absurd hv (not_parses_value_end rfl)
    · exact ih h'
  | lastItem _ hclose ih =>
    obtain ⟨s₁, hv, hend⟩ := parses_items.1 h'
    obtain rfl := ih hv
    exact eq_of_closed (by decide) hclose hend
  | item _ hcomma _ ihv ihr =>
    obtain ⟨s₁, hv, hend⟩ := parses_items.1 h'
    obtain rfl := ihv hv
    have hrest := rest_of_comma (by decide) hcomma hend
    exact ihr hrest
  | emptyObject h =>
    rcases parses_value_object.1 h' with h' | h'
    · exact (List.cons.inj (h.symm.trans h')).2
    · obtain ⟨t, _, _, _, ht, -⟩ := parses_members.1 h'
      cases h.symm.trans ht
  | object h ih =>
    rcases parses_value_object.1 h' with h' | h'
    · obtain ⟨t, _, _, _, ht, -⟩ := parses_members.1 h
      cases h'.symm.trans ht
    · exact ih h'
  | lastMember hname hcolon _ hclose ih =>
    obtain ⟨s₃, hv, hend⟩ := (parses_members_of_name hname hcolon).1 h'
    obtain rfl := ih hv
    exact eq_of_closed (by decide) hclose hend
  | member hname hcolon _ hcomma _ ihv ihr =>
    obtain ⟨s₃, hv, hend⟩ := (parses_members_of_name hname hcolon).1 h'
    obtain rfl := ihv hv
    have hrest := rest_of_comma (by decide) hcomma hend
    exact ihr hrest

/-! ## Printed containers -/

variable {good : Prop} {w name : List Char}

/-- **Followed by a comma or a closing bracket, `w` is one value exactly if `good`.** -/
def ValueText (good : Prop) (w : List Char) : Prop :=
  ∀ c s r, isEnd c = Bool.true →
    (Parses .value (skipWhite (w ++ c :: s)) r ∧ (∃ d t, skipWhite r = d :: t ∧ isEnd d = Bool.true) ↔
      good ∧ r = c :: s)

/-- The contents of a string literal. -/
def IsName (name : List Char) : Prop := ∀ t, readChars (name ++ '"' :: t) = some t

theorem isName_of_isPlain (h : name.all isPlain = Bool.true) : IsName name := by
  intro t
  induction name with
  | nil => exact readChars_quote t
  | cons c name ih =>
    rw [List.all_cons, Bool.and_eq_true] at h
    obtain ⟨hc, hname⟩ := h
    simp only [isPlain, Bool.and_eq_true, decide_eq_true_eq, bne_iff_ne] at hc
    obtain ⟨⟨hlow, hquote⟩, hback⟩ := hc
    rw [List.cons_append, readChars_plain hquote hback, if_neg (by omega), ih hname]

theorem skipWhite_cons {c : Char} (hc : isWhite c = Bool.false) : skipWhite (c :: s) = c :: s := by
  simp [skipWhite, hc]

theorem isWhite_of_isEnd {c : Char} (hc : isEnd c = Bool.true) : isWhite c = Bool.false := by
  rcases isEnd_cases hc with rfl | rfl | rfl <;> rfl

/-- A text that is one value whatever follows. -/
theorem valueText_of_parses {c : Char} {t : List Char} (hw : w = c :: t) (hc : isWhite c = Bool.false)
    (h : ∀ s r, Parses .value (w ++ s) r ↔ good ∧ r = s) : ValueText good w := by
  intro e s r he
  have hskip : skipWhite (w ++ e :: s) = w ++ e :: s := by
    rw [hw, List.cons_append, skipWhite_cons hc]
  rw [hskip, h]
  constructor
  · exact And.left
  · rintro ⟨hgood, rfl⟩
    exact ⟨⟨hgood, rfl⟩, e, s, skipWhite_cons (isWhite_of_isEnd he), he⟩

theorem ValueText.congr {good' : Prop} (hw : ValueText good w) (h : good ↔ good') : ValueText good' w :=
  propext h ▸ hw

/-- The grammar passes over one value where it ends. -/
theorem ValueText.parses_iff (hw : ValueText good w) {c : Char} (hc : isEnd c = Bool.true) {P : List Char → Prop}
    (hP : ∀ r, P r → ∃ d t, skipWhite r = d :: t ∧ isEnd d = Bool.true) :
    (∃ s₁, Parses .value (skipWhite (w ++ c :: s)) s₁ ∧ P s₁) ↔ good ∧ P (c :: s) := by
  constructor
  · rintro ⟨s₁, hv, hp⟩
    obtain ⟨hgood, rfl⟩ := (hw c s s₁ hc).1 ⟨hv, hP s₁ hp⟩
    exact ⟨hgood, hp⟩
  · rintro ⟨hgood, hp⟩
    exact ⟨c :: s, ((hw c s (c :: s) hc).2 ⟨hgood, rfl⟩).1, hp⟩

/-- A member of an object. -/
def memberText (m : List Char × List Char) : List Char := '"' :: (m.1 ++ '"' :: ':' :: m.2)

/-- An object of members without blanks. -/
def objectText (ms : List (List Char × List Char)) : List Char := '{' :: [','].intercalate (ms.map memberText) ++ ['}']

/-- An array without blanks. -/
def arrayText (ws : List (List Char)) : List Char := '[' :: [','].intercalate ws ++ [']']

/-- **A value and what ends it**: the bracket of its container, or a comma and the rest of the container. -/
theorem parses_value_ended (hw : ValueText good w) {c close : Char} (hc : isEnd c = Bool.true)
    (hclose : isEnd close = Bool.true) {P : List Char → Prop} :
    (∃ s₁, Parses .value (skipWhite (w ++ c :: s)) s₁ ∧
      (skipWhite s₁ = close :: r ∨ ∃ s₂, skipWhite s₁ = ',' :: s₂ ∧ P s₂)) ↔
      good ∧ (c = close ∧ s = r ∨ c = ',' ∧ P s) := by
  have hend : skipWhite (c :: s) = c :: s := skipWhite_cons (isWhite_of_isEnd hc)
  rw [hw.parses_iff hc, hend]
  · refine and_congr_right fun _ => or_congr (by simp) ?_
    constructor
    · rintro ⟨s₂, h, hrest⟩
      cases h
      exact ⟨rfl, hrest⟩
    · rintro ⟨rfl, hrest⟩
      exact ⟨s, rfl, hrest⟩
  · rintro s₁ (h | ⟨s₂, h, -⟩)
    · exact ⟨_, _, h, hclose⟩
    · exact ⟨_, _, h, rfl⟩

/-- The first member of an object, up to where its value ends. -/
theorem parses_members_cons (hname : IsName name) (hw : ValueText good w) {c : Char} (hc : isEnd c = Bool.true) :
    Parses .members (memberText (name, w) ++ c :: s) r ↔
      good ∧ (c = '}' ∧ s = r ∨ c = ',' ∧ Parses .members (skipWhite s) r) := by
  have htext : memberText (name, w) ++ c :: s = '"' :: (name ++ '"' :: ':' :: (w ++ c :: s)) := by simp [memberText]
  rw [htext, parses_members_of_name (hname _) rfl]
  exact parses_value_ended hw hc rfl

/-- The first element of an array, up to where it ends. -/
theorem parses_items_cons (hw : ValueText good w) {c : Char} (hc : isEnd c = Bool.true) :
    Parses .items (skipWhite (w ++ c :: s)) r ↔
      good ∧ (c = ']' ∧ s = r ∨ c = ',' ∧ Parses .items (skipWhite s) r) := by
  rw [parses_items]
  exact parses_value_ended hw hc rfl

section Containers

variable {goods : List Char × List Char → Prop} {ms : List (List Char × List Char)}

/-- The members of an object, one after the other. -/
theorem parses_members_text {m : List Char × List Char} (h : ∀ m' ∈ m :: ms, IsName m'.1 ∧ ValueText (goods m') m'.2) :
    Parses .members (memberText m ++ (ms.flatMap (fun m => ',' :: memberText m) ++ '}' :: s)) r ↔
      (∀ m' ∈ m :: ms, goods m') ∧ r = s := by
  obtain ⟨hname, hvalue⟩ := h m List.mem_cons_self
  induction ms generalizing m with
  | nil =>
    rw [List.flatMap_nil, List.nil_append, parses_members_cons hname hvalue rfl]
    simp [eq_comm]
  | cons m' ms ih =>
    have hrest : ∀ m'' ∈ m' :: ms, IsName m''.1 ∧ ValueText (goods m'') m''.2 :=
      fun m'' hm => h m'' (List.mem_cons_of_mem _ hm)
    have hih := ih hrest (hrest m' List.mem_cons_self).1 (hrest m' List.mem_cons_self).2
    rw [List.flatMap_cons, List.cons_append, List.cons_append, parses_members_cons hname hvalue rfl,
      List.append_assoc, show skipWhite (memberText m' ++ _) = memberText m' ++ _ from rfl, hih]
    simp [and_assoc]

/-- **A printed object**, if each value is a value text. -/
theorem parses_objectText (h : ∀ m ∈ ms, IsName m.1 ∧ ValueText (goods m) m.2) :
    Parses .value (objectText ms ++ s) r ↔ (∀ m ∈ ms, goods m) ∧ r = s := by
  rw [objectText, List.append_assoc, List.cons_append, List.singleton_append, parses_value_object]
  cases ms with
  | nil =>
    have hclose : skipWhite ([','].intercalate (List.map memberText []) ++ '}' :: s) = '}' :: s := rfl
    have hnone : ¬Parses .members ('}' :: s) r := by
      rintro ⟨⟩
    rw [hclose]
    simp [hnone, eq_comm]
  | cons m ms =>
    have hskip : skipWhite (memberText m ++ (ms.flatMap (fun m => ',' :: memberText m) ++ '}' :: s)) =
        memberText m ++ (ms.flatMap (fun m => ',' :: memberText m) ++ '}' :: s) := rfl
    rw [intercalate_map_cons, List.append_assoc, hskip, parses_members_text h]
    simp [memberText]

theorem valueText_objectText (h : ∀ m ∈ ms, IsName m.1 ∧ ValueText (goods m) m.2) :
    ValueText (∀ m ∈ ms, goods m) (objectText ms) :=
  valueText_of_parses rfl rfl fun _ _ => parses_objectText h

/-- **A printed object is a JSON text** exactly if each of its values is. -/
theorem isJson_objectText (h : ∀ m ∈ ms, IsName m.1 ∧ ValueText (goods m) m.2) :
    IsJson (objectText ms) ↔ ∀ m ∈ ms, goods m := by
  have hskip : skipWhite (objectText ms) = objectText ms ++ [] := by
    rw [List.append_nil]
    rfl
  simp only [IsJson, hskip, parses_objectText h]
  constructor
  · rintro ⟨r, ⟨hgood, -⟩, -⟩
    exact hgood
  · intro hgood
    exact ⟨[], ⟨hgood, rfl⟩, rfl⟩

theorem parses_items_text {ws : List (List Char)} (h : ∀ w' ∈ w :: ws, ValueText True w') :
    Parses .items (skipWhite (w ++ (ws.flatMap (fun w => ',' :: w) ++ ']' :: s))) r ↔ r = s := by
  have hw := h w List.mem_cons_self
  induction ws generalizing w with
  | nil =>
    rw [List.flatMap_nil, List.nil_append, parses_items_cons hw rfl]
    simp [eq_comm]
  | cons w' ws ih =>
    have hrest : ∀ w'' ∈ w' :: ws, ValueText True w'' := fun w'' hm => h w'' (List.mem_cons_of_mem _ hm)
    have hih := ih hrest (hrest w' List.mem_cons_self)
    rw [List.flatMap_cons, List.cons_append, List.cons_append, parses_items_cons hw rfl, List.append_assoc]
    simpa using hih

/-- **A printed array**, if each element is a value text. -/
theorem valueText_arrayText {ws : List (List Char)} (h : ∀ w ∈ ws, ValueText True w) :
    ValueText True (arrayText ws) := by
  refine valueText_of_parses rfl rfl fun s r => ?_
  rw [arrayText, List.append_assoc, List.cons_append, List.singleton_append, parses_value_array]
  cases ws with
  | nil =>
    have hclose : skipWhite ([','].intercalate [] ++ ']' :: s) = ']' :: s := rfl
    have hnone : ¬Parses .items (']' :: s) r := by
      intro hitems
      obtain ⟨s₁, hv, -⟩ := parses_items.1 hitems
      exact not_parses_value_end rfl hv
    rw [hclose]
    simp [hnone, eq_comm]
  | cons w ws =>
    have htext := intercalate_map_cons ',' (fun w : List Char => w) w ws
    rw [List.map_id'] at htext
    rw [htext, List.append_assoc, parses_items_text h]
    -- an array that is not empty does not begin with its closing bracket
    have hopen : skipWhite (w ++ (ws.flatMap (fun w => ',' :: w) ++ ']' :: s)) ≠ ']' :: r := by
      intro hclose
      obtain ⟨s₁, hv, -⟩ := parses_items.1 ((parses_items_text h).2 (Eq.refl s))
      rw [hclose] at hv
      exact not_parses_value_end rfl hv
    simp [hopen]

end Containers

/-! ## Printed strings and numbers -/

theorem valueText_string (hgood : good → IsName name)
    (hbad : ¬good → ∀ t, readChars (name ++ '"' :: t) = none) : ValueText good ('"' :: name ++ ['"']) := by
  refine valueText_of_parses rfl rfl fun s r => ?_
  rw [List.append_assoc, List.cons_append, parses_value_string, List.singleton_append]
  by_cases h : good
  · rw [hgood h]
    simp [h, eq_comm]
  · rw [hbad h]
    simp [h]

theorem valueText_null : ValueText True ['n', 'u', 'l', 'l'] := by
  refine valueText_of_parses rfl rfl fun s r => ?_
  rw [true_and]
  constructor
  · intro h
    exact h.unique .null
  · rintro rfl
    exact .null

/-- White space in front does not matter. -/
theorem ValueText.white (hw : ValueText good w) {ws : List Char} (hws : ∀ c ∈ ws, isWhite c = Bool.true) :
    ValueText good (ws ++ w) := by
  intro c s r hc
  rw [List.append_assoc, skipWhite, List.dropWhile_append_of_pos hws]
  exact hw c s r hc

/-- A text that no value begins like. -/
theorem valueText_false {c : Char} {t : List Char} (hwhite : isWhite c = Bool.false)
    (hstart : c ∉ ['n', 't', 'f', '"', '[', '{']) (hminus : c ≠ '-') (hdigit : c.isDigit = Bool.false) :
    ValueText False (c :: t) := by
  intro e s r he
  rw [List.cons_append, skipWhite_cons hwhite, parses_value_number hstart, readNumber_not_digit hminus hdigit]
  simp

theorem ne_of_isDigit {c d : Char} (hc : c.isDigit = Bool.true) (hd : d.isDigit = Bool.false) : c ≠ d := by
  rintro rfl
  rw [hc] at hd
  cases hd

theorem isWhite_of_isDigit {c : Char} (hc : c.isDigit = Bool.true) : isWhite c = Bool.false := by
  simp [isWhite, ne_of_isDigit hc (d := ' ') rfl, ne_of_isDigit hc (d := '\t') rfl,
    ne_of_isDigit hc (d := '\n') rfl, ne_of_isDigit hc (d := '\r') rfl]

theorem isEnd_of_isDigit {c : Char} (hc : c.isDigit = Bool.true) : isEnd c = Bool.false := by
  simp [isEnd, ne_of_isDigit hc (d := ',') rfl, ne_of_isDigit hc (d := '}') rfl, ne_of_isDigit hc (d := ']') rfl]

theorem isInteger_of_ne_zero {c : Char} {t : List Char} (hzero : c ≠ '0') (hd : isDigits (c :: t) = Bool.true) :
    isInteger (c :: t) = Bool.true := by
  unfold isInteger
  split
  · rfl
  · rename_i heq
    cases heq
    simp [hzero, hd]
  · rename_i heq
    cases heq

/-- A number ends where neither a fraction nor an exponent begins. -/
theorem readNumber_tail {c : Char} (hpoint : c ≠ '.') (hlower : c ≠ 'e') (hupper : c ≠ 'E') :
    (readFraction (c :: s)).bind readExponent = some (c :: s) := by
  simp [readFraction, readExponent, hpoint, hlower, hupper]

/-- A sign and a digit: the digits go on, unless the first one is a zero. -/
theorem readNumber_digits {c : Char} {t : List Char} (hc : c.isDigit = Bool.true) (neg : Bool) :
    readNumber ((if neg then ['-'] else []) ++ c :: t) =
      (if c = '0' then (readFraction t).bind readExponent
        else (readFraction (t.dropWhile Char.isDigit)).bind readExponent) := by
  have hminus : c ≠ '-' := ne_of_isDigit hc rfl
  by_cases hzero : c = '0'
  · subst hzero
    cases neg <;> simp [readNumber, readInteger]
  · cases neg <;> simp [readNumber, readInteger, readDigits, hminus, hzero, hc]

/-- A number begins with a sign or a digit. -/
theorem parses_value_digits {c : Char} (hc : c.isDigit = Bool.true) (neg : Bool) :
    Parses .value (skipWhite ((if neg then ['-'] else []) ++ c :: s)) r ↔
      readNumber ((if neg then ['-'] else []) ++ c :: s) = some r := by
  have hstart : c ∉ ['n', 't', 'f', '"', '[', '{'] := by
    simp [ne_of_isDigit hc (d := 'n') rfl, ne_of_isDigit hc (d := 't') rfl, ne_of_isDigit hc (d := 'f') rfl,
      ne_of_isDigit hc (d := '"') rfl, ne_of_isDigit hc (d := '[') rfl, ne_of_isDigit hc (d := '{') rfl]
  cases neg with
  | false =>
    have hskip : skipWhite (c :: s) = c :: s := skipWhite_cons (isWhite_of_isDigit hc)
    simp only [Bool.false_eq_true, if_false, List.nil_append, hskip]
    exact parses_value_number hstart
  | true => exact parses_value_number (by decide)

/-- **Digits are a value exactly if there is no leading zero**: what is left otherwise goes on with a digit. -/
theorem valueText_digits {d : List Char} (hd : isDigits d = Bool.true) (neg : Bool) :
    ValueText (isInteger d = Bool.true) ((if neg then ['-'] else []) ++ d) := by
  obtain ⟨hne, hall⟩ : d ≠ [] ∧ ∀ c ∈ d, c.isDigit = Bool.true := by simpa [isDigits] using hd
  obtain ⟨c, t, rfl⟩ := List.exists_cons_of_ne_nil hne
  have hc := hall c List.mem_cons_self
  have ht : ∀ d ∈ t, d.isDigit = Bool.true := fun d hd => hall d (List.mem_cons_of_mem _ hd)
  intro e s r he
  have hend : (readFraction (e :: s)).bind readExponent = some (e :: s) := by
    rcases isEnd_cases he with rfl | rfl | rfl <;> exact readNumber_tail (by decide) (by decide) (by decide)
  have hskip : skipWhite (e :: s) = e :: s := skipWhite_cons (isWhite_of_isEnd he)
  have hwhole : some (e :: s) = some r ∧ (∃ d t, skipWhite r = d :: t ∧ isEnd d = Bool.true) ↔ r = e :: s := by
    rw [Option.some.injEq, eq_comm]
    refine and_iff_left_of_imp ?_
    rintro rfl
    exact ⟨e, s, hskip, he⟩
  rw [List.append_assoc, List.cons_append, parses_value_digits hc, readNumber_digits hc]
  by_cases hzero : c = '0'
  · subst hzero
    rw [if_pos rfl]
    cases t with
    | nil =>
      rw [List.nil_append, hend, hwhole]
      exact (and_iff_right rfl).symm
    | cons c' t =>
      -- a digit behind the zero is left over
      have hc' := ht c' List.mem_cons_self
      have htail : (readFraction (c' :: t ++ e :: s)).bind readExponent = some (c' :: t ++ e :: s) :=
        readNumber_tail (ne_of_isDigit hc' rfl) (ne_of_isDigit hc' rfl) (ne_of_isDigit hc' rfl)
      have hleading : isInteger ('0' :: c' :: t) = Bool.false := rfl
      rw [htail, hleading]
      refine iff_of_false ?_ (by simp)
      rintro ⟨hr, d, t', hd, hend⟩
      cases hr
      rw [List.cons_append, skipWhite_cons (isWhite_of_isDigit hc')] at hd
      cases hd
      rw [isEnd_of_isDigit hc'] at hend
      cases hend
  · have hint := isInteger_of_ne_zero hzero hd
    have hdrop : (t ++ e :: s).dropWhile Char.isDigit = e :: s := by
      rw [List.dropWhile_append_of_pos ht]
      rcases isEnd_cases he with rfl | rfl | rfl <;> rfl
    rw [if_neg hzero, hdrop, hend, hwhole, hint]
    simp

end UrlShortener.Json

import UrlShortener.Proof.Kinds

/-!
# The token of a container is its text

The bracket loop counts the brackets of one kind only, and leaves strings by a flag of its own. On a JSON text this is
enough, since the brackets of either kind match.

* `parses_neutral`: **what the grammar takes, both loops pass over**, up to the bracket that closes the container.
* `scanBracketInt_eq`: a depth kept in an `int` makes no difference for a token shorter than 2^31.
* `extractJsonValueToken_container`: **an array or an object is returned as it is written**, whatever follows it.
-/

namespace UrlShortener

open Text Json

/-! ## Neutral texts -/

/-- **Both bracket loops pass over the text.** -/
def Neutral (a : Str) : Prop := ∀ opn cls : Char, Brackets opn cls → Passes opn cls a

variable {a b s r : Str}

theorem Neutral.append (ha : Neutral a) (hb : Neutral b) : Neutral (a ++ b) :=
  fun opn cls h => (ha opn cls h).append (hb opn cls h)

/-- Neither a quote nor a bracket. -/
def isNeutral (c : Char) : Bool := !(List.contains ['"', '[', ']', '{', '}'] c)

theorem neutral_of_all (h : a.all isNeutral = true) : Neutral a := by
  intro opn cls hbrackets
  refine scanBracket_balanced hbrackets (balanced_of_plain fun c hc => ?_)
  have hneutral := List.all_eq_true.1 h c hc
  simp only [isNeutral, Bool.not_eq_true', List.contains_eq_mem, decide_eq_false_iff_not, List.mem_cons,
    List.not_mem_nil, or_false, not_or] at hneutral
  obtain ⟨hquote, hsquare, hsquare', hcurly, hcurly'⟩ := hneutral
  cases hbrackets with
  | square => exact ⟨hquote, hsquare, hsquare'⟩
  | curly => exact ⟨hquote, hcurly, hcurly'⟩

theorem neutral_literal {v : Str} (h : Contents a v) : Neutral ('"' :: a ++ ['"']) :=
  fun _ _ _ => Passes.literal h

/-- A container is neutral if what is in it is: its own loop comes back to the depth, and to the other loop its
brackets are characters like others. -/
theorem Neutral.bracketed {opn cls : Char} (h : Brackets opn cls) (ha : Neutral a) : Neutral (opn :: a ++ [cls]) := by
  intro opn' cls' h'
  have hother : opn' ≠ opn → Passes opn' cls' (opn :: a ++ [cls]) := by
    intro hne
    have hopn : Passes opn' cls' [opn] := by
      cases h <;> cases h' <;> first | exact absurd rfl hne | exact .plain (by decide) (by decide) (by decide)
    have hcls : Passes opn' cls' [cls] := by
      cases h <;> cases h' <;> first | exact absurd rfl hne | exact .plain (by decide) (by decide) (by decide)
    exact (hopn.append (ha _ _ h')).append hcls
  by_cases hne : opn' = opn
  · have hcls : cls' = cls := by
      cases h <;> cases h' <;> first | rfl | exact absurd hne (by decide)
    subst hne hcls
    exact Passes.nest h (ha _ _ h)
  · exact hother hne

/-! ## Lexical parts -/

/-- A class of characters that has no quote and no bracket. -/
theorem isNeutral_of_class {p : Char → Bool} (hp : ['"', '[', ']', '{', '}'].any p = false) {c : Char}
    (h : p c = true) : isNeutral c = true := by
  simp only [isNeutral, Bool.not_eq_true', List.contains_eq_mem, decide_eq_false_iff_not]
  intro hmem
  exact List.any_eq_false.1 hp c hmem h

/-- **What stands in front of the rest is neutral.** -/
def PassesOver (s r : Str) : Prop := ∃ a, s = a ++ r ∧ Neutral a

theorem PassesOver.trans {t : Str} (h : PassesOver s t) (h' : PassesOver t r) : PassesOver s r := by
  obtain ⟨a, rfl, ha⟩ := h
  obtain ⟨b, rfl, hb⟩ := h'
  exact ⟨a ++ b, (List.append_assoc a b r).symm, ha.append hb⟩

theorem PassesOver.chars (ha : a.all isNeutral = true) (r : Str) : PassesOver (a ++ r) r :=
  ⟨a, rfl, neutral_of_all ha⟩

theorem PassesOver.char {c : Char} (hc : isNeutral c = true) (r : Str) : PassesOver (c :: r) r :=
  .chars (a := [c]) (by simpa using hc) r

theorem PassesOver.refl (r : Str) : PassesOver r r := .chars (a := []) rfl r

/-- Characters of one class, all of them neutral. -/
theorem PassesOver.dropWhile {p : Char → Bool} (hp : ∀ c, p c = true → isNeutral c = true) (s : Str) :
    PassesOver s (s.dropWhile p) := by
  have hall : (s.takeWhile p).all isNeutral = true :=
    List.all_eq_true.2 fun c hc => hp c (List.mem_takeWhile_imp hc)
  have hsplit := PassesOver.chars hall (s.dropWhile p)
  rwa [List.takeWhile_append_dropWhile] at hsplit

theorem PassesOver.white (s : Str) : PassesOver s (skipWhite s) := .dropWhile (fun _ => isNeutral_of_class rfl) s

/-- White space and a mark behind it. -/
theorem PassesOver.mark {c : Char} (h : skipWhite s = c :: r) (hc : isNeutral c = true) : PassesOver s r := by
  have hwhite := PassesOver.white s
  rw [h] at hwhite
  exact hwhite.trans (.char hc r)

theorem PassesOver.string (h : readChars s = some r) : PassesOver ('"' :: s) r := by
  obtain ⟨d, v, rfl, hd⟩ := contents_of_readChars h
  exact ⟨'"' :: d ++ ['"'], by simp, neutral_literal hd⟩

theorem PassesOver.bracketed {opn cls : Char} (h : Brackets opn cls) (hs : PassesOver s (cls :: r)) :
    PassesOver (opn :: s) r := by
  obtain ⟨a, rfl, ha⟩ := hs
  exact ⟨opn :: a ++ [cls], by simp, ha.bracketed h⟩

theorem PassesOver.digits (h : readDigits s = some r) : PassesOver s r := by
  cases s with
  | nil => cases h
  | cons c s =>
    rw [readDigits] at h
    split at h
    · rename_i hc
      cases h
      exact (char (isNeutral_of_class rfl hc) s).trans (.dropWhile (fun _ => isNeutral_of_class rfl) s)
    · cases h

theorem PassesOver.integer (h : readInteger s = some r) : PassesOver s r := by
  unfold readInteger at h
  split at h
  · cases h
    exact .char rfl r
  · exact .digits h

theorem PassesOver.fraction (h : readFraction s = some r) : PassesOver s r := by
  unfold readFraction at h
  split at h
  · exact (char rfl _).trans (.digits h)
  · cases h
    exact .refl _

theorem PassesOver.exponent (h : readExponent s = some r) : PassesOver s r := by
  unfold readExponent at h
  split at h
  · cases h
    exact .refl _
  · rename_i e s
    split at h
    · rename_i he
      have hletter : isNeutral e = true := by rcases he with rfl | rfl <;> rfl
      refine (char hletter s).trans ?_
      split at h
      · exact (char rfl _).trans (.digits h)
      · exact (char rfl _).trans (.digits h)
      · exact .digits h
    · cases h
      exact .refl _

theorem PassesOver.number (h : readNumber s = some r) : PassesOver s r := by
  have hunsigned : ∀ {s : Str}, ((readInteger s).bind fun s => (readFraction s).bind readExponent) = some r →
      PassesOver s r := by
    intro s h
    obtain ⟨s₁, hinteger, h⟩ := Option.bind_eq_some_iff.1 h
    obtain ⟨s₂, hfraction, hexponent⟩ := Option.bind_eq_some_iff.1 h
    exact (integer hinteger).trans ((fraction hfraction).trans (.exponent hexponent))
  unfold readNumber at h
  simp only at h
  split at h
  · exact (char rfl _).trans (hunsigned h)
  · exact hunsigned h

/-! ## Values -/

/-- What closes the text that is looked for. -/
def closing : Goal → Str
  | .value => []
  | .items => [']']
  | .members => ['}']

/-- White space and the bracket that closes the container. -/
theorem PassesOver.closed {c : Char} (h : skipWhite s = c :: r) : PassesOver s (c :: r) := h ▸ .white s

/-- **What the grammar takes is neutral**, up to the bracket that closes the container. -/
theorem parses_neutral {g : Goal} (h : Parses g s r) : PassesOver s (closing g ++ r) := by
  -- by the derivation, one case for each rule; white space is neutral wherever it is skipped
  induction h with
  | null => exact .chars (a := "null") rfl _
  | true => exact .chars (a := "true") rfl _
  | false => exact .chars (a := "false") rfl _
  | number hnumber => exact .number hnumber
  | string hchars => exact .string hchars
  | emptyArray hclose => exact .bracketed .square (.closed hclose)
  | array _ ih => exact .bracketed .square ((PassesOver.white _).trans ih)
  | lastItem _ hclose ih => exact ih.trans (.closed hclose)
  | item _ hcomma _ ih ihrest => exact ih.trans ((PassesOver.mark hcomma rfl).trans ((PassesOver.white _).trans ihrest))
  | emptyObject hclose => exact .bracketed .curly (.closed hclose)
  | object _ ih => exact .bracketed .curly ((PassesOver.white _).trans ih)
  | lastMember hname hcolon _ hclose ih =>
    have hvalue := (PassesOver.mark hcolon rfl).trans ((PassesOver.white _).trans ih)
    exact (PassesOver.string hname).trans (hvalue.trans (.closed hclose))
  | member hname hcolon _ hcomma _ ih ihrest =>
    have hvalue := (PassesOver.mark hcolon rfl).trans ((PassesOver.white _).trans ih)
    have hrest := (PassesOver.mark hcomma rfl).trans ((PassesOver.white _).trans ihrest)
    exact (PassesOver.string hname).trans (hvalue.trans hrest)

/-- **A container in brackets**: its text, with neutral text between them. -/
theorem container_neutral {V : Str} (hV : Parses .value V []) (hopen : V.head? = some '[' ∨ V.head? = some '{') :
    ∃ opn cls a, Brackets opn cls ∧ V = opn :: a ++ [cls] ∧ Neutral a := by
  have hinner : ∀ {opn cls : Char} {s : Str}, Brackets opn cls → PassesOver s [cls] →
      ∃ opn' cls' a, Brackets opn' cls' ∧ opn :: s = opn' :: a ++ [cls'] ∧ Neutral a := by
    rintro opn cls s hbrackets ⟨a, rfl, ha⟩
    exact ⟨opn, cls, a, hbrackets, rfl, ha⟩
  cases V with
  | nil => simp at hopen
  | cons c s =>
    simp only [List.head?_cons, Option.some.injEq] at hopen
    rcases hopen with rfl | rfl
    · rcases parses_value_array.1 hV with hclose | hitems
      · exact hinner .square (.closed hclose)
      · exact hinner .square ((PassesOver.white s).trans (parses_neutral hitems))
    · rcases parses_value_object.1 hV with hclose | hmembers
      · exact hinner .curly (.closed hclose)
      · exact hinner .curly ((PassesOver.white s).trans (parses_neutral hmembers))

/-! ## The depth as an `int` -/

/-- The bracket loop with the depth in 32 bits. -/
def scanBracketInt (opn cls : Char) : Str → (depth : Int32) → (inString escape : Bool) → Option Str
  | [], _, _, _ => none
  | c :: s, depth, inString, escape =>
    if inString then
      if escape then (scanBracketInt opn cls s depth true false).map (c :: ·)
      else if c = '\\' then (scanBracketInt opn cls s depth true true).map (c :: ·)
      else if c = '"' then (scanBracketInt opn cls s depth false false).map (c :: ·)
      else (scanBracketInt opn cls s depth true false).map (c :: ·)
    else if c = '"' then (scanBracketInt opn cls s depth true false).map (c :: ·)
    else if c = opn then (scanBracketInt opn cls s (depth + 1) false false).map (c :: ·)
    else if c = cls then
      if depth - 1 = 0 then some [c] else (scanBracketInt opn cls s (depth - 1) false false).map (c :: ·)
    else (scanBracketInt opn cls s depth false false).map (c :: ·)

theorem ofInt_eq_zero_iff {d : ℤ} (hlow : -2 ^ 31 ≤ d) (hhigh : d < 2 ^ 31) : Int32.ofInt d = 0 ↔ d = 0 := by
  rw [← Int32.toInt_inj, Int32.toInt_ofInt_of_le hlow hhigh]
  rfl

/-- **The depth does not leave the `int`** on the way to a token shorter than 2^31. -/
theorem scanBracketInt_eq {opn cls : Char} {s u : Str} {d : ℤ} {inString escape : Bool}
    (h : scanBracket opn cls s d inString escape = some u) (hlow : -2 ^ 31 ≤ d - u.length)
    (hhigh : d + u.length < 2 ^ 31) : scanBracketInt opn cls s (Int32.ofInt d) inString escape = some u := by
  -- each character of the token changes the depth by one at most
  induction s generalizing u d inString escape with
  | nil => cases h
  | cons c s ih =>
    have hstep : ∀ {d' : ℤ} {inString' escape' : Bool}, d - 1 ≤ d' → d' ≤ d + 1 →
        (scanBracket opn cls s d' inString' escape').map (c :: ·) = some u →
        (scanBracketInt opn cls s (Int32.ofInt d') inString' escape').map (c :: ·) = some u := by
      intro d' inString' escape' hd hd' hu
      obtain ⟨u', hu', rfl⟩ := Option.map_eq_some_iff.1 hu
      rw [List.length_cons] at hlow hhigh
      rw [ih hu' (by omega) (by omega)]
      rfl
    have hsame : ∀ {inString' escape' : Bool}, (scanBracket opn cls s d inString' escape').map (c :: ·) = some u →
        (scanBracketInt opn cls s (Int32.ofInt d) inString' escape').map (c :: ·) = some u :=
      fun hu => hstep (by omega) (by omega) hu
    have hup : Int32.ofInt d + 1 = Int32.ofInt (d + 1) := (Int32.ofInt_add d 1).symm
    have hdown : Int32.ofInt d - 1 = Int32.ofInt (d - 1) := (Int32.ofInt_sub d 1).symm
    have hne : u ≠ [] := by
      rintro rfl
      simp only [scanBracket] at h
      split_ifs at h <;> simp at h
    have hlength : 0 < u.length := List.length_pos_iff.2 hne
    have hzero : Int32.ofInt (d - 1) = 0 ↔ d - 1 = 0 := ofInt_eq_zero_iff (by omega) (by omega)
    simp only [scanBracket] at h
    simp only [scanBracketInt, hup, hdown, hzero]
    split_ifs at h ⊢
    all_goals first | exact h | exact hsame h | exact hstep (by omega) (by omega) h

/-- **An array or an object is returned as it is written.** The quoted name occurs first in front of `mid`, and the
value stands behind the colon, with white space around it. The last part is about the loop as it is compiled, with
its depth in an `int`. -/
theorem extractJsonValueToken_container (body field pre mid gap V rest : Str)
    (hbody : body = pre ++ quoted field ++ (mid ++ ':' :: (gap ++ (V ++ rest))))
    (hfirst : ∀ a b, body = a ++ quoted field ++ b → pre.length ≤ a.length) (hmid : Blank mid) (hgap : Blank gap)
    (hV : Parses .value V []) (hopen : V.head? = some '[' ∨ V.head? = some '{') (hlength : V.length < 2 ^ 31) :
    extractJsonValueToken body field = some V ∧
      ∀ opn cls, Brackets opn cls → V.head? = some opn →
        scanBracketInt opn cls (V ++ rest) 0 false false = some V := by
  obtain ⟨opn, cls, a, hbrackets, rfl, ha⟩ := container_neutral hV hopen
  have hcolon : ':' ∉ mid := fun hmem => absurd (hmid ':' hmem) (by decide)
  have hspace : ∀ c ∈ (opn :: a ++ [cls] ++ rest).head?, isSpace c = false := by
    rintro c ⟨⟩
    cases hbrackets <;> rfl
  have hseek : seekValue body field = some (opn :: a ++ [cls] ++ rest) :=
    seekValue_place hbody hfirst hcolon hgap hspace
  have htoken : tokenAt (opn :: a ++ [cls] ++ rest) = some (opn :: a ++ [cls]) := by
    have hassoc : opn :: a ++ [cls] ++ rest = opn :: a ++ cls :: rest := by simp
    rw [hassoc]
    exact tokenAt_passes hbrackets (ha _ _ hbrackets) rest
  refine ⟨(extractJsonValueToken_seek hseek).trans htoken, ?_⟩
  intro opn' cls' hbrackets' hhead
  have hscan : scanBracket opn' cls' (opn :: a ++ [cls] ++ rest) 0 false false = some (opn :: a ++ [cls]) := by
    cases hhead
    cases hbrackets <;> cases hbrackets' <;> simpa [tokenAt] using htoken
  exact scanBracketInt_eq hscan (by omega) (by omega)

/-- An array with an object in it, and in that a string with brackets, a quote and a backslash. -/
def nestedArray : Str := "[ \x7b\"b\":\"]\\\"\x7d\\\\\"\x7d , [] ]"

theorem parses_nestedArray : Parses .value nestedArray [] := by
  have hname : readChars "b\":\"]\\\"\x7d\\\\\"\x7d , [] ]" =
      some (':' :: "\"]\\\"\x7d\\\\\"\x7d , [] ]") := by
    decide +kernel
  have hstring : readChars "]\\\"\x7d\\\\\"\x7d , [] ]" = some ('}' :: " , [] ]") := by
    decide +kernel
  have hmember : Parses .members ('"' :: "b\":\"]\\\"\x7d\\\\\"\x7d , [] ]") " , [] ]" :=
    .lastMember hname rfl (.string hstring) rfl
  have hcomma : skipWhite " , [] ]" = ',' :: " [] ]" := by decide +kernel
  have hclose : skipWhite " ]" = [']'] := by decide +kernel
  have hempty : Parses .items "[] ]" [] := .lastItem (.emptyArray rfl) hclose
  exact .array (.item (.object hmember) hcomma hempty)

theorem extractJsonValueToken_container_sample :
    extractJsonValueToken ("\x7b\"tags\" : " ++ nestedArray ++ ",\"z\":\"]\"\x7d") "tags" =
      some nestedArray := by
  have hcut : cut (quoted "tags")
      ("\x7b\"tags\" : " ++ nestedArray ++ ",\"z\":\"]\"\x7d") =
        some (['{'], " : " ++ nestedArray ++ ",\"z\":\"]\"\x7d") := by
    decide +kernel
  exact (extractJsonValueToken_container _ _ ['{'] [' '] [' '] nestedArray ",\"z\":\"]\"\x7d" rfl
    (cut_least hcut) (by simp [Blank]; decide) (by simp [Blank]; decide) parses_nestedArray (.inl rfl) (by decide)).1

end UrlShortener

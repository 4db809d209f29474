import UrlShortener.Proof.Extractors
import UrlShortener.Sql.Groups
import UrlShortener.Text.Case

/-!
# String literals, arrays of strings and flat objects

What the loops of the extractors accept, described without them. The loops keep the character behind a backslash
as it is, whatever escape was meant.

* `readString_contents`: the string loop reads the contents of a literal up to the quote that closes it.
* `readItems_iff`: the item loop accepts strings with commas between them. It also accepts a comma behind the
  last string, and a last string that is not closed.
* `matchPairs_iff`: the pair loop accepts any mixture of `"key":"value"` pairs with blanks, braces and commas.
-/

namespace UrlShortener

open Text Json

/-! ## The contents of a literal -/

/-- What stands between the quotes of a literal, and what the loops read there. -/
inductive Contents : Str → Str → Prop
  | nil : Contents [] []
  | plain {c : Char} {s v : Str} : c ≠ '\\' → c ≠ '"' → Contents s v → Contents (c :: s) (c :: v)
  | escape {c : Char} {s v : Str} : Contents s v → Contents ('\\' :: c :: s) (c :: v)

/-- Contents that are cut off, possibly behind a backslash. -/
inductive Torn : Str → Str → Prop
  | whole {s v : Str} : Contents s v → Torn s v
  | backslash {s v : Str} : Contents s v → Torn (s ++ ['\\']) v

theorem Torn.plain {c : Char} {s v : Str} (hb : c ≠ '\\') (hq : c ≠ '"') (h : Torn s v) :
    Torn (c :: s) (c :: v) := by
  cases h with
  | whole h => exact .whole (.plain hb hq h)
  | backslash h => exact .backslash (.plain hb hq h)

theorem Torn.escape {c : Char} {s v : Str} (h : Torn s v) : Torn ('\\' :: c :: s) (c :: v) := by
  cases h with
  | whole h => exact .whole (.escape h)
  | backslash h => exact .backslash (.escape h)

theorem readString_contents {s v : Str} (h : Contents s v) (t : Str) :
    readString (s ++ '"' :: t) false = some v := by
  induction h with
  | nil => simp [readString]
  | plain hb hq _ ih => simp [readString, hb, hq, ih]
  | escape _ ih => simp [readString, ih]

/-! ## Scanning over literals -/

variable {opn cls : Char}

theorem scanBracket_contents {s v : Str} (h : Contents s v) (depth : Int) (t : Str) :
    scanBracket opn cls (s ++ '"' :: t) depth true false =
      (scanBracket opn cls t depth false false).map (s ++ '"' :: ·) := by
  induction h with
  | nil => simp [scanBracket]
  | plain hb hq _ ih =>
    simp only [List.cons_append, scanBracket, if_neg hb, if_neg hq, ih, if_true, Bool.false_eq_true, if_false,
      Option.map_map]
    rfl
  | escape _ ih =>
    simp only [List.cons_append, scanBracket, ih, if_true, Bool.false_eq_true, if_false, Option.map_map]
    rfl

/-- Brackets in a literal do not count. -/
theorem Passes.literal {s v : Str} (h : Contents s v) : Passes opn cls ('"' :: s ++ ['"']) := by
  intro n t
  have hs : scanBracket opn cls (s ++ '"' :: t) (n + 1) true false = _ := scanBracket_contents h (n + 1) t
  simp only [List.cons_append, List.append_assoc, List.nil_append, scanBracket, if_true, Bool.false_eq_true,
    if_false, hs, Option.map_map]
  rfl

/-! ## Arrays of strings -/

/-- Every character is white space. -/
def Blank (w : Str) : Prop := ∀ c ∈ w, isSpace c = true

theorem isDigit_of_isSpace {c : Char} (hspace : isSpace c = true) : c.isDigit = false := by
  by_contra hdigit
  simp only [isSpace, Bool.or_eq_true, beq_iff_eq, Bool.and_eq_true, decide_eq_true_eq] at hspace
  rw [Bool.not_eq_false, isDigit_iff] at hdigit
  rcases hspace with rfl | ⟨-, hhigh⟩
  · revert hdigit
    decide
  · omega

theorem blank_takeWhile (s : Str) : Blank (s.takeWhile isSpace) := fun _ hc => List.mem_takeWhile_imp hc

theorem Blank.dropWhile {w : Str} (h : Blank w) : w.dropWhile isSpace = [] :=
  List.dropWhile_eq_nil_iff.2 h

/-- Blanks in front are skipped. -/
theorem Blank.dropWhile_append {w s : Str} (h : Blank w) {c : Char} (hc : isSpace c = false) :
    (w ++ c :: s).dropWhile isSpace = c :: s := by
  rw [List.dropWhile_append_of_pos h, List.dropWhile_cons_of_neg (by simp [hc])]

theorem blank_of_dropWhile {s t : Str} {c : Char} (h : s.dropWhile isSpace = c :: t) :
    ∃ w, Blank w ∧ s = w ++ c :: t := by
  refine ⟨s.takeWhile isSpace, blank_takeWhile s, ?_⟩
  rw [← h, List.takeWhile_append_dropWhile]

/-- Blanks, and the text from the first character that is none. -/
theorem blank_cases (s : Str) :
    Blank s ∧ s.dropWhile isSpace = [] ∨
      ∃ w c t, Blank w ∧ isSpace c = false ∧ s = w ++ c :: t ∧ s.dropWhile isSpace = c :: t := by
  cases hd : s.dropWhile isSpace with
  | nil => exact .inl ⟨List.dropWhile_eq_nil_iff.1 hd, rfl⟩
  | cons c t =>
    have hne : s.dropWhile isSpace ≠ [] := by simp [hd]
    have hhead := List.head_dropWhile_not isSpace hne
    simp only [hd, List.head_cons] at hhead
    obtain ⟨w, hw, hs⟩ := blank_of_dropWhile hd
    exact .inr ⟨w, c, t, hw, hhead, hs, rfl⟩

/-- **The text between the brackets of an array** and its strings, as the item loop reads them. -/
inductive Items : Str → List Str → Prop
  | blank {w : Str} : Blank w → Items w []
  | torn {w s v : Str} : Blank w → Torn s v → Items (w ++ '"' :: s) [v]
  | last {w s v w' : Str} : Blank w → Contents s v → Blank w' → Items (w ++ '"' :: (s ++ '"' :: w')) [v]
  | more {w s v w' t : Str} {vs : List Str} : Blank w → Contents s v → Blank w' → Items t vs →
    Items (w ++ '"' :: (s ++ '"' :: (w' ++ ',' :: t))) (v :: vs)

/-- The contents of a string are read before what follows them. -/
theorem readItem_append {s v : Str} (h : Contents s v) (t : Str) :
    readItem (s ++ t) false = (v ++ (readItem t false).1, (readItem t false).2) := by
  induction h with
  | nil => rfl
  | plain hb hq _ ih => simp [readItem, hb, hq, ih]
  | escape _ ih => simp [readItem, ih]

theorem readItem_contents {s v : Str} (h : Contents s v) (t : Str) : readItem (s ++ '"' :: t) false = (v, t) := by
  rw [readItem_append h]
  exact Prod.ext (List.append_nil v) rfl

theorem readItem_torn {s v : Str} (h : Torn s v) : readItem s false = (v, []) := by
  cases h with
  | whole h =>
    have hread := readItem_append h []
    rw [List.append_nil] at hread
    exact hread.trans (Prod.ext (List.append_nil v) rfl)
  | backslash h =>
    rw [readItem_append h]
    exact Prod.ext (List.append_nil v) rfl

/-- **One string of an array**: closed, or cut off by the end. -/
theorem readItem_cases : ∀ s : Str,
    (∃ q v r, Contents q v ∧ s = q ++ '"' :: r ∧ readItem s false = (v, r)) ∨
      ∃ v, Torn s v ∧ readItem s false = (v, [])
  | [] => .inr ⟨[], .whole .nil, rfl⟩
  | [c] => by
    by_cases hb : c = '\\'
    · subst hb
      exact .inr ⟨[], .backslash .nil, rfl⟩
    · by_cases hq : c = '"'
      · exact .inl ⟨[], [], [], .nil, by simp [hq], by simp [readItem, hq]⟩
      · exact .inr ⟨[c], .whole (.plain hb hq .nil), by simp [readItem, hb, hq]⟩
  | c :: d :: s => by
    by_cases hb : c = '\\'
    · -- the character behind a backslash is kept
      subst hb
      rcases readItem_cases s with ⟨q, v, r, hq, rfl, hread⟩ | ⟨v, hv, hread⟩
      · exact .inl ⟨'\\' :: d :: q, d :: v, r, .escape hq, rfl, by simp [readItem, hread]⟩
      · exact .inr ⟨d :: v, hv.escape, by simp [readItem, hread]⟩
    · by_cases hq : c = '"'
      · exact .inl ⟨[], [], d :: s, .nil, by simp [hq], by simp [readItem, hq]⟩
      · rcases readItem_cases (d :: s) with ⟨q, v, r, hcont, hs, hread⟩ | ⟨v, hv, hread⟩
        · exact .inl ⟨c :: q, c :: v, r, .plain hb hq hcont, by simp [hs],
            by rw [readItem, if_neg hb, if_neg hq, hread]⟩
        · exact .inr ⟨c :: v, hv.plain hb hq, by rw [readItem, if_neg hb, if_neg hq, hread]⟩

theorem items_of_readItems {fuel : ℕ} {s : Str} {out l : List Str} (h : readItems fuel s out = some l) :
    ∃ vs, Items s vs ∧ l = out ++ vs := by
  induction fuel generalizing s out with
  | zero => cases h
  | succ fuel ih =>
    rcases blank_cases s with ⟨hs, hd⟩ | ⟨w, c, t, hw, -, rfl, hd⟩
    · rw [readItems, hd] at h
      cases h
      exact ⟨[], .blank hs, (List.append_nil _).symm⟩
    · rw [readItems, hd] at h
      simp only at h
      split at h
      · cases h
      rename_i hc
      obtain rfl : c = '"' := not_not.1 hc
      rcases readItem_cases t with ⟨q, v, r, hq, rfl, hread⟩ | ⟨v, hv, hread⟩
      · simp only [hread] at h
        -- behind a closed string comes the end or a comma
        rcases blank_cases r with ⟨hr, hd'⟩ | ⟨w', d, t', hw', -, rfl, hd'⟩
        · rw [hd'] at h
          cases h
          exact ⟨[v], .last hw hq hr, rfl⟩
        · rw [hd'] at h
          simp only at h
          split at h
          · cases h
          rename_i hcomma
          obtain rfl : d = ',' := not_not.1 hcomma
          obtain ⟨vs, hvs, rfl⟩ := ih h
          exact ⟨v :: vs, .more hw hq hw' hvs, by simp⟩
      · -- the end has cut the string off, and what was read of it counts
        simp only [hread] at h
        cases h
        exact ⟨[v], .torn hw hv, rfl⟩

theorem readItems_of_items {s : Str} {vs : List Str} (h : Items s vs) (fuel : ℕ) (hfuel : s.length < fuel)
    (out : List Str) : readItems fuel s out = some (out ++ vs) := by
  induction h generalizing fuel out with
  | blank hw =>
    obtain ⟨fuel, rfl⟩ := Nat.exists_eq_add_one_of_ne_zero (Nat.ne_zero_of_lt hfuel)
    simp [readItems, hw.dropWhile]
  | torn hw hs =>
    obtain ⟨fuel, rfl⟩ := Nat.exists_eq_add_one_of_ne_zero (Nat.ne_zero_of_lt hfuel)
    simp [readItems, hw.dropWhile_append (c := '"') rfl, readItem_torn hs]
  | last hw hs hw' =>
    obtain ⟨fuel, rfl⟩ := Nat.exists_eq_add_one_of_ne_zero (Nat.ne_zero_of_lt hfuel)
    simp [readItems, hw.dropWhile_append (c := '"') rfl, readItem_contents hs, hw'.dropWhile]
  | @more w s v w' t vs hw hs hw' _ ih =>
    obtain ⟨fuel, rfl⟩ := Nat.exists_eq_add_one_of_ne_zero (Nat.ne_zero_of_lt hfuel)
    simp only [List.length_append, List.length_cons] at hfuel
    -- an item takes one character at least, so the fuel suffices for the rest
    have hrest := ih fuel (by omega) (out ++ [v])
    simp [readItems, hw.dropWhile_append (c := '"') rfl, readItem_contents hs,
      hw'.dropWhile_append (c := ',') rfl, hrest]

/-- **What the item loop accepts**, and what it returns. -/
theorem readItems_iff {fuel : ℕ} {s : Str} (hfuel : s.length < fuel) {l : List Str} :
    readItems fuel s [] = some l ↔ Items s l := by
  constructor
  · intro h
    obtain ⟨vs, hvs, rfl⟩ := items_of_readItems h
    exact hvs
  · intro h
    exact readItems_of_items h fuel hfuel []

/-! ## Flat objects -/

/-- The characters that may stand outside of the pairs. -/
def isFiller (c : Char) : Bool := isSpace c || c == '{' || c == '}' || c == ','

/-- **A text of pairs and fillers**, with its pairs. -/
inductive Pairs : Str → List (Str × Str) → Prop
  | nil : Pairs [] []
  | filler {c : Char} {s : Str} {ps : List (Str × Str)} : isFiller c = true → Pairs s ps → Pairs (c :: s) ps
  | pair {k w w' v s : Str} {ps : List (Str × Str)} : k ≠ [] → '"' ∉ k → Blank w → Blank w' → '"' ∉ v →
    Pairs s ps → Pairs (quoted k ++ (w ++ ':' :: (w' ++ (quoted v ++ s)))) ((k, v) :: ps)

theorem matchPair_pair {k w w' v : Str} (hne : k ≠ []) (hk : '"' ∉ k) (hw : Blank w) (hw' : Blank w') (hv : '"' ∉ v)
    (s : Str) : matchPair (quoted k ++ (w ++ ':' :: (w' ++ (quoted v ++ s)))) = some (k, v, s) := by
  obtain ⟨c, k, rfl⟩ := List.exists_cons_of_ne_nil hne
  have hkey : cut ['"'] (c :: k ++ '"' :: (w ++ ':' :: (w' ++ '"' :: (v ++ '"' :: s)))) = _ := cut_singleton hk
  have hvalue : cut ['"'] (v ++ '"' :: s) = _ := cut_singleton hv
  simp only [List.cons_append] at hkey
  simp [matchPair, quoted, hkey, hvalue, hw.dropWhile_append (c := ':') rfl, hw'.dropWhile_append (c := '"') rfl]

theorem matchPair_some {s k v r : Str} (h : matchPair s = some (k, v, r)) :
    ∃ w w', k ≠ [] ∧ '"' ∉ k ∧ Blank w ∧ Blank w' ∧ '"' ∉ v ∧
      s = quoted k ++ (w ++ ':' :: (w' ++ (quoted v ++ r))) := by
  unfold matchPair at h
  split at h
  case h_2 => cases h
  rename_i t
  split at h
  case h_2 => cases h
  rename_i c key rest hkey
  split at h
  case h_2 => cases h
  rename_i rest' hcolon
  split at h
  case h_2 => cases h
  rename_i rest'' hquote
  -- the parts of the expression, put together again
  obtain ⟨⟨a, b⟩, hvalue, heq⟩ := Option.map_eq_some_iff.1 h
  obtain ⟨rfl, rfl, rfl⟩ : c :: key = k ∧ a = v ∧ b = r := by simpa using heq
  obtain ⟨w, hw, hrest⟩ := blank_of_dropWhile hcolon
  obtain ⟨w', hw', hrest'⟩ := blank_of_dropWhile hquote
  refine ⟨w, w', by simp, cut_singleton_not_mem hkey, hw, hw', cut_singleton_not_mem hvalue, ?_⟩
  rw [cut_eq hkey, hrest, hrest', cut_eq hvalue]
  simp [quoted]

theorem matchPair_filler {c : Char} (hc : isFiller c = true) (s : Str) : matchPair (c :: s) = none := by
  have hne : c ≠ '"' := by
    rintro rfl
    cases hc
  unfold matchPair
  split
  · rename_i heq
    exact absurd (List.cons.inj heq).1 hne
  · rfl

theorem matchPairs_of_pairs {s : Str} {ps : List (Str × Str)} (h : Pairs s ps) {fuel : ℕ} (hfuel : s.length < fuel) :
    (matchPairs fuel s).1 = ps ∧ (matchPairs fuel s).2.all isFiller = true := by
  induction h generalizing fuel with
  | nil =>
    obtain ⟨fuel, rfl⟩ := Nat.exists_eq_add_one_of_ne_zero (Nat.ne_zero_of_lt hfuel)
    exact ⟨rfl, rfl⟩
  | filler hc _ ih =>
    obtain ⟨fuel, rfl⟩ := Nat.exists_eq_add_one_of_ne_zero (Nat.ne_zero_of_lt hfuel)
    obtain ⟨hpairs, hleft⟩ := ih (Nat.lt_of_succ_lt_succ hfuel)
    simp [matchPairs, matchPair_filler hc, hpairs, hc, hleft]
  | @pair k w w' v s ps hne hk hw hw' hv _ ih =>
    obtain ⟨fuel, rfl⟩ := Nat.exists_eq_add_one_of_ne_zero (Nat.ne_zero_of_lt hfuel)
    have hmatch := matchPair_pair hne hk hw hw' hv s
    simp only [quoted, List.length_append, List.length_cons] at hfuel
    have hlen : s.length < fuel := by omega
    obtain ⟨hpairs, hleft⟩ := ih hlen
    simp only [quoted, List.cons_append] at hmatch ⊢
    simp only [matchPairs, hmatch]
    exact ⟨by rw [hpairs], hleft⟩

theorem pairs_of_matchPairs {s : Str} {fuel : ℕ} (hfuel : s.length < fuel)
    (h : (matchPairs fuel s).2.all isFiller = true) : Pairs s (matchPairs fuel s).1 := by
  induction fuel generalizing s with
  | zero => simp at hfuel
  | succ fuel ih =>
    cases s with
    | nil => exact .nil
    | cons c s =>
      cases hmatch : matchPair (c :: s) with
      | none =>
        -- no pair begins here, so the character is left over and has to be a filler
        simp only [matchPairs, hmatch, List.all_cons, Bool.and_eq_true] at h ⊢
        exact .filler h.1 (ih (by simpa using hfuel) h.2)
      | some m =>
        obtain ⟨k, v, r⟩ := m
        obtain ⟨w, w', hne, hk, hw, hw', hv, hs⟩ := matchPair_some hmatch
        have hlen := congrArg List.length hs
        simp only [quoted, List.length_append, List.length_cons] at hlen hfuel
        simp only [matchPairs, hmatch] at h ⊢
        rw [hs]
        exact .pair hne hk hw hw' hv (ih (by omega) h)

/-- **What the pair loop accepts**, and the pairs it finds. -/
theorem matchPairs_iff {s : Str} {fuel : ℕ} (hfuel : s.length < fuel) {ps : List (Str × Str)} :
    (matchPairs fuel s).1 = ps ∧ (matchPairs fuel s).2.all isFiller = true ↔ Pairs s ps := by
  constructor
  · rintro ⟨rfl, hleft⟩
    exact pairs_of_matchPairs hfuel hleft
  · intro h
    exact matchPairs_of_pairs h hfuel

/-! ## The extractors -/

/-- The first and the last character of a token. -/
theorem enclosed_iff {opn cls : Char} {raw : Str} :
    ¬(raw.length < 2 ∨ raw.head? ≠ some opn ∨ raw.getLast? ≠ some cls) ↔ ∃ t, raw = opn :: t ++ [cls] := by
  constructor
  · intro h
    simp only [not_or, not_lt, not_not] at h
    obtain ⟨hlen, hhead, hlast⟩ := h
    cases raw with
    | nil => cases hhead
    | cons c t =>
      cases hhead
      obtain ⟨t, d, rfl⟩ : ∃ t' d, t = t' ++ [d] := by
        rcases List.eq_nil_or_concat t with rfl | ⟨t', d, rfl⟩
        · simp at hlen
        · exact ⟨t', d, by simp⟩
      rw [← List.cons_append, List.getLast?_concat] at hlast
      cases hlast
      exact ⟨t, rfl⟩
  · rintro ⟨t, rfl⟩
    have hlast : (opn :: t ++ [cls]).getLast? = some cls := List.getLast?_concat
    rw [hlast]
    simp

theorem between_enclosed (opn cls : Char) (t : Str) : between (opn :: t ++ [cls]) = t := by
  simp [between]

/-- What both extractors do with a token: `null` has a value of its own, and other tokens are looked into if they
have the right first and last characters. -/
theorem token_cases {α : Type} {opn cls : Char} (hopn : opn ≠ 'n') {raw : Str} {a l : α} {o : Option α} :
    (if raw = "null" then some a
      else if raw.length < 2 ∨ raw.head? ≠ some opn ∨ raw.getLast? ≠ some cls then none else o) = some l ↔
      raw = "null" ∧ a = l ∨ (∃ t, raw = opn :: t ++ [cls]) ∧ o = some l := by
  by_cases hnull : raw = "null"
  · have hother : ¬∃ t, raw = opn :: t ++ [cls] := by
      rintro ⟨t, ht⟩
      rw [hnull] at ht
      exact hopn (List.cons.inj ht).1.symm
    rw [if_pos hnull]
    simp only [hnull, true_and, hnull ▸ hother, false_and, or_false, Option.some.injEq]
  · rw [if_neg hnull]
    by_cases henc : ∃ t, raw = opn :: t ++ [cls]
    · simp only [if_neg (enclosed_iff.2 henc), hnull, henc, false_and, true_and, false_or]
    · rw [if_pos (not_not.1 fun h => henc (enclosed_iff.1 h))]
      simp only [hnull, henc, false_and, or_self, reduceCtorEq]

/-- A token that is read as an array of strings. -/
def ArrayToken (raw : Str) (vs : List Str) : Prop :=
  raw = "null" ∧ vs = [] ∨ ∃ t, raw = '[' :: t ++ [']'] ∧ Items t vs

/-- A token that is read as a flat object, and its pairs. -/
def ObjectToken (raw : Str) (ps : List (Str × Str)) : Prop :=
  raw = "null" ∧ ps = [] ∨ ∃ t, raw = '{' :: t ++ ['}'] ∧ Pairs raw ps

variable {body field : Str}

/-- **The array extractor** looks at the token only. -/
theorem extractJsonStringArrayField_iff {vs : List Str} :
    extractJsonStringArrayField body field = some vs ↔
      ∃ raw, extractJsonValueToken body field = some raw ∧ ArrayToken raw vs := by
  unfold extractJsonStringArrayField
  cases extractJsonValueToken body field with
  | none => simp
  | some raw =>
    simp only [Option.some.injEq, exists_eq_left', ArrayToken]
    rw [token_cases (by decide)]
    refine or_congr (and_congr_right fun _ => eq_comm) ?_
    constructor
    · rintro ⟨⟨t, rfl⟩, h⟩
      rw [between_enclosed, readItems_iff (Nat.lt_succ_self _)] at h
      exact ⟨t, rfl, h⟩
    · rintro ⟨t, rfl, h⟩
      rw [between_enclosed, readItems_iff (Nat.lt_succ_self _)]
      exact ⟨⟨t, rfl⟩, h⟩

/-- **The object extractor** looks at the token only. -/
theorem extractJsonFlatObjectStringField_iff {m : UnorderedMap Str Str} :
    extractJsonFlatObjectStringField body field = some m ↔
      ∃ raw ps, extractJsonValueToken body field = some raw ∧ ObjectToken raw ps ∧ Sql.toMap ps = m := by
  unfold extractJsonFlatObjectStringField
  cases extractJsonValueToken body field with
  | none => simp
  | some raw =>
    have hlen : raw.length < raw.length + 1 := Nat.lt_succ_self _
    simp only [Option.some.injEq, exists_and_left, exists_eq_left', ObjectToken]
    rw [token_cases (by decide)]
    constructor
    · rintro (⟨rfl, rfl⟩ | ⟨ht, h⟩)
      · exact ⟨[], .inl ⟨rfl, rfl⟩, rfl⟩
      · split at h
        · rename_i hleft
          cases h
          obtain ⟨t, ht⟩ := ht
          exact ⟨_, .inr ⟨t, ht, (matchPairs_iff hlen).1 ⟨rfl, hleft⟩⟩, rfl⟩
        · cases h
    · rintro ⟨ps, ⟨rfl, rfl⟩ | ⟨t, ht, h⟩, rfl⟩
      · exact .inl ⟨rfl, rfl⟩
      · obtain ⟨hpairs, hleft⟩ := (matchPairs_iff hlen).2 h
        refine .inr ⟨⟨t, ht⟩, ?_⟩
        simp only [← hpairs]
        exact if_pos hleft

end UrlShortener

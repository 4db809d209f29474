import UrlShortener.Proof.Numerals
import UrlShortener.Spec.StateAssert

/-!
# The JSON text of a value

`json.dumps` writes values that are not the same as texts that are not the same, so that rows with one text are one
row.

* `quoteAscii_append_inj`: a string is read off its text, whatever follows.
* `dumps_append_inj`: **so is a value**, if what follows does not go on with a number or a name.
-/

namespace UrlShortener.StateAssert

variable {F : Type} {py : Python F} {r r' : Str}

/-! ## Strings -/

theorem digitChar_inj_all : ∀ a < 16, ∀ b < 16, Nat.digitChar a = Nat.digitChar b → a = b := by decide +kernel

theorem hex4_inj {m n : ℕ} (hm : m < 65536) (hn : n < 65536) (h : hex4 m = hex4 n) : m = n := by
  simp only [hex4, List.cons.injEq, and_true] at h
  obtain ⟨h₁, h₂, h₃, h₄⟩ := h
  have d₁ := digitChar_inj_all _ (by omega) _ (by omega) h₁
  have d₂ := digitChar_inj_all _ (by omega) _ (by omega) h₂
  have d₃ := digitChar_inj_all _ (by omega) _ (by omega) h₃
  have d₄ := digitChar_inj_all _ (by omega) _ (by omega) h₄
  omega

/-- The character that a letter behind a backslash stands for. -/
def longForm (l : Char) : Char :=
  if l = 'n' then '\n' else if l = 'r' then '\r' else if l = 't' then '\t'
  else if l = 'f' then Char.ofNat 12 else if l = 'b' then Char.ofNat 8 else l

/-- **How a character is written.** -/
inductive Escaped : Char → Str → Prop
  | plain {c : Char} : c ≠ '"' → c ≠ '\\' → Escaped c [c]
  | short {l : Char} : l ≠ 'u' → Escaped (longForm l) ['\\', l]
  | unit {c : Char} : c.toNat < 65536 → Escaped c ('\\' :: 'u' :: hex4 c.toNat)
  | pair {c : Char} : 65536 ≤ c.toNat → Escaped c ('\\' :: 'u' :: hex4 (55296 + (c.toNat - 65536) / 1024) ++
      '\\' :: 'u' :: hex4 (56320 + (c.toNat - 65536) % 1024))

theorem eq_ofNat {c : Char} {n : ℕ} (h : c.toNat = n) : c = Char.ofNat n := by
  rw [← h, Char.ofNat_toNat]

theorem escaped_escapeAscii (c : Char) : Escaped c (escapeAscii c) := by
  have hshort : ∀ l : Char, l ≠ 'u' → c = longForm l → Escaped c ['\\', l] := by
    rintro l hl rfl
    exact .short hl
  unfold escapeAscii
  split_ifs with h₁ h₂ h₃ h₄ h₅ h₆ h₇ h₈ h₉
  · exact hshort '"' (by decide) h₁
  · exact hshort '\\' (by decide) h₂
  · exact hshort 'n' (by decide) h₃
  · exact hshort 'r' (by decide) h₄
  · exact hshort 't' (by decide) h₅
  · exact hshort 'f' (by decide) (eq_ofNat h₆)
  · exact hshort 'b' (by decide) (eq_ofNat h₇)
  · exact .plain h₁ h₂
  · exact .unit h₉
  · exact .pair (by omega)

theorem not_surrogate (c : Char) : c.toNat < 55296 ∨ 57343 < c.toNat := by
  rcases c.valid with h | h
  · exact .inl h
  · exact .inr h.1

theorem toNat_lt (c : Char) : c.toNat < 1114112 := by
  rcases c.valid with h | h
  · exact Nat.lt_trans h (by decide)
  · exact h.2

theorem Escaped.inj {c d : Char} {a b x y : Str} (ha : Escaped c a) (hb : Escaped d b) (h : a ++ x = b ++ y) :
    c = d ∧ x = y := by
  have hc := not_surrogate c
  have hd := not_surrogate d
  have hcHigh := toNat_lt c
  have hdHigh := toNat_lt d
  have hunits : ∀ {m n : ℕ} {x y : Str}, m < 65536 → n < 65536 → hex4 m ++ x = hex4 n ++ y → m = n ∧ x = y := by
    intro m n x y hm hn h
    obtain ⟨hhex, hrest⟩ := List.append_inj h rfl
    exact ⟨hex4_inj hm hn hhex, hrest⟩
  cases ha with
  | plain hquote hback =>
    cases hb with
    | plain _ _ => exact List.cons.inj h
    | short _ => exact absurd (List.cons.inj h).1 hback
    | unit _ => exact absurd (List.cons.inj h).1 hback
    | pair _ => exact absurd (List.cons.inj h).1 hback
  | short hl =>
    cases hb with
    | plain _ hback => exact absurd (List.cons.inj h).1.symm hback
    | short _ =>
      obtain ⟨-, hrest⟩ := List.cons.inj h
      obtain ⟨rfl, hxy⟩ := List.cons.inj hrest
      exact ⟨rfl, hxy⟩
    | unit _ => exact absurd (List.cons.inj (List.cons.inj h).2).1 hl
    | pair _ => exact absurd (List.cons.inj (List.cons.inj h).2).1 hl
  | unit hsmall =>
    cases hb with
    | plain _ hback => exact absurd (List.cons.inj h).1.symm hback
    | short hl => exact absurd (List.cons.inj (List.cons.inj h).2).1.symm hl
    | unit hsmall' =>
      obtain ⟨hn, hxy⟩ := hunits hsmall hsmall' (List.cons.inj (List.cons.inj h).2).2
      exact ⟨Char.toNat_inj.1 hn, hxy⟩
    | pair hlarge =>
      -- the first unit of a pair is a surrogate, and a character is none
      rw [List.append_assoc] at h
      obtain ⟨hn, -⟩ := hunits hsmall (by omega) (List.cons.inj (List.cons.inj h).2).2
      omega
  | pair hlarge =>
    rw [List.append_assoc] at h
    cases hb with
    | plain _ hback => exact absurd (List.cons.inj h).1.symm hback
    | short hl => exact absurd (List.cons.inj (List.cons.inj h).2).1.symm hl
    | unit hsmall =>
      obtain ⟨hn, -⟩ := hunits (by omega) hsmall (List.cons.inj (List.cons.inj h).2).2
      omega
    | pair hlarge' =>
      rw [List.append_assoc] at h
      obtain ⟨hhigh, hrest⟩ := hunits (by omega) (by omega) (List.cons.inj (List.cons.inj h).2).2
      obtain ⟨hlow, hxy⟩ := hunits (by omega) (by omega) (List.cons.inj (List.cons.inj hrest).2).2
      exact ⟨Char.toNat_inj.1 (by omega), hxy⟩

/-- No character is written with a quote in front. -/
theorem Escaped.head {c : Char} {a : Str} (h : Escaped c a) : ∃ e t, a = e :: t ∧ e ≠ '"' := by
  cases h with
  | plain hquote _ => exact ⟨c, [], rfl, hquote⟩
  | short _ => exact ⟨'\\', _, rfl, by decide⟩
  | unit _ => exact ⟨'\\', _, rfl, by decide⟩
  | pair _ => exact ⟨'\\', _, rfl, by decide⟩

theorem flatMap_escapeAscii_inj {s t : Str}
    (h : s.flatMap escapeAscii ++ '"' :: r = t.flatMap escapeAscii ++ '"' :: r') : s = t ∧ r = r' := by
  induction s generalizing t with
  | nil =>
    cases t with
    | nil => exact ⟨rfl, (List.cons.inj h).2⟩
    | cons d t =>
      obtain ⟨e, u, hd, hquote⟩ := (escaped_escapeAscii d).head
      rw [List.flatMap_cons, hd] at h
      exact absurd (List.cons.inj h).1.symm hquote
  | cons c s ih =>
    cases t with
    | nil =>
      obtain ⟨e, u, hc, hquote⟩ := (escaped_escapeAscii c).head
      rw [List.flatMap_cons, hc] at h
      exact absurd (List.cons.inj h).1 hquote
    | cons d t =>
      rw [List.flatMap_cons, List.flatMap_cons, List.append_assoc, List.append_assoc] at h
      obtain ⟨rfl, hrest⟩ := (escaped_escapeAscii c).inj (escaped_escapeAscii d) h
      obtain ⟨rfl, hrr⟩ := ih hrest
      exact ⟨rfl, hrr⟩

/-- **A string is read off its text.** -/
theorem quoteAscii_append_inj {s t : Str} (h : quoteAscii s ++ r = quoteAscii t ++ r') : s = t ∧ r = r' := by
  have hs : ∀ (s r : Str), quoteAscii s ++ r = '"' :: (s.flatMap escapeAscii ++ '"' :: r) := by
    intro s r
    simp [quoteAscii]
  rw [hs, hs] at h
  exact flatMap_escapeAscii_inj (List.cons.inj h).2

/-! ## Atoms -/

/-- A character of a number or a name. -/
def isAtomChar (c : Char) : Bool := !",]\x7d\"[\x7b :".toList.contains c

/-- What follows does not go on with a number or a name. -/
def Ends (r : Str) : Prop := ∀ c ∈ r.head?, isAtomChar c = false

theorem takeWhile_atom {a : Str} (ha : ∀ c ∈ a, isAtomChar c = true) (hr : Ends r) :
    (a ++ r).takeWhile isAtomChar = a ∧ (a ++ r).dropWhile isAtomChar = r := by
  rw [List.takeWhile_append_of_pos ha, List.dropWhile_append_of_pos ha]
  cases r with
  | nil => simp
  | cons c r => simp [hr c rfl]

/-- Where an atom ends is determined. -/
theorem atom_append_inj {a b : Str} (ha : ∀ c ∈ a, isAtomChar c = true) (hb : ∀ c ∈ b, isAtomChar c = true)
    (hr : Ends r) (hr' : Ends r') (h : a ++ r = b ++ r') : a = b ∧ r = r' := by
  obtain ⟨hta, hda⟩ := takeWhile_atom ha hr
  obtain ⟨htb, hdb⟩ := takeWhile_atom hb hr'
  rw [h] at hta hda
  exact ⟨hta.symm.trans htb, hda.symm.trans hdb⟩

/-- `null`, `true` or `false`. -/
def isName : Value F → Bool
  | .none => true
  | .bool _ => true
  | _ => false

/-- A number. -/
def isNumber : Value F → Bool
  | .int _ => true
  | .float _ => true
  | _ => false

/-- A value that is no text and has no parts. -/
def isAtom (v : Value F) : Bool := isName v || isNumber v

/-- The characters of an integer. -/
theorem mem_int_text {n : ℤ} {c : Char} (h : c ∈ (toString n).toList) : c = '-' ∨ c.isDigit = true := by
  rw [toString_toList, List.mem_append] at h
  rcases h with h | h
  · split at h
    · exact .inl (List.mem_singleton.1 h)
    · cases h
  · exact .inr (decimal_isDigit h)

theorem int_text_injective {m n : ℤ} (h : (toString m).toList = (toString n).toList) : m = n := by
  have hdecimal : ∀ {k l : ℕ}, decimal k = decimal l → k = l := by
    intro k l hkl
    rw [← ofDigitChars_decimal k, hkl, ofDigitChars_decimal]
  -- only a negative number is written with a sign
  have hsign : ∀ k l : ℕ, '-' :: decimal k ≠ decimal l := by
    intro k l hkl
    have hmem : '-' ∈ decimal l := hkl ▸ List.mem_cons_self
    exact absurd (decimal_isDigit hmem) (by decide)
  rw [toString_toList, toString_toList] at h
  by_cases hm : m < 0 <;> by_cases hn : n < 0
  · rw [if_pos hm, if_pos hn] at h
    have := hdecimal (List.cons.inj h).2
    omega
  · rw [if_pos hm, if_neg hn] at h
    exact absurd h (hsign _ _)
  · rw [if_neg hm, if_pos hn] at h
    exact absurd h.symm (hsign _ _)
  · rw [if_neg hm, if_neg hn] at h
    have := hdecimal h
    omega

theorem name_text {v : Value F} (hv : isName v = true) :
    dumps py v = "null" ∨ dumps py v = "true" ∨ dumps py v = "false" := by
  cases v with
  | none => exact .inl rfl
  | bool b =>
    cases b with
    | false => exact .inr (.inr rfl)
    | true => exact .inr (.inl rfl)
  | _ => cases hv

/-- The characters of a name. -/
theorem name_chars {v : Value F} (hv : isName v = true) : ∀ c ∈ dumps py v, c ∈ "nultrefas".toList := by
  rcases name_text hv with h | h | h <;> rw [h] <;> exact List.forall_iff_forall_mem.1 (by decide +kernel)

/-- The characters of a number. -/
theorem number_chars {v : Value F} (hv : isNumber v = true) :
    ∀ c ∈ dumps py v, c.isDigit = true ∨ c ∈ "+-.eInfityNa".toList := by
  intro c hc
  cases v with
  | int n =>
    rcases mem_int_text hc with rfl | hdigit
    · exact .inr (by decide)
    · exact .inl hdigit
  | float x =>
    have hfloat : ∀ c ∈ "0123456789+-.eInfityNa".toList, c.isDigit = true ∨ c ∈ "+-.eInfityNa".toList :=
      List.forall_iff_forall_mem.1 (by decide +kernel)
    exact hfloat c (py.repr_chars x c hc)
  | _ => cases hv

/-- A class of characters that has none of those behind an atom. -/
theorem isAtomChar_of_class {p : Char → Bool} (hp : ",]\x7d\"[\x7b :".toList.any p = false) {c : Char}
    (h : p c = true) : isAtomChar c = true := by
  simp only [isAtomChar, Bool.not_eq_true', List.contains_eq_mem, decide_eq_false_iff_not]
  intro hmem
  exact List.any_eq_false.1 hp c hmem h

theorem atom_chars {v : Value F} (hv : isAtom v = true) : ∀ c ∈ dumps py v, isAtomChar c = true := by
  intro c hc
  rcases Bool.or_eq_true_iff.1 hv with hname | hnumber
  · exact isAtomChar_of_class (p := "nultrefas".toList.contains) rfl (List.contains_iff_mem.2 (name_chars hname c hc))
  · rcases number_chars hnumber c hc with hdigit | hletter
    · exact isAtomChar_of_class (p := Char.isDigit) rfl hdigit
    · exact isAtomChar_of_class (p := "+-.eInfityNa".toList.contains) rfl (List.contains_iff_mem.2 hletter)

theorem name_inj {v w : Value F} (hv : isName v = true) (hw : isName w = true) (h : dumps py v = dumps py w) :
    v = w := by
  cases v with
  | none =>
    cases w with
    | none => rfl
    | bool b => cases b <;> simp [dumps] at h
    | _ => cases hw
  | bool b =>
    cases w with
    | none => cases b <;> simp [dumps] at h
    | bool b' => cases b <;> cases b' <;> first | rfl | simp [dumps] at h
    | _ => cases hw
  | _ => cases hv

/-- Every name has a letter that is in no number. -/
theorem number_ne_name {v w : Value F} (hv : isNumber v = true) (hw : isName w = true) : dumps py v ≠ dumps py w := by
  have hletter : ∃ c ∈ dumps py w, ¬(c.isDigit = true ∨ c ∈ "+-.eInfityNa".toList) := by
    rcases name_text hw with h | h | h <;> rw [h]
    · exact ⟨'u', by decide, by decide⟩
    · exact ⟨'u', by decide, by decide⟩
    · exact ⟨'l', by decide, by decide⟩
  obtain ⟨c, hc, hnot⟩ := hletter
  intro h
  rw [← h] at hc
  exact hnot (number_chars hv c hc)

theorem repr_ne_int (x : F) (n : ℤ) : py.repr x ≠ (toString n).toList := by
  intro h
  obtain ⟨c, hc, hmark⟩ := py.repr_mark x
  rw [h] at hc
  have hnone : ∀ d ∈ ".eIN".toList, ¬(d = '-' ∨ d.isDigit = true) := List.forall_iff_forall_mem.1 (by decide +kernel)
  exact hnone c hmark (mem_int_text hc)

theorem number_inj {v w : Value F} (hv : isNumber v = true) (hw : isNumber w = true) (h : dumps py v = dumps py w) :
    v = w := by
  cases v with
  | int n =>
    cases w with
    | int n' => rw [int_text_injective h]
    | float x => exact absurd h.symm (repr_ne_int x n)
    | _ => cases hw
  | float x =>
    cases w with
    | int n => exact absurd h (repr_ne_int x n)
    | float x' => rw [py.repr_injective h]
    | _ => cases hw
  | _ => cases hv

theorem atom_inj {v w : Value F} (hv : isAtom v = true) (hw : isAtom w = true) (h : dumps py v = dumps py w) :
    v = w := by
  rcases Bool.or_eq_true_iff.1 hv with hv | hv <;> rcases Bool.or_eq_true_iff.1 hw with hw | hw
  · exact name_inj hv hw h
  · exact absurd h.symm (number_ne_name hw hv)
  · exact absurd h (number_ne_name hv hw)
  · exact number_inj hv hw h

/-! ## Values -/

/-- The character that a text of the kind begins with; atoms begin with a character of their own. -/
def Begins (v : Value F) (c : Char) : Prop :=
  match v with
  | .str _ => c = '"'
  | .list _ => c = '['
  | .dict _ => c = '{'
  | _ => isAtomChar c = true

theorem dumps_begins (py : Python F) (v : Value F) : ∃ c t, dumps py v = c :: t ∧ Begins v c := by
  have hatom : ∀ v : Value F, isAtom v = true → dumps py v ≠ [] → ∃ c t, dumps py v = c :: t ∧ isAtomChar c = true := by
    intro v hv hne
    obtain ⟨c, t, hct⟩ := List.exists_cons_of_ne_nil hne
    exact ⟨c, t, hct, atom_chars hv c (hct ▸ List.mem_cons_self)⟩
  cases v with
  | none => exact hatom .none rfl (by simp [dumps])
  | bool b => exact hatom (.bool b) rfl (by cases b <;> simp [dumps])
  | int n =>
    refine hatom (.int n) rfl ?_
    rw [dumps, toString_toList]
    simp [decimal_ne_nil]
  | float x =>
    refine hatom (.float x) rfl ?_
    obtain ⟨c, hc, -⟩ := py.repr_mark x
    exact List.ne_nil_of_mem hc
  | str s => exact ⟨'"', _, rfl, rfl⟩
  | list items =>
    cases items with
    | nil => exact ⟨'[', _, rfl, rfl⟩
    | cons v vs => exact ⟨'[', _, rfl, rfl⟩
  | dict items =>
    cases items with
    | nil => exact ⟨'{', _, rfl, rfl⟩
    | cons item items => exact ⟨'{', _, rfl, rfl⟩

/-- Two values with one text begin alike. -/
theorem begins_both {v w : Value F} (h : dumps py v ++ r = dumps py w ++ r') : ∃ c, Begins v c ∧ Begins w c := by
  obtain ⟨c, t, hv, hc⟩ := dumps_begins py v
  obtain ⟨d, u, hw, hd⟩ := dumps_begins py w
  rw [hv, hw] at h
  obtain ⟨rfl, -⟩ := List.cons.inj h
  exact ⟨c, hc, hd⟩

theorem ends_dumpsRest (vs : List (Value F)) (r : Str) : Ends (dumpsRest py vs ++ r) := by
  cases vs with
  | nil => rintro c ⟨⟩; rfl
  | cons v vs => rintro c ⟨⟩; rfl

theorem ends_dumpsItems (items : List (Str × Value F)) (r : Str) : Ends (dumpsItems py items ++ r) := by
  cases items with
  | nil => rintro c ⟨⟩; rfl
  | cons item items => rintro c ⟨⟩; rfl

theorem dumps_append_inj_atom {v w : Value F} (hv : isAtom v = true) (hr : Ends r) (hr' : Ends r')
    (h : dumps py v ++ r = dumps py w ++ r') : v = w ∧ r = r' := by
  obtain ⟨c, hc, hd⟩ := begins_both h
  have hatom : isAtomChar c = true := by
    cases v <;> first | exact hc | cases hv
  have hw : isAtom w = true := by
    cases w <;> first | rfl | (cases hd; cases hatom)
  obtain ⟨htext, hrr⟩ := atom_append_inj (atom_chars hv) (atom_chars hw) hr hr' h
  exact ⟨atom_inj hv hw htext, hrr⟩

/-- A value does not begin with a closing bracket. -/
theorem not_closed {v : Value F} (h : ']' :: r = dumps py v ++ r') : False := by
  obtain ⟨d, t, hd, hbegins⟩ := dumps_begins py v
  rw [hd] at h
  obtain ⟨rfl, -⟩ := List.cons.inj h
  cases v <;> cases hbegins

mutual

/-- **A value is read off its text**, if what follows does not go on with a number or a name. -/
theorem dumps_append_inj (py : Python F) : ∀ (v w : Value F) {r r' : Str}, Ends r → Ends r' →
    dumps py v ++ r = dumps py w ++ r' → v = w ∧ r = r'
  | .none, _, _, _, hr, hr', h => dumps_append_inj_atom rfl hr hr' h
  | .bool _, _, _, _, hr, hr', h => dumps_append_inj_atom rfl hr hr' h
  | .int _, _, _, _, hr, hr', h => dumps_append_inj_atom rfl hr hr' h
  | .float _, _, _, _, hr, hr', h => dumps_append_inj_atom rfl hr hr' h
  | .str s, w, r, r', hr, hr', h => by
    obtain ⟨c, rfl, hd⟩ := begins_both h
    cases w with
    | str t =>
      obtain ⟨rfl, hrr⟩ := quoteAscii_append_inj h
      exact ⟨rfl, hrr⟩
    | _ => cases hd
  | .list [], w, r, r', hr, hr', h => by
    obtain ⟨c, rfl, hd⟩ := begins_both h
    cases w with
    | list ws =>
      cases ws with
      | nil => exact ⟨rfl, List.append_cancel_left h⟩
      | cons w ws =>
        simp only [dumps, List.cons_append, List.append_assoc] at h
        have hclose : ']' :: r = dumps py w ++ (dumpsRest py ws ++ r') := (List.cons.inj h).2
        exact (not_closed hclose).elim
    | _ => cases hd
  | .list (v :: vs), w, r, r', hr, hr', h => by
    obtain ⟨c, rfl, hd⟩ := begins_both h
    cases w with
    | list ws =>
      cases ws with
      | nil =>
        simp only [dumps, List.cons_append, List.append_assoc] at h
        have hclose : ']' :: r' = dumps py v ++ (dumpsRest py vs ++ r) := (List.cons.inj h).2.symm
        exact (not_closed hclose).elim
      | cons w ws =>
        simp only [dumps, List.cons_append, List.append_assoc] at h
        obtain ⟨rfl, hrest⟩ := dumps_append_inj py v w (ends_dumpsRest vs r) (ends_dumpsRest ws r') (List.cons.inj h).2
        obtain ⟨rfl, hrr⟩ := dumpsRest_append_inj py vs ws hrest
        exact ⟨rfl, hrr⟩
    | _ => cases hd
  | .dict [], w, r, r', hr, hr', h => by
    obtain ⟨c, rfl, hd⟩ := begins_both h
    cases w with
    | dict ws =>
      cases ws with
      | nil => exact ⟨rfl, List.append_cancel_left h⟩
      | cons w ws => cases (List.cons.inj (List.cons.inj h).2).1
    | _ => cases hd
  | .dict ((k, v) :: items), w, r, r', hr, hr', h => by
    obtain ⟨c, rfl, hd⟩ := begins_both h
    cases w with
    | dict ws =>
      cases ws with
      | nil => cases (List.cons.inj (List.cons.inj h).2).1
      | cons w ws =>
        obtain ⟨k', w⟩ := w
        simp only [dumps, List.cons_append, List.append_assoc] at h
        obtain ⟨rfl, hvalue⟩ := quoteAscii_append_inj (List.cons.inj h).2
        obtain ⟨rfl, hrest⟩ := dumps_append_inj py v w (ends_dumpsItems items r) (ends_dumpsItems ws r')
          (List.cons.inj (List.cons.inj hvalue).2).2
        obtain ⟨rfl, hrr⟩ := dumpsItems_append_inj py items ws hrest
        exact ⟨rfl, hrr⟩
    | _ => cases hd

theorem dumpsRest_append_inj (py : Python F) : ∀ (vs ws : List (Value F)) {r r' : Str},
    dumpsRest py vs ++ r = dumpsRest py ws ++ r' → vs = ws ∧ r = r'
  | [], [], _, _, h => ⟨rfl, (List.cons.inj h).2⟩
  | [], _ :: _, _, _, h => by cases (List.cons.inj h).1
  | _ :: _, [], _, _, h => by cases (List.cons.inj h).1
  | v :: vs, w :: ws, r, r', h => by
    simp only [dumpsRest, List.cons_append, List.append_assoc] at h
    obtain ⟨rfl, hrest⟩ := dumps_append_inj py v w (ends_dumpsRest vs r) (ends_dumpsRest ws r')
      (List.cons.inj (List.cons.inj h).2).2
    obtain ⟨rfl, hrr⟩ := dumpsRest_append_inj py vs ws hrest
    exact ⟨rfl, hrr⟩

theorem dumpsItems_append_inj (py : Python F) : ∀ (items items' : List (Str × Value F)) {r r' : Str},
    dumpsItems py items ++ r = dumpsItems py items' ++ r' → items = items' ∧ r = r'
  | [], [], _, _, h => ⟨rfl, (List.cons.inj h).2⟩
  | [], _ :: _, _, _, h => by cases (List.cons.inj h).1
  | _ :: _, [], _, _, h => by cases (List.cons.inj h).1
  | (k, v) :: items, (k', w) :: items', r, r', h => by
    simp only [dumpsItems, List.cons_append, List.append_assoc] at h
    obtain ⟨rfl, hvalue⟩ := quoteAscii_append_inj (List.cons.inj (List.cons.inj h).2).2
    obtain ⟨rfl, hrest⟩ := dumps_append_inj py v w (ends_dumpsItems items r) (ends_dumpsItems items' r')
      (List.cons.inj (List.cons.inj hvalue).2).2
    obtain ⟨rfl, hrr⟩ := dumpsItems_append_inj py items items' hrest
    exact ⟨rfl, hrr⟩

end

theorem dumps_injective (py : Python F) : Function.Injective (dumps py) := by
  intro v w h
  have hnil : Ends ([] : Str) := by
    rintro c ⟨⟩
  exact (dumps_append_inj py v w hnil hnil (congrArg (· ++ []) h)).1

/-- **Rows with one text are one row.** -/
theorem Row.text_injective (py : Python F) : Function.Injective (Row.text py) := by
  intro row row' h
  cases row
  cases row'
  cases dumps_injective py h
  rfl

end UrlShortener.StateAssert

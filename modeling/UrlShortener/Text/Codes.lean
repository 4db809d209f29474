import UrlShortener.Text.Labels

/-!
# Printers that can be read back

A printer is a *code* before certain texts if, followed by one of them, what it printed and what follows are
determined. No parser is built: a code is what makes one possible.

* `Code.append_inj`: a printed value splits an equation between texts.
* `Code.many`, `Code.sepBy`, `Code.enclosed`, `Code.pair`, `Code.option`: codes from codes.
-/

namespace UrlShortener.Text

variable {κ α β : Type} {follow : List κ → Prop}

/-- **Followed by texts that satisfy `follow`, the printed value and the text after it are determined.** -/
def Code (follow : List κ → Prop) (f : α → List κ) : Prop :=
  ∀ ⦃a b : α⦄ ⦃r s : List κ⦄, follow r → follow s → f a ++ r = f b ++ s → a = b ∧ r = s

/-- Any text may follow. -/
def Anything (_ : List κ) : Prop := True

/-- The text begins with `c`. -/
def Begins (c : κ) (s : List κ) : Prop := s.head? = some c

/-- The text does not go on in the class `p`. -/
def Leaves (p : κ → Bool) (s : List κ) : Prop := ∀ c ∈ s.head?, p c = false

theorem Code.append_inj {f : α → List κ} (hf : Code follow f) {a b : α} {r s : List κ} (hr : follow r)
    (hs : follow s) (lit : List κ) : lit ++ (f a ++ r) = lit ++ (f b ++ s) ↔ a = b ∧ r = s := by
  rw [List.append_cancel_left_eq]
  constructor
  · intro h
    exact hf hr hs h
  · rintro ⟨rfl, rfl⟩
    rfl

/-- The same where a fixed word follows, which says where the value ends. -/
theorem Code.append_inj_before {f : α → List κ} (hf : Code follow f) {a b : α} {r s : List κ} (next : List κ)
    (hnext : ∀ r, follow (next ++ r)) (lit : List κ) :
    lit ++ (f a ++ (next ++ r)) = lit ++ (f b ++ (next ++ s)) ↔ a = b ∧ next ++ r = next ++ s :=
  hf.append_inj (hnext r) (hnext s) lit

theorem Code.comap {f : β → List κ} (hf : Code follow f) {g : α → β} (hg : Function.Injective g) :
    Code follow fun a => f (g a) := by
  intro a b r s hr hs h
  obtain ⟨hab, hrs⟩ := hf hr hs h
  exact ⟨hg hab, hrs⟩

/-- A text of one class ends where the class does. -/
theorem Code.ofClass {f : α → List κ} {p : κ → Bool} (hinj : Function.Injective f)
    (hclass : ∀ a, ∀ c ∈ f a, p c = true) : Code (Leaves p) f := by
  have htake : ∀ a r, Leaves p r → (f a ++ r).takeWhile p = f a := by
    intro a r hr
    rw [List.takeWhile_append_of_pos (hclass a)]
    cases r with
    | nil => simp
    | cons c r => rw [List.takeWhile_cons_of_neg (by simp [hr c rfl]), List.append_nil]
  intro a b r s hr hs h
  have hab : f a = f b := by rw [← htake a r hr, h, htake b s hs]
  rw [hab] at h
  exact ⟨hinj hab, List.append_cancel_left h⟩

/-- What follows a sequence is no further member of it. -/
theorem Begins.ne_append {close : κ} {r x : List κ} (hr : Begins close r) (hx : ∃ c t, x = c :: t ∧ c ≠ close)
    (rest : List κ) : r ≠ x ++ rest := by
  rintro rfl
  obtain ⟨c, t, rfl, hne⟩ := hx
  exact hne (Option.some.inj hr)

/-- **A sequence**, up to a character that begins none of its members. -/
theorem Code.many {e : α → List κ} (he : Code Anything e) {close : κ}
    (hopen : ∀ a, ∃ c t, e a = c :: t ∧ c ≠ close) : Code (Begins close) fun l : List α => l.flatMap e := by
  intro l
  induction l with
  | nil =>
    intro m r s hr hs h
    cases m with
    | nil => exact ⟨rfl, h⟩
    | cons b m =>
      simp only [List.flatMap_cons, List.append_assoc] at h
      exact absurd h (hr.ne_append (hopen b) _)
  | cons a l ih =>
    intro m r s hr hs h
    cases m with
    | nil =>
      simp only [List.flatMap_cons, List.append_assoc] at h
      exact absurd h.symm (hs.ne_append (hopen a) _)
    | cons b m =>
      simp only [List.flatMap_cons, List.append_assoc] at h
      obtain ⟨rfl, htail⟩ := he trivial trivial h
      obtain ⟨rfl, hrs⟩ := ih hr hs htail
      exact ⟨rfl, hrs⟩

theorem intercalate_map_cons (sep : κ) (f : α → List κ) (a : α) (l : List α) :
    [sep].intercalate ((a :: l).map f) = f a ++ l.flatMap fun b => sep :: f b := by
  induction l generalizing a with
  | nil => simp [List.intercalate]
  | cons b l ih =>
    rw [List.map_cons, List.map_cons, intercalate_cons_cons, ← List.map_cons, ih b, List.flatMap_cons]
    simp

/-- **A list with separators**, up to a character that begins none of its members. -/
theorem Code.sepBy {f : α → List κ} (hf : Code Anything f) {sep close : κ} (hsep : sep ≠ close)
    (hopen : ∀ a, ∃ c t, f a = c :: t ∧ c ≠ close) :
    Code (Begins close) fun l : List α => [sep].intercalate (l.map f) := by
  have htail : Code (Begins close) fun l : List α => l.flatMap fun b => sep :: f b := by
    refine Code.many (fun a b r s _ _ h => ?_) fun a => ⟨sep, f a, rfl, hsep⟩
    exact hf trivial trivial (List.cons.inj h).2
  intro l m r s hr hs h
  cases l with
  | nil =>
    cases m with
    | nil => exact ⟨rfl, h⟩
    | cons b m =>
      simp only [intercalate_map_cons, List.append_assoc] at h
      exact absurd h (hr.ne_append (hopen b) _)
  | cons a l =>
    cases m with
    | nil =>
      simp only [intercalate_map_cons, List.append_assoc] at h
      exact absurd h.symm (hs.ne_append (hopen a) _)
    | cons b m =>
      simp only [intercalate_map_cons, List.append_assoc] at h
      obtain ⟨rfl, h'⟩ := hf trivial trivial h
      obtain ⟨rfl, hrs⟩ := htail hr hs h'
      exact ⟨rfl, hrs⟩

/-- With its closing character, a text may be followed by anything. -/
theorem Code.enclosed {f : α → List κ} {close : κ} (hf : Code (Begins close) f) (opening : List κ) :
    Code Anything fun a => opening ++ f a ++ [close] := by
  intro a b r s _ _ h
  simp only [List.append_assoc, List.singleton_append] at h
  obtain ⟨hab, hrs⟩ := hf (r := close :: r) (s := close :: s) rfl rfl (List.append_cancel_left h)
  exact ⟨hab, (List.cons.inj hrs).2⟩

theorem Code.pair {f : α → List κ} {g : β → List κ} (hf : Code Anything f) (hg : Code follow g) (sep : List κ) :
    Code follow fun p : α × β => f p.1 ++ sep ++ g p.2 := by
  rintro ⟨a, b⟩ ⟨a', b'⟩ r s hr hs h
  simp only [List.append_assoc] at h
  obtain ⟨rfl, h'⟩ := hf trivial trivial h
  obtain ⟨rfl, hrs⟩ := hg hr hs (List.append_cancel_left h')
  exact ⟨rfl, hrs⟩

/-- A value or a word that begins otherwise. -/
theorem Code.option {f : α → List κ} (hf : Code follow f) {c : κ} {t : List κ}
    (hopen : ∀ a, ∃ d u, f a = d :: u ∧ d ≠ c) : Code follow fun o : Option α => o.elim (c :: t) f := by
  have hother : ∀ a r s, f a ++ r ≠ c :: t ++ s := by
    intro a r s h
    obtain ⟨d, u, hd, hne⟩ := hopen a
    rw [hd] at h
    exact hne (List.cons.inj h).1
  intro a b r s hr hs h
  cases a with
  | none =>
    cases b with
    | none => exact ⟨rfl, List.append_cancel_left h⟩
    | some b => exact absurd h.symm (hother b s r)
  | some a =>
    cases b with
    | none => exact absurd h (hother a r s)
    | some b =>
      obtain ⟨rfl, hrs⟩ := hf hr hs h
      exact ⟨rfl, hrs⟩

end UrlShortener.Text

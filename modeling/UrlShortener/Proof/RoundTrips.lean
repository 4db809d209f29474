import Mathlib.Algebra.Order.BigOperators.Group.List
import UrlShortener.Proof.Backends
import UrlShortener.Proof.Bodies
import UrlShortener.Proof.Collections
import UrlShortener.Proof.Validity
import UrlShortener.Proof.ViewJson

/-!
# Reading back what was written

A client that takes a part of a link's JSON text and sends it back in a body.

* `extractJsonStringField_jsonString_iff`: a string comes back exactly when neither it nor the field name holds a
  line feed, a carriage return or a tab; the reader turns their escapes into letters.
* `metadata_read_back_iff`: metadata come back exactly when no key or value holds an escaped character.
* `tags_read_back`: tags always come back, and are left alone by the validator.
-/

namespace UrlShortener

open Text Json
open Storage (mem_sortedItems sortedItems_keys_nodup foldl_insert_sortedItems)

/-! ## Bodies with one member -/

/-- The white space of an object with one member. -/
structure Frame where
  before : White := {}
  ws : White := {}
  mid : White := {}
  gap : White := {}
  after : White := {}
  last : White := {}

namespace Frame

/-- What stands behind the value. -/
def tail (F : Frame) : Str := F.after.text ++ '}' :: F.last.text

/-- **The body** with the name and the value as they are written. -/
def body (F : Frame) (name value : Str) : Str :=
  (F.before.text ++ '{' :: F.ws.text) ++ name ++ (F.mid.text ++ ':' :: (F.gap.text ++ (value ++ F.tail)))

/-- Behind the name, the first colon is that of the member. -/
theorem afterColon_member (F : Frame) {value : Str} (hne : value ≠ [])
    (hvalue : ∀ c ∈ value.head?, isSpace c = false) :
    afterColon (F.mid.text ++ ':' :: (F.gap.text ++ (value ++ F.tail))) = some (value ++ F.tail) := by
  have hcolon : ':' ∉ F.mid.text := F.mid.not_mem rfl
  have hgap : ∀ c ∈ F.gap.text, isSpace c = true := fun c hc => isSpace_of_isWhite (F.gap.isWhite_of_mem hc)
  have hrest : ∀ c ∈ (value ++ F.tail).head?, isSpace c = false := by
    rwa [List.head?_append_of_ne_nil _ hne]
  simp only [afterColon, cut_singleton hcolon, Option.map_some, dropWhile_isSpace_append hgap hrest]

/-- **The search lands at the value**, since the first quote of the body opens the name. -/
theorem seekValue_body (F : Frame) (field : Str) {value : Str} (hne : value ≠ [])
    (hvalue : ∀ c ∈ value.head?, isSpace c = false) :
    seekValue (F.body (quoted field) value) field = some (value ++ F.tail) := by
  have hfront : '"' ∉ F.before.text ++ '{' :: F.ws.text := by
    simp [F.before.not_mem (c := '"') rfl, F.ws.not_mem (c := '"') rfl]
  have hcut : cut (quoted field) (F.body (quoted field) value) = _ := cut_of_head_not_mem hfront
  simp only [seekValue, hcut, F.afterColon_member hne hvalue]

theorem extractJsonStringField_body (F : Frame) (field value : Str) :
    extractJsonStringField (F.body (quoted field) ('"' :: value)) field = readString (value ++ F.tail) false := by
  rw [extractJsonStringField_seek (F.seekValue_body field (List.cons_ne_nil _ _) (by rintro c ⟨⟩; rfl))]
  rfl

theorem extractJsonValueToken_body (F : Frame) (field : Str) {value : Str} (hne : value ≠ [])
    (hvalue : ∀ c ∈ value.head?, isSpace c = false) :
    extractJsonValueToken (F.body (quoted field) value) field = tokenAt (value ++ F.tail) :=
  extractJsonValueToken_seek (F.seekValue_body field hne hvalue)

end Frame

/-! ## What the writer escapes -/

/-- The characters that the writer escapes. -/
def isEscaped (c : Char) : Bool := c == '\\' || c == '"' || c == '\n' || c == '\r' || c == '\t'

/-- No character is escaped. -/
def Plain (s : Str) : Prop := ∀ c ∈ s, isEscaped c = false

theorem jsonEscapeChar_of_plain {c : Char} (h : isEscaped c = false) : jsonEscapeChar c = [c] := by
  simp only [isEscaped, Bool.or_eq_false_iff, beq_eq_false_iff_ne] at h
  unfold jsonEscapeChar
  split <;> simp_all

theorem jsonEscape_of_plain {s : Str} (h : Plain s) : jsonEscape s = s := by
  induction s with
  | nil => rfl
  | cons c s ih =>
    have hs := ih fun d hd => h d (List.mem_cons_of_mem _ hd)
    rw [jsonEscape] at hs ⊢
    rw [List.flatMap_cons, jsonEscapeChar_of_plain (h c List.mem_cons_self), hs]
    rfl

theorem jsonString_of_plain {s : Str} (h : Plain s) : jsonString s = quoted s := by
  rw [jsonString, jsonEscape_of_plain h, quoted]

/-- An escape is two characters long. -/
theorem length_jsonEscape (s : Str) : (jsonEscape s).length = s.length + s.countP isEscaped := by
  induction s with
  | nil => rfl
  | cons c s ih =>
    have hc : (jsonEscapeChar c).length = 1 + if isEscaped c = true then 1 else 0 := by
      cases hc : isEscaped c with
      | false => simp [jsonEscapeChar_of_plain hc]
      | true =>
        simp only [isEscaped, Bool.or_eq_true, beq_iff_eq] at hc
        rcases hc with (((rfl | rfl) | rfl) | rfl) | rfl <;> rfl
    rw [jsonEscape] at ih ⊢
    rw [List.flatMap_cons, List.length_append, hc, ih, List.length_cons, List.countP_cons]
    omega

theorem jsonEscape_injective : Function.Injective jsonEscape := by
  intro s t h
  have hstring : jsonString s = jsonString t := by rw [jsonString, h, jsonString]
  exact (jsonString_code (r := []) (s := []) trivial trivial (by rw [hstring])).1

/-! ## Strings -/

/-- The control characters with an escape of their own. -/
def isLineControl (c : Char) : Bool := c == '\n' || c == '\r' || c == '\t'

/-- What the reader makes of an escaped character: it keeps the letter of the escape. -/
def readBack (c : Char) : Char :=
  match c with
  | '\n' => 'n'
  | '\r' => 'r'
  | '\t' => 't'
  | c => c

theorem readBack_eq_iff (c : Char) : readBack c = c ↔ isLineControl c = false := by
  unfold readBack
  split
  · decide
  · decide
  · decide
  · rename_i hn hr ht
    have hctrl : isLineControl c = false := by
      simp only [isLineControl, Bool.or_eq_false_iff, beq_eq_false_iff_ne]
      exact ⟨⟨hn, hr⟩, ht⟩
    exact iff_of_true rfl hctrl

theorem map_readBack_eq_iff (s : Str) : s.map readBack = s ↔ ∀ c ∈ s, isLineControl c = false := by
  induction s with
  | nil => simp
  | cons c s ih => rw [List.map_cons, List.cons.injEq, ih, readBack_eq_iff, List.forall_mem_cons]

/-- **What the reader makes of a written string.** -/
theorem contents_jsonEscape (s : Str) : Contents (jsonEscape s) (s.map readBack) := by
  induction s with
  | nil => exact .nil
  | cons c s ih =>
    cases hc : isEscaped c with
    | false =>
      have hplain : c ≠ '\\' ∧ c ≠ '"' ∧ readBack c = c := by
        simp only [isEscaped, Bool.or_eq_false_iff, beq_eq_false_iff_ne] at hc
        obtain ⟨⟨⟨⟨hb, hq⟩, hn⟩, hr⟩, ht⟩ := hc
        exact ⟨hb, hq, (readBack_eq_iff c).2 (by simp [isLineControl, hn, hr, ht])⟩
      rw [jsonEscape, List.flatMap_cons, jsonEscapeChar_of_plain hc, List.map_cons, hplain.2.2]
      exact .plain hplain.1 hplain.2.1 ih
    | true =>
      simp only [isEscaped, Bool.or_eq_true, beq_iff_eq] at hc
      rcases hc with (((rfl | rfl) | rfl) | rfl) | rfl <;> exact .escape ih

/-- A written string has no line control left. -/
theorem not_isLineControl_of_mem_jsonString {s : Str} {c : Char} (h : c ∈ jsonString s) : isLineControl c = false := by
  have hchar : ∀ d, ∀ c ∈ jsonEscapeChar d, isLineControl c = false := by
    intro d c hc
    cases hd : isEscaped d with
    | false =>
      rw [jsonEscapeChar_of_plain hd, List.mem_singleton] at hc
      subst hc
      simp only [isEscaped, Bool.or_eq_false_iff, beq_eq_false_iff_ne] at hd
      simp [isLineControl, hd]
    | true =>
      simp only [isEscaped, Bool.or_eq_true, beq_iff_eq] at hd
      revert c
      rcases hd with (((rfl | rfl) | rfl) | rfl) | rfl <;> exact List.forall_iff_forall_mem.1 (by decide)
  simp only [jsonString, jsonEscape, List.mem_append, List.mem_cons, List.mem_flatMap, List.not_mem_nil,
    or_false] at h
  rcases h with (rfl | ⟨d, -, hc⟩) | rfl
  · rfl
  · exact hchar d c hc
  · rfl

/-- A number of blanks. -/
def blanks (n : ℕ) : White where
  text := List.replicate n ' '
  white := List.all_eq_true.2 fun c hc => by rw [List.eq_of_mem_replicate hc]; rfl

/-- A number of blanks behind the colon, and no other white space. -/
def colonGap (n : ℕ) : Frame where
  before := blanks 0
  ws := blanks 0
  mid := blanks 0
  gap := blanks n
  after := blanks 0
  last := blanks 0

/-- The body with a written name and a written value, with blanks behind the colon. -/
def writtenBody (n : ℕ) (field value : Str) : Str := (colonGap n).body (jsonString field) (jsonString value)

theorem not_isLineControl_of_mem_writtenBody {n : ℕ} {field value : Str} {c : Char}
    (h : c ∈ writtenBody n field value) : isLineControl c = false := by
  simp only [writtenBody, colonGap, Frame.body, Frame.tail, blanks, List.replicate_zero, List.nil_append,
    List.mem_append, List.mem_cons, List.mem_replicate] at h
  rcases h with (h | h) | rfl | ⟨-, rfl⟩ | h | h
  · simp_all [isLineControl]
  · exact not_isLineControl_of_mem_jsonString h
  · rfl
  · rfl
  · exact not_isLineControl_of_mem_jsonString h
  · simp_all [isLineControl]

/-- **A written string is read back** exactly when neither it nor the name of the field holds a line feed, a
carriage return or a tab. -/
theorem extractJsonStringField_jsonString_iff (n : ℕ) (field value : Str) (hquote : '"' ∉ field)
    (hback : '\\' ∉ field) :
    extractJsonStringField (writtenBody n field value) field = some value ↔
      (∀ c ∈ field, isLineControl c = false) ∧ ∀ c ∈ value, isLineControl c = false := by
  by_cases hfield : ∀ c ∈ field, isLineControl c = false
  · have hplain : Plain field := by
      intro c hc
      have hb : c ≠ '\\' := fun h => hback (h ▸ hc)
      have hq : c ≠ '"' := fun h => hquote (h ▸ hc)
      have hl := hfield c hc
      simp only [isLineControl, Bool.or_eq_false_iff] at hl
      simp [isEscaped, hb, hq, hl]
    -- the name is written as it is, and the loop reads up to the closing quote of the value
    have hread : readString (jsonEscape value ++ '"' :: (colonGap n).tail) false = _ :=
      readString_contents (contents_jsonEscape value) _
    rw [writtenBody, jsonString_of_plain hplain, jsonString, List.cons_append, Frame.extractJsonStringField_body,
      List.append_assoc, List.singleton_append, hread, Option.some.injEq, map_readBack_eq_iff]
    exact (and_iff_right hfield).symm
  · -- the name is searched for as it is, and is not written so
    obtain ⟨c, hc, hctrl⟩ : ∃ c ∈ field, isLineControl c = true := by
      simpa using hfield
    have hnone : cut (quoted field) (writtenBody n field value) = none := by
      refine cut_eq_none.2 fun h => ?_
      have hbody := not_isLineControl_of_mem_writtenBody (h.subset (a := c) (by simp [quoted, hc]))
      rw [hctrl] at hbody
      cases hbody
    simp only [extractJsonStringField, seekValue, hnone, hfield, false_and, reduceCtorEq]

theorem extractJsonStringField_jsonString_iff_sample :
    extractJsonStringField (writtenBody 1 "url".toList "a\"\\:\"url\"".toList) "url".toList =
      some "a\"\\:\"url\"".toList :=
  (extractJsonStringField_jsonString_iff 1 _ _ (by decide) (by decide)).2
    ⟨List.forall_iff_forall_mem.1 (by decide), List.forall_iff_forall_mem.1 (by decide)⟩

/-- A line feed is written as an escape and read back as a letter. -/
theorem line_feed_read_back :
    writtenBody 0 "url" ['\n'] = "\x7b\"url\":\"\\n\"\x7d" ∧
      extractJsonStringField (writtenBody 0 "url" ['\n']) "url" = some ['n'] := by
  decide

/-! ## Metadata -/

/-- The array and the object that the text of a view holds. -/
def tagsText (tags : List Str) : Str := '[' :: commaSep (tags.map jsonString) ++ [']']

/-- An object of strings. -/
def itemsText (items : List (Str × Str)) : Str := '{' :: commaSep (items.map pairText) ++ ['}']

/-- The metadata in the order of its keys. -/
def metadataText (metadata : UnorderedMap Str Str) : Str := itemsText (sortedItems metadata)

/-- **They stand in the text of a view**, each behind the name of its field. -/
theorem collections_infix_view (link : LinkView) :
    ",\"tags\":".toList ++ (tagsText link.tags ++ (",\"metadata\":".toList ++ metadataText link.metadata)) <:+:
      serializeLinkViewJson link := by
  have hskip : ∀ front part text : Str, part <:+: text → part <:+: front ++ text := fun _ _ _ h =>
    h.trans (List.suffix_append _ _).isInfix
  rw [serializeLinkViewJson_eq]
  unfold viewText
  -- the fields in front of the tags
  iterate 16 refine hskip _ _ _ ?_
  refine List.IsPrefix.isInfix ?_
  simp [tagsText, metadataText, itemsText]

theorem Passes.intercalate {opn cls : Char} {parts : List Str} (hcomma : Passes opn cls [','])
    (h : ∀ part ∈ parts, Passes opn cls part) : Passes opn cls (commaSep parts) := by
  unfold commaSep
  induction parts with
  | nil => exact .nil
  | cons part parts ih =>
    have hrest := ih fun p hp => h p (List.mem_cons_of_mem _ hp)
    cases parts with
    | nil => simpa using h part List.mem_cons_self
    | cons part' parts =>
      rw [intercalate_cons_cons]
      exact (h part List.mem_cons_self).append (hcomma.append hrest)

theorem passes_jsonString (opn cls : Char) (s : Str) : Passes opn cls (jsonString s) :=
  .literal (contents_jsonEscape s)

theorem passes_items (items : List (Str × Str)) : Passes '{' '}' (commaSep (items.map pairText)) := by
  refine Passes.intercalate (.plain (by decide) (by decide) (by decide)) fun part hpart => ?_
  obtain ⟨item, -, rfl⟩ := List.mem_map.1 hpart
  exact ((passes_jsonString _ _ item.1).append (.plain (by decide) (by decide) (by decide))).append
    (passes_jsonString _ _ item.2)

/-- The token of a written object is the object. -/
theorem extractJsonValueToken_itemsText (F : Frame) (field : Str) (items : List (Str × Str)) :
    extractJsonValueToken (F.body (quoted field) (itemsText items)) field = some (itemsText items) := by
  rw [F.extractJsonValueToken_body field (by simp [itemsText]) (by rintro c ⟨⟩; rfl), itemsText,
    List.append_assoc, List.singleton_append, tokenAt_passes .curly (passes_items items)]

/-- The item with its key and its value escaped. -/
def escapeItem (item : Str × Str) : Str × Str := (jsonEscape item.1, jsonEscape item.2)

theorem quote_not_mem_jsonEscape {s : Str} (h : '"' ∉ s) : '"' ∉ jsonEscape s := by
  intro hmem
  obtain ⟨c, hc, hquote⟩ := List.mem_flatMap.1 hmem
  rcases jsonEscapeChar_cases c with ⟨d, hd, hcd⟩ | ⟨hd, -, hne⟩
  · -- the only escape with a quote is that of a quote
    rw [hd] at hquote
    obtain rfl : '"' = d := by simpa using hquote
    have hunescape : unescape '"' = '"' := rfl
    rw [hunescape] at hcd
    exact h (hcd ▸ hc)
  · rw [hd, List.mem_singleton] at hquote
    exact hne hquote.symm

theorem jsonEscape_ne_nil {s : Str} (h : s ≠ []) : jsonEscape s ≠ [] := by
  intro hs
  have hlen := length_jsonEscape s
  rw [hs] at hlen
  have hpos := List.length_pos_iff.2 h
  simp only [List.length_nil] at hlen
  omega

/-- Without quotes in the items, the pairs that are found are the escaped items. -/
theorem pairs_itemsText {items : List (Str × Str)} (hkey : ∀ item ∈ items, item.1 ≠ [])
    (hquote : ∀ item ∈ items, '"' ∉ item.1 ∧ '"' ∉ item.2) : Pairs (itemsText items) (items.map escapeItem) := by
  have hblank : Blank [] := by simp [Blank]
  have hpair : ∀ item ∈ items, ∀ s ps, Pairs s ps → Pairs (pairText item ++ s) (escapeItem item :: ps) := by
    intro item hitem s ps hs
    have hnew := Pairs.pair (jsonEscape_ne_nil (hkey item hitem)) (quote_not_mem_jsonEscape (hquote item hitem).1)
      hblank hblank (quote_not_mem_jsonEscape (hquote item hitem).2) hs
    simpa [pairText, jsonString, quoted, escapeItem] using hnew
  -- the braces and the commas are fillers
  refine .filler rfl ?_
  change Pairs (commaSep (items.map pairText) ++ ['}']) _
  induction items with
  | nil => exact .filler rfl .nil
  | cons item items ih =>
    have hrest := ih (fun i hi => hkey i (List.mem_cons_of_mem _ hi)) (fun i hi => hquote i (List.mem_cons_of_mem _ hi))
      fun i hi => hpair i (List.mem_cons_of_mem _ hi)
    rw [List.map_cons, List.map_cons]
    cases items with
    | nil =>
      rw [List.map_nil, commaSep, List.intercalate_singleton]
      exact hpair item List.mem_cons_self _ _ hrest
    | cons item' items =>
      rw [List.map_cons, commaSep, intercalate_cons_cons, List.append_assoc]
      exact hpair item List.mem_cons_self _ _ (.filler rfl hrest)

theorem Pairs.unique {s : Str} {ps ps' : List (Str × Str)} (h : Pairs s ps) (h' : Pairs s ps') : ps = ps' := by
  have hlen : s.length < s.length + 1 := Nat.lt_succ_self _
  exact ((matchPairs_iff hlen).2 h).1.symm.trans ((matchPairs_iff hlen).2 h').1

theorem Pairs.quote_not_mem {s : Str} {ps : List (Str × Str)} (h : Pairs s ps) :
    ∀ p ∈ ps, '"' ∉ p.1 ∧ '"' ∉ p.2 := by
  induction h with
  | nil => simp
  | filler _ _ ih => exact ih
  | pair _ hk _ _ hv _ ih =>
    intro p hp
    rcases List.mem_cons.1 hp with rfl | hp
    · exact ⟨hk, hv⟩
    · exact ih p hp

/-- What is in the map was among the pairs. -/
theorem mem_of_lookup_toMap {ps : List (Str × Str)} {k v : Str} (h : (Sql.toMap ps).lookup k = some v) :
    (k, v) ∈ ps := by
  induction ps using List.reverseRecOn with
  | nil => simp [Sql.toMap] at h
  | append_singleton ps p ih =>
    rw [Sql.toMap, List.foldl_append, List.foldl_cons, List.foldl_nil] at h
    by_cases hk : k = p.1
    · subst hk
      rw [Finmap.lookup_insert, Option.some.injEq] at h
      simp [← h]
    · rw [Finmap.lookup_insert_of_ne _ hk] at h
      exact List.mem_append_left _ (ih h)

/-- The characters of an item. -/
def itemSize (item : Str × Str) : ℕ := item.1.length + item.2.length

theorem itemSize_escapeItem (item : Str × Str) :
    itemSize (escapeItem item) = itemSize item + (item.1.countP isEscaped + item.2.countP isEscaped) := by
  simp only [itemSize, escapeItem, length_jsonEscape]
  omega

theorem escapeItem_injective : Function.Injective escapeItem := by
  intro p q h
  obtain ⟨hkey, hvalue⟩ := Prod.mk.inj h
  exact Prod.ext (jsonEscape_injective hkey) (jsonEscape_injective hvalue)

theorem plain_of_countP {s : Str} (h : s.countP isEscaped = 0) : Plain s := by
  intro c hc
  simpa using List.countP_eq_zero.1 h c hc

/-- **If the escaped items are the items again, nothing was escaped**: escaping only adds characters. -/
theorem plain_of_escaped {metadata : UnorderedMap Str Str}
    (h : Sql.toMap ((sortedItems metadata).map escapeItem) = metadata) :
    ∀ item ∈ sortedItems metadata, Plain item.1 ∧ Plain item.2 := by
  have hkeys : (((sortedItems metadata).map escapeItem).map (·.1)).Nodup := by
    have hmap : ((sortedItems metadata).map escapeItem).map (·.1) =
        ((sortedItems metadata).map (·.1)).map jsonEscape := by simp [escapeItem]
    rw [hmap]
    exact (sortedItems_keys_nodup metadata).map jsonEscape_injective
  -- the escaped items are the items in another order, so both have the same number of characters
  have hperm : ((sortedItems metadata).map escapeItem).Perm (sortedItems metadata) := by
    have hnodup := (sortedItems_keys_nodup metadata).of_map
    refine (List.perm_ext_iff_of_nodup (hnodup.map escapeItem_injective) hnodup).2 fun item => ?_
    rw [mem_sortedItems]
    exact (Sql.lookup_toMap hkeys item.1 item.2).symm.trans (by rw [h])
  have hsum := (hperm.map itemSize).sum_eq
  intro item hitem
  by_contra hnot
  -- a single escape would make the sum larger
  have hle : ∀ i ∈ sortedItems metadata, itemSize i ≤ (itemSize ∘ escapeItem) i := by
    intro i _
    have hi := itemSize_escapeItem i
    simp only [Function.comp_apply]
    omega
  have hlt : itemSize item < (itemSize ∘ escapeItem) item := by
    have hi := itemSize_escapeItem item
    simp only [Function.comp_apply]
    by_contra hge
    exact hnot ⟨plain_of_countP (by omega), plain_of_countP (by omega)⟩
  have hstrict := List.sum_lt_sum itemSize (itemSize ∘ escapeItem) hle ⟨item, hitem, hlt⟩
  rw [List.map_map] at hsum
  omega

/-- **Metadata come back** exactly when no key and no value holds a character that is escaped. -/
theorem metadata_read_back_iff (F : Frame) (metadata : UnorderedMap Str Str) (h : validateMetadata metadata = true) :
    extractJsonFlatObjectStringField (F.body (quoted "metadata") (metadataText metadata)) "metadata" =
        some metadata ↔
      ∀ k v, metadata.lookup k = some v → Plain k ∧ Plain v := by
  have htoken := extractJsonValueToken_itemsText F "metadata" (sortedItems metadata)
  have hkey : ∀ item ∈ sortedItems metadata, item.1 ≠ [] := by
    intro item hitem
    have hlen := ((validateMetadata_valid h).entry item.1 item.2 (mem_sortedItems.1 hitem)).1
    exact List.length_pos_iff.1 hlen
  rw [extractJsonFlatObjectStringField_iff, metadataText, htoken]
  constructor
  · rintro ⟨raw, ps, hraw, htok, hmap⟩ k v hkv
    cases hraw
    rcases htok with ⟨hnull, -⟩ | ⟨t, -, hpairs⟩
    · cases hnull
    · -- the pairs hold no quotes, so neither do the items, and the pairs are the escaped items
      have hquote : ∀ item ∈ sortedItems metadata, '"' ∉ item.1 ∧ '"' ∉ item.2 := by
        intro item hitem
        rw [mem_sortedItems, ← hmap] at hitem
        exact hpairs.quote_not_mem _ (mem_of_lookup_toMap hitem)
      obtain rfl := hpairs.unique (pairs_itemsText hkey hquote)
      exact plain_of_escaped hmap (k, v) (mem_sortedItems.2 hkv)
  · intro hplain
    -- without escapes the pairs are the items, and inserting them makes the map again
    have hplain' : ∀ item ∈ sortedItems metadata, Plain item.1 ∧ Plain item.2 :=
      fun item hitem => hplain _ _ (mem_sortedItems.1 hitem)
    have hquote : ∀ s, Plain s → '"' ∉ s := fun s hs hmem => absurd (hs _ hmem) (by decide)
    have hpairs := pairs_itemsText hkey fun item hitem =>
      ⟨hquote _ (hplain' item hitem).1, hquote _ (hplain' item hitem).2⟩
    have hsame : (sortedItems metadata).map escapeItem = sortedItems metadata := by
      refine (List.map_congr_left fun item hitem => ?_).trans (List.map_id _)
      exact Prod.ext (jsonEscape_of_plain (hplain' item hitem).1) (jsonEscape_of_plain (hplain' item hitem).2)
    rw [hsame] at hpairs
    exact ⟨_, _, rfl, .inr ⟨_, rfl, hpairs⟩, foldl_insert_sortedItems metadata⟩

theorem metadata_read_back_iff_sample :
    extractJsonFlatObjectStringField
        (Frame.body {} (quoted "metadata") (metadataText (Finmap.singleton "a,b" "\x7b:\x7d")))
        "metadata" =
      some (Finmap.singleton "a,b".toList "\x7b:\x7d".toList) := by
  refine (metadata_read_back_iff _ _ (by decide)).2 fun k v hkv => ?_
  obtain rfl : k = "a,b" := Finmap.mem_singleton _ _ _ |>.1 (Finmap.mem_of_lookup_eq_some hkv)
  rw [Finmap.lookup_singleton_eq, Option.some.injEq] at hkv
  subst hkv
  exact ⟨List.forall_iff_forall_mem.1 (by decide), List.forall_iff_forall_mem.1 (by decide)⟩

theorem sortedItems_singleton (k v : Str) : sortedItems (Finmap.singleton k v) = [(k, v)] := by
  have hcopy : SortedCopy (Finmap.singleton k v) [(k, v)] := ⟨rfl, List.pairwise_singleton _ _⟩
  exact hcopy.eq_sortedItems.symm

/-- A backslash comes back as two. -/
theorem backslash_read_back :
    validateMetadata (Finmap.singleton "a" ['\\']) = true ∧
      metadataText (Finmap.singleton "a" ['\\']) = "\x7b\"a\":\"\\\\\"\x7d" ∧
      extractJsonFlatObjectStringField
          (Frame.body {} (quoted "metadata") (metadataText (Finmap.singleton "a" ['\\'])))
          "metadata" =
        some (Finmap.singleton "a".toList ['\\', '\\']) := by
  rw [metadataText, sortedItems_singleton]
  decide

/-! ## Tags -/

theorem isTagChar_plain {c : Char} (h : isTagChar c = true) : isTrimmed c = false ∧ isEscaped c = false := by
  constructor
  · by_contra hc
    simp only [isTrimmed, Bool.not_eq_false, Bool.or_eq_true, beq_iff_eq] at hc
    rcases hc with ((rfl | rfl) | rfl) | rfl <;> cases h
  · by_contra hc
    simp only [isEscaped, Bool.not_eq_false, Bool.or_eq_true, beq_iff_eq] at hc
    rcases hc with (((rfl | rfl) | rfl) | rfl) | rfl <;> cases h

theorem trim_of_not_trimmed {s : Str} (h : ∀ c ∈ s, isTrimmed c = false) : trim s = s := by
  have hleft : s.dropWhile isTrimmed = s := by
    refine List.dropWhile_eq_self_iff.2 fun hlen => ?_
    simp [h _ (List.getElem_mem hlen)]
  rw [trim, hleft]
  refine List.rdropWhile_eq_self_iff.2 fun hne => ?_
  simp [h _ (List.getLast_mem hne)]

/-- The loop pushes every tag of a list that is normal already. -/
theorem validateTagsLoop_of_valid {tags acc : List Str}
    (htag : ∀ t ∈ tags, 1 ≤ t.length ∧ t.length ≤ 32 ∧ t.all isTagChar = true) (hnodup : (acc ++ tags).Nodup) :
    validateTagsLoop tags acc = some (acc ++ tags) := by
  induction tags generalizing acc with
  | nil => simp [validateTagsLoop]
  | cons t tags ih =>
    obtain ⟨hpos, hlen, hchars⟩ := htag t List.mem_cons_self
    -- trimming does nothing, every check passes, and the tag is new
    have htrim : trim t = t :=
      trim_of_not_trimmed fun c hc => (isTagChar_plain (List.all_eq_true.1 hchars c hc)).1
    have hne : t ≠ [] := List.length_pos_iff.1 hpos
    have hfresh : acc.contains t = false := by
      rw [List.nodup_append] at hnodup
      simpa using fun hmem => hnodup.2.2 t hmem t List.mem_cons_self rfl
    have hnodup' : (acc ++ [t] ++ tags).Nodup := by simpa using hnodup
    have hrest := ih (fun u hu => htag u (List.mem_cons_of_mem _ hu)) hnodup'
    simp only [validateTagsLoop, htrim, if_neg hne, if_neg (not_lt.2 hlen), hchars, hfresh, hrest]
    simp

theorem validateTags_of_valid {tags : List Str} (h : ValidTags tags) : validateTags tags = some tags := by
  have htag : ∀ t ∈ tags, 1 ≤ t.length ∧ t.length ≤ 32 ∧ t.all isTagChar = true := by
    intro t ht
    obtain ⟨hpos, hlen, hchars⟩ := h.tag t ht
    exact ⟨hpos, hlen, List.all_eq_true.2 fun c hc => (isTagChar_iff c).2 (hchars c hc)⟩
  rw [validateTags, if_neg (not_lt.2 h.length)]
  exact validateTagsLoop_of_valid htag h.nodup

/-- **A written array of strings** as the item loop reads it. -/
theorem items_written (values : List Str) :
    Items (commaSep (values.map jsonString)) (values.map fun v => v.map readBack) := by
  have hblank : Blank [] := by simp [Blank]
  induction values with
  | nil => exact .blank hblank
  | cons v values ih =>
    cases values with
    | nil =>
      have hlast := Items.last hblank (contents_jsonEscape v) hblank
      simpa [commaSep, jsonString] using hlast
    | cons v' values =>
      have hmore := Items.more hblank (contents_jsonEscape v) hblank ih
      rw [List.map_cons, List.map_cons, commaSep, intercalate_cons_cons]
      simpa [commaSep, jsonString] using hmore

theorem passes_tags (tags : List Str) : Passes '[' ']' (commaSep (tags.map jsonString)) := by
  refine Passes.intercalate (.plain (by decide) (by decide) (by decide)) fun part hpart => ?_
  obtain ⟨tag, -, rfl⟩ := List.mem_map.1 hpart
  exact passes_jsonString _ _ tag

theorem extractJsonStringArrayField_tagsText (F : Frame) (field : Str) (tags : List Str) :
    extractJsonStringArrayField (F.body (quoted field) (tagsText tags)) field =
      some (tags.map fun v => v.map readBack) := by
  have htoken : extractJsonValueToken (F.body (quoted field) (tagsText tags)) field = some (tagsText tags) := by
    rw [F.extractJsonValueToken_body field (by simp [tagsText]) (by rintro c ⟨⟩; rfl), tagsText,
      List.append_assoc, List.singleton_append, tokenAt_passes .square (passes_tags tags)]
  exact extractJsonStringArrayField_iff.2 ⟨_, htoken, .inr ⟨_, rfl, items_written tags⟩⟩

/-- **Tags come back** in their order, and what the validator accepted it leaves alone. -/
theorem tags_read_back (F : Frame) (raw tags : List Str) (h : validateTags raw = some tags) :
    validateTags tags = some tags ∧
      extractJsonStringArrayField (F.body (quoted "tags") (tagsText tags)) "tags" = some tags := by
  have hvalid := validateTags_valid h
  refine ⟨validateTags_of_valid hvalid, ?_⟩
  rw [extractJsonStringArrayField_tagsText, Option.some.injEq]
  refine (List.map_congr_left fun t ht => ?_).trans (List.map_id _)
  refine (map_readBack_eq_iff t).2 fun c hc => ?_
  have hplain := (isTagChar_plain ((isTagChar_iff c).2 ((hvalid.tag t ht).2.2 c hc))).2
  simp only [isEscaped, Bool.or_eq_false_iff] at hplain
  simp [isLineControl, hplain]

theorem tags_read_back_sample :
    extractJsonStringArrayField
        (Frame.body {} (quoted "tags") (tagsText ["b:1", "a_2"])) "tags" =
      some ["b:1".toList, "a_2".toList] :=
  (tags_read_back {} [" b:1".toList, "a_2".toList, "b:1 ".toList] _ (by decide)).2

end UrlShortener

import UrlShortener.Proof.Hosts
import UrlShortener.Text.Codes

/-!
# The JSON text of a link view

* `jsonString_code`: a string literal ends where its closing quote stands, whatever it holds.
* `serializeLinkViewJson_canonical`: **two views have the same text exactly when they agree on every field that is
  printed, and the text does not depend on the order in which the metadata map is visited.**
-/

namespace UrlShortener

open Text

/-! ## String literals -/

/-- The character that a backslash and `c` stand for. -/
def unescape (c : Char) : Char :=
  match c with
  | 'n' => '\n'
  | 'r' => '\r'
  | 't' => '\t'
  | c => c

/-- A character is escaped in a way that shows which it was, or neither a backslash nor a quote. -/
theorem jsonEscapeChar_cases (c : Char) :
    (∃ d, jsonEscapeChar c = ['\\', d] ∧ unescape d = c) ∨ jsonEscapeChar c = [c] ∧ c ≠ '\\' ∧ c ≠ '"' := by
  unfold jsonEscapeChar
  split
  · exact .inl ⟨'\\', rfl, by decide⟩
  · exact .inl ⟨'"', rfl, by decide⟩
  · exact .inl ⟨'n', rfl, by decide⟩
  · exact .inl ⟨'r', rfl, by decide⟩
  · exact .inl ⟨'t', rfl, by decide⟩
  · rename_i hback hquote _ _ _
    exact .inr ⟨rfl, hback, hquote⟩

theorem jsonEscapeChar_code : Code Anything jsonEscapeChar := by
  intro a b r s _ _ h
  rcases jsonEscapeChar_cases a with ⟨d, ha, hd⟩ | ⟨ha, hback, -⟩
  · rcases jsonEscapeChar_cases b with ⟨d', hb, hd'⟩ | ⟨hb, hback, -⟩
    · rw [ha, hb] at h
      simp only [List.cons_append, List.nil_append, List.cons.injEq, true_and] at h
      exact ⟨by rw [← hd, ← hd', h.1], h.2⟩
    · rw [ha, hb] at h
      exact absurd (List.cons.inj h).1.symm hback
  · rcases jsonEscapeChar_cases b with ⟨d', hb, -⟩ | ⟨hb, -, -⟩
    · rw [ha, hb] at h
      exact absurd (List.cons.inj h).1 hback
    · rw [ha, hb] at h
      exact List.cons.inj h

/-- No escaped character begins like a closing quote. -/
theorem jsonEscapeChar_open (c : Char) : ∃ d t, jsonEscapeChar c = d :: t ∧ d ≠ '"' := by
  rcases jsonEscapeChar_cases c with ⟨d, h, -⟩ | ⟨h, -, hquote⟩
  · exact ⟨'\\', [d], h, by decide⟩
  · exact ⟨c, [], h, hquote⟩

/-- **A string literal is closed by its own quote.** -/
theorem jsonString_code : Code Anything jsonString :=
  (Code.many jsonEscapeChar_code jsonEscapeChar_open).enclosed ['"']

theorem jsonString_open {close : Char} (h : '"' ≠ close) (s : Str) : ∃ c t, jsonString s = c :: t ∧ c ≠ close :=
  ⟨'"', _, rfl, h⟩

/-! ## Numbers, lists and objects -/

theorem decimal_code : Code (Leaves Char.isDigit) decimal :=
  Code.ofClass decimal_injective fun _ _ => decimal_isDigit

theorem tags_code : Code (Begins ']') fun tags : List Str => commaSep (tags.map jsonString) :=
  Code.sepBy jsonString_code (by decide) (jsonString_open (by decide))

/-- A key and its value. -/
def pairText (item : Str × Str) : Str := jsonString item.1 ++ [':'] ++ jsonString item.2

theorem items_code : Code (Begins '}') fun items : List (Str × Str) => commaSep (items.map pairText) :=
  Code.sepBy (jsonString_code.pair jsonString_code [':']) (by decide) fun _ => ⟨'"', _, rfl, by decide⟩

theorem jsonOptional_code : Code Anything jsonOptional := by
  have hcode := Code.option (c := 'n') (t := "ull") jsonString_code (jsonString_open (by decide))
  have heq : (fun o : Option Str => o.elim ('n' :: "ull") jsonString) = jsonOptional := by
    funext o
    cases o <;> rfl
  rwa [heq] at hcode

/-! ## Campaigns -/

/-- The fields of a campaign that are present, with their names. -/
def campaignItems (c : Campaign) : List (Str × Str) :=
  let field (key : Str) (value : Option Str) : List (Str × Str) := (value.map fun v => (key, v)).toList
  field "name" c.name ++ field "source" c.source ++ field "medium" c.medium ++
    field "term" c.term ++ field "content" c.content ++ field "id" c.id

theorem serializeCampaign_eq (c : Campaign) :
    serializeCampaign c = ['{'] ++ commaSep ((campaignItems c).map pairText) ++ ['}'] := by
  obtain ⟨name, source, medium, term, content, id⟩ := c
  cases name <;> cases source <;> cases medium <;> cases term <;> cases content <;> cases id <;> rfl

theorem lookup_field (key key' : Str) (value : Option Str) :
    ((value.map fun v => (key', v)).toList).lookup key = if key = key' then value else none := by
  cases value with
  | none => simp
  | some v =>
    by_cases h : key = key'
    · rw [if_pos h, h]
      exact List.lookup_cons_self
    · have hne : (key == key') = false := beq_false_of_ne h
      rw [if_neg h, Option.map_some, Option.toList_some, List.lookup_cons, hne]
      rfl

/-- The names are distinct, so each field is found under its own. -/
theorem campaignItems_injective : Function.Injective campaignItems := by
  have hlookup : ∀ (c : Campaign), c =
      { name := (campaignItems c).lookup "name".toList
        source := (campaignItems c).lookup "source".toList
        medium := (campaignItems c).lookup "medium".toList
        term := (campaignItems c).lookup "term".toList
        content := (campaignItems c).lookup "content".toList
        id := (campaignItems c).lookup "id".toList } := by
    intro c
    simp [campaignItems, List.lookup_append, lookup_field]
  intro c d h
  rw [hlookup c, hlookup d, h]

theorem campaign_code : Code Anything serializeCampaign := by
  have hcode := (items_code.enclosed ['{']).comap campaignItems_injective
  rw [show serializeCampaign = _ from funext serializeCampaign_eq]
  exact hcode

/-- The text of an optional campaign. -/
def campaignText (campaign : Option Campaign) : Str :=
  match campaign with
  | none => "null"
  | some c => serializeCampaign c

theorem campaignText_code : Code Anything campaignText := by
  have hcode := Code.option (c := 'n') (t := "ull") campaign_code fun _ => ⟨'{', _, rfl, by decide⟩
  have heq : (fun o : Option Campaign => o.elim ('n' :: "ull") serializeCampaign) = campaignText := by
    funext o
    cases o <;> rfl
  rwa [heq] at hcode

/-! ## Metadata -/

/-- The entries of the map as `std::sort` leaves them: copied in some order of iteration and arranged so that no
key is less than an earlier one. -/
structure SortedCopy (metadata : UnorderedMap Str Str) (items : List (Str × Str)) : Prop where
  entries : (items : Multiset (Str × Str)) = metadata.entries.map fun e => (e.1, e.2)
  sorted : items.Pairwise fun lhs rhs => ¬rhs.1 < lhs.1

theorem sortedItems_entries (metadata : UnorderedMap Str Str) :
    (sortedItems metadata : Multiset (Str × Str)) = metadata.entries.map fun e => (e.1, e.2) := by
  rw [sortedItems, ← Multiset.map_coe, Multiset.sort_eq, Multiset.map_map]
  rfl

theorem sortedItems_injective : Function.Injective sortedItems := by
  intro m m' h
  refine Finmap.ext_iff.2 ?_
  have hmap : m.entries.map (fun e => (e.1, e.2)) = m'.entries.map fun e => (e.1, e.2) := by
    rw [← sortedItems_entries, ← sortedItems_entries, h]
  refine Multiset.map_injective (f := fun e : (_ : Str) × Str => (e.1, e.2)) ?_ hmap
  rintro ⟨k, v⟩ ⟨k', v'⟩ heq
  obtain ⟨rfl, rfl⟩ := Prod.mk.inj heq
  rfl

theorem SortedCopy.keys_ne {metadata : UnorderedMap Str Str} {items : List (Str × Str)}
    (h : SortedCopy metadata items) : items.Pairwise fun lhs rhs => lhs.1 ≠ rhs.1 := by
  have hkeys : ((items.map Prod.fst : List Str) : Multiset Str) = metadata.entries.map Sigma.fst := by
    rw [← Multiset.map_coe, h.entries, Multiset.map_map]
    rfl
  have hnodup : (items.map Prod.fst).Nodup := by
    rw [← Multiset.coe_nodup, hkeys]
    exact metadata.nodupKeys.nodup_keys
  exact List.pairwise_map.1 hnodup

/-- The keys are distinct, so only one arrangement is sorted. -/
theorem SortedCopy.eq_sortedItems {metadata : UnorderedMap Str Str} {items : List (Str × Str)}
    (h : SortedCopy metadata items) : items = sortedItems metadata := by
  have hlex : (items.map toLex : Multiset (Lex (Str × Str))) = metadata.entries.map fun e => toLex (e.1, e.2) := by
    rw [← Multiset.map_coe, h.entries, Multiset.map_map]
    rfl
  have hsorted : (items.map toLex).Pairwise (· ≤ ·) := by
    rw [List.pairwise_map]
    refine (h.sorted.and h.keys_ne).imp fun {lhs rhs} hpair => ?_
    exact (Prod.Lex.toLex_le_toLex).2 (.inl (lt_of_le_of_ne (not_lt.1 hpair.1) hpair.2))
  have hperm : (items.map toLex).Perm ((metadata.entries.map fun e => toLex (e.1, e.2)).sort (· ≤ ·)) := by
    rw [← Multiset.coe_eq_coe, hlex, Multiset.sort_eq]
  have heq := hperm.eq_of_pairwise' hsorted (Multiset.pairwise_sort _ _)
  rw [sortedItems, ← heq, List.map_map]
  exact (List.map_id items).symm

/-! ## Views -/

/-- The fields that are printed. -/
structure SameView (v w : LinkView) : Prop where
  id : v.id = w.id
  slug : v.slug = w.slug
  targetUrl : v.targetUrl = w.targetUrl
  shortUrl : v.shortUrl = w.shortUrl
  createdAt : v.createdAt = w.createdAt
  updatedAt : v.updatedAt = w.updatedAt
  status : v.status = w.status
  redirectType : v.redirectType = w.redirectType
  tags : v.tags = w.tags
  metadata : v.metadata = w.metadata
  campaign : v.campaign = w.campaign
  stats : v.stats = w.stats

theorem linkStatusToString_injective : Function.Injective linkStatusToString := by
  intro a b h
  cases a <;> cases b <;> first | rfl | exact absurd h (by decide)

theorem redirectTypeToString_injective : Function.Injective redirectTypeToString := by
  intro a b h
  cases a <;> cases b <;> first | rfl | exact absurd h (by decide)

/-- The text of a view whose metadata entries are printed in the order of `items`. -/
def viewText (link : LinkView) (items : List (Str × Str)) : Str :=
  "\x7b\"id\":" ++ (jsonString link.id ++
  (",\"slug\":" ++ (jsonString link.slug ++
  (",\"url\":" ++ (jsonString link.targetUrl ++
  (",\"short_url\":" ++ (jsonString link.shortUrl ++
  (",\"created_at\":" ++ (jsonString link.createdAt ++
  (",\"updated_at\":" ++ (jsonString link.updatedAt ++
  (",\"status\":" ++ (jsonString (linkStatusToString link.status) ++
  (",\"redirect_type\":" ++ (jsonString (redirectTypeToString link.redirectType) ++
  (",\"tags\":[" ++ (commaSep (link.tags.map jsonString) ++
  ("],\"metadata\":\x7b" ++ (commaSep (items.map pairText) ++
  ("\x7d,\"campaign\":" ++ (campaignText link.campaign ++
  (",\"stats\":\x7b\"total_redirects\":" ++ (decimal link.stats.totalRedirects.toNat ++
  (",\"redirects_24h\":" ++ (decimal link.stats.redirects24h.toNat ++
  (",\"redirects_7d\":" ++ (decimal link.stats.redirects7d.toNat ++
  (",\"last_accessed_at\":" ++ (jsonOptional link.stats.lastAccessedAt ++
  "\x7d\x7d")))))))))))))))))))))))))))))

theorem serializeLinkViewJson_eq (link : LinkView) :
    serializeLinkViewJson link = viewText link (sortedItems link.metadata) := by
  have hpair : pairText = fun item => jsonString item.1 ++ [':'] ++ jsonString item.2 := rfl
  unfold serializeLinkViewJson viewText campaignText
  cases link.campaign <;> simp only [hpair, List.append_assoc]

theorem Stats.eq_of_toNat {s t : Stats} (htotal : s.totalRedirects.toNat = t.totalRedirects.toNat)
    (hday : s.redirects24h.toNat = t.redirects24h.toNat) (hweek : s.redirects7d.toNat = t.redirects7d.toNat)
    (hlast : s.lastAccessedAt = t.lastAccessedAt) : s = t := by
  cases s
  cases t
  simp only [UInt64.toNat_inj] at htotal hday hweek hlast
  rw [htotal, hday, hweek, hlast]

/-- The fields are read one after the other; each literal ends where the next begins. -/
theorem viewText_inj (v w : LinkView) (items items' : List (Str × Str)) :
    viewText v items = viewText w items' ↔
      v.id = w.id ∧ v.slug = w.slug ∧ v.targetUrl = w.targetUrl ∧ v.shortUrl = w.shortUrl ∧
      v.createdAt = w.createdAt ∧ v.updatedAt = w.updatedAt ∧ v.status = w.status ∧
      v.redirectType = w.redirectType ∧ v.tags = w.tags ∧ items = items' ∧ v.campaign = w.campaign ∧
      v.stats = w.stats := by
  unfold viewText
  rw [jsonString_code.append_inj trivial trivial, jsonString_code.append_inj trivial trivial,
    jsonString_code.append_inj trivial trivial, jsonString_code.append_inj trivial trivial,
    jsonString_code.append_inj trivial trivial, jsonString_code.append_inj trivial trivial,
    jsonString_code.append_inj trivial trivial, jsonString_code.append_inj trivial trivial,
    tags_code.append_inj_before "],\"metadata\":\x7b" fun _ => rfl,
    items_code.append_inj_before "\x7d,\"campaign\":" fun _ => rfl,
    campaignText_code.append_inj trivial trivial,
    decimal_code.append_inj_before ",\"redirects_24h\":" fun _ c hc => by cases hc; rfl,
    decimal_code.append_inj_before ",\"redirects_7d\":" fun _ c hc => by cases hc; rfl,
    decimal_code.append_inj_before ",\"last_accessed_at\":" fun _ c hc => by cases hc; rfl,
    jsonOptional_code.append_inj trivial trivial, linkStatusToString_injective.eq_iff,
    redirectTypeToString_injective.eq_iff]
  refine and_congr_right fun _ => and_congr_right fun _ => and_congr_right fun _ => and_congr_right fun _ =>
    and_congr_right fun _ => and_congr_right fun _ => and_congr_right fun _ => and_congr_right fun _ =>
    and_congr_right fun _ => and_congr_right fun _ => and_congr_right fun _ => ⟨?_, ?_⟩
  · rintro ⟨htotal, hday, hweek, hlast, -⟩
    exact Stats.eq_of_toNat htotal hday hweek hlast
  · intro h
    rw [h]
    exact ⟨rfl, rfl, rfl, rfl, rfl⟩

/-- **The text of a view determines what it shows, and is determined by it**, in whatever order the metadata maps
are visited. -/
theorem serializeLinkViewJson_canonical {v w : LinkView} {items items' : List (Str × Str)}
    (hv : SortedCopy v.metadata items) (hw : SortedCopy w.metadata items') :
    serializeLinkViewJson v = viewText v items ∧ (viewText v items = viewText w items' ↔ SameView v w) := by
  rw [hv.eq_sortedItems, hw.eq_sortedItems]
  refine ⟨serializeLinkViewJson_eq v, ?_⟩
  rw [viewText_inj, sortedItems_injective.eq_iff]
  constructor
  · rintro ⟨hid, hslug, htarget, hshort, hcreated, hupdated, hstatus, htype, htags, hmeta, hcampaign, hstats⟩
    exact ⟨hid, hslug, htarget, hshort, hcreated, hupdated, hstatus, htype, htags, hmeta, hcampaign, hstats⟩
  · intro h
    exact ⟨h.id, h.slug, h.targetUrl, h.shortUrl, h.createdAt, h.updatedAt, h.status, h.redirectType, h.tags,
      h.metadata, h.campaign, h.stats⟩

/-- A view with one entry, whose value holds a quote and a brace. -/
def quotedView : LinkView where
  id := "1"
  slug := "abc"
  targetUrl := "https://a"
  shortUrl := "/abc"
  createdAt := []
  updatedAt := []
  expiresAt := none
  deletedAt := none
  enabled := true
  tags := ["a\",\"b"]
  metadata := Finmap.singleton "k" "\"\x7d"
  campaign := some { term := some "\",\"id\":\"" }
  stats := {}
  redirectType := .temporary
  status := .active

theorem serializeLinkViewJson_canonical_sample :
    viewText quotedView [("k", "\"\x7d")] ≠
      viewText { quotedView with tags := ["a", "b"] } [("k", "\"\x7d")] := by
  have hcopy : SortedCopy quotedView.metadata [("k", "\"\x7d")] :=
    ⟨rfl, List.pairwise_singleton _ _⟩
  intro h
  have hsame := (serializeLinkViewJson_canonical hcopy
    (w := { quotedView with tags := ["a", "b"] }) hcopy).2.1 h
  exact absurd hsame.tags (by decide)

end UrlShortener

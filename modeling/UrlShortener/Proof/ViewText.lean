import UrlShortener.Proof.Lifecycle
import UrlShortener.Proof.Normal
import UrlShortener.Proof.Reachability
import UrlShortener.Proof.Writer

/-!
# The text of a stored link is JSON

`jsonEscape` leaves control characters other than line feed, carriage return and tab as they are, and no validator of
a target URL, of metadata or of a campaign refuses them.

* `serializeLinkViewJson_legal_iff`: the text of a view is a JSON object without control characters exactly if every
  text it prints is printable.
* `Writes.ownPrintable`: what the service makes itself (identifiers, slugs, timestamps) always is.
* `stored_view_legal`: **so the text of a stored link is legal** exactly if the URL, the metadata, the campaign and
  the base domain are printable, as they are after a run of commands that give only such texts.
-/

namespace UrlShortener

open Text Json Runs
open Storage (mem_sortedItems)

/-! ## Control characters -/

/-- There is no control character below 0x20 in the text. -/
def ControlFree (s : Str) : Prop := ∀ c ∈ s, 32 ≤ c.toNat

/-- **A legal text of an object**: a JSON object, without any control character. -/
structure LegalText (s : Str) : Prop where
  controlFree : ControlFree s
  object : IsJsonObject s

instance (s : Str) : Decidable (ControlFree s) := List.decidableBAll _ _

theorem controlFree_append {s t : Str} : ControlFree (s ++ t) ↔ ControlFree s ∧ ControlFree t := List.forall_mem_append

theorem controlFree_cons {c : Char} {s : Str} : ControlFree (c :: s) ↔ 32 ≤ c.toNat ∧ ControlFree s :=
  List.forall_mem_cons

theorem controlFree_flatMap {α : Type} {f : α → Str} {xs : List α} :
    ControlFree (xs.flatMap f) ↔ ∀ x ∈ xs, ControlFree (f x) := by
  simp only [ControlFree, List.mem_flatMap]
  exact ⟨fun h x hx c hc => h c ⟨x, hx, hc⟩, fun h c ⟨x, hx, hc⟩ => h x hx c hc⟩

theorem ControlFree.printable {s : Str} (h : ControlFree s) : Printable s := by
  intro c hc
  have hlow : ¬c.toNat < 32 := by
    have := h c hc
    omega
  simp [isBareControl, hlow]

theorem controlFree_intercalate {parts : List Str} :
    ControlFree ([','].intercalate parts) ↔ ∀ p ∈ parts, ControlFree p := by
  have hcomma : 32 ≤ ','.toNat := by decide
  cases parts with
  | nil => simp [ControlFree]
  | cons p parts =>
    have htext := intercalate_map_cons ',' (fun p : Str => p) p parts
    rw [List.map_id'] at htext
    rw [htext, controlFree_append, controlFree_flatMap, List.forall_mem_cons]
    simp only [controlFree_cons, hcomma, true_and]

theorem controlFree_arrayText {ws : List Str} : ControlFree (arrayText ws) ↔ ∀ w ∈ ws, ControlFree w := by
  rw [arrayText, List.cons_append, controlFree_cons, controlFree_append, controlFree_intercalate]
  exact (and_iff_right (by decide)).trans (and_iff_left (by decide))

theorem controlFree_memberText {m : Str × Str} : ControlFree (memberText m) ↔ ControlFree m.1 ∧ ControlFree m.2 := by
  rw [memberText, controlFree_cons, controlFree_append, controlFree_cons, controlFree_cons]
  exact (and_iff_right (by decide)).trans (and_congr_right fun _ =>
    (and_iff_right (by decide)).trans (and_iff_right (by decide)))

theorem controlFree_objectText {ms : List (Str × Str)} :
    ControlFree (objectText ms) ↔ ∀ m ∈ ms, ControlFree m.1 ∧ ControlFree m.2 := by
  rw [objectText, List.cons_append, controlFree_cons, controlFree_append, controlFree_intercalate, List.forall_mem_map]
  simp only [controlFree_memberText]
  exact (and_iff_right (by decide)).trans (and_iff_left (by decide))

/-- A character is written without a control character exactly if it is not one that is printed as it is. -/
theorem controlFree_jsonEscapeChar (c : Char) : ControlFree (jsonEscapeChar c) ↔ isBareControl c = false := by
  cases hc : isEscaped c with
  | true =>
    simp only [isEscaped, Bool.or_eq_true, beq_iff_eq] at hc
    rcases hc with (((rfl | rfl) | rfl) | rfl) | rfl <;> exact iff_of_true (by decide) (by decide)
  | false =>
    rw [jsonEscapeChar_of_plain hc]
    simp only [isEscaped, Bool.or_eq_false_iff, beq_eq_false_iff_ne] at hc
    obtain ⟨⟨⟨⟨-, -⟩, hn⟩, hr⟩, ht⟩ := hc
    simp [ControlFree, isBareControl, isLineControl, hn, hr, ht]

theorem controlFree_jsonEscape (s : Str) : ControlFree (jsonEscape s) ↔ Printable s := by
  rw [jsonEscape, controlFree_flatMap]
  simp only [controlFree_jsonEscapeChar, Printable]

theorem controlFree_jsonString (s : Str) : ControlFree (jsonString s) ↔ Printable s := by
  rw [jsonString, List.cons_append, controlFree_cons, controlFree_append, controlFree_jsonEscape]
  exact (and_iff_right (by decide)).trans (and_iff_left (by decide))

theorem controlFree_of_isDigit {s : Str} (h : ∀ c ∈ s, c.isDigit = true) : ControlFree s := by
  intro c hc
  have := (isDigit_iff c).1 (h c hc)
  omega

theorem controlFree_decimal (n : ℕ) : ControlFree (decimal n) := controlFree_of_isDigit fun _ => decimal_isDigit

/-! ## The text of a view -/

/-- The members of an object of strings. -/
def stringMembers (items : List (Str × Str)) : List (Str × Str) := items.map fun i => (jsonEscape i.1, jsonString i.2)

/-- The members of the counters. -/
def counterMembers (stats : Stats) : List (Str × Str) :=
  [("total_redirects", decimal stats.totalRedirects.toNat),
   ("redirects_24h", decimal stats.redirects24h.toNat),
   ("redirects_7d", decimal stats.redirects7d.toNat),
   ("last_accessed_at", jsonOptional stats.lastAccessedAt)]

/-- The members of a view. -/
def viewMembers (link : LinkView) : List (Str × Str) :=
  [("id", jsonString link.id),
   ("slug", jsonString link.slug),
   ("url", jsonString link.targetUrl),
   ("short_url", jsonString link.shortUrl),
   ("created_at", jsonString link.createdAt),
   ("updated_at", jsonString link.updatedAt),
   ("status", jsonString (linkStatusToString link.status)),
   ("redirect_type", jsonString (redirectTypeToString link.redirectType)),
   ("tags", arrayText (link.tags.map jsonString)),
   ("metadata", objectText (stringMembers (sortedItems link.metadata))),
   ("campaign", campaignText link.campaign),
   ("stats", objectText (counterMembers link.stats))]

theorem memberText_stringMembers (items : List (Str × Str)) :
    (stringMembers items).map memberText = items.map pairText := by
  rw [stringMembers, List.map_map]
  refine List.map_congr_left fun i _ => ?_
  simp [memberText, pairText, jsonString]

set_option maxRecDepth 2000 in
theorem serializeLinkViewJson_members (link : LinkView) :
    serializeLinkViewJson link = objectText (viewMembers link) := by
  rw [serializeLinkViewJson_eq]
  unfold viewText viewMembers counterMembers objectText arrayText commaSep
  rw [memberText_stringMembers]
  simp [memberText]

theorem campaignText_some (c : Campaign) : campaignText (some c) = objectText (stringMembers (campaignItems c)) := by
  rw [campaignText, serializeCampaign_eq, objectText, memberText_stringMembers]
  rfl

/-- Keys and values are printable. -/
def PrintableMetadata (metadata : UnorderedMap Str Str) : Prop :=
  ∀ k v, metadata.lookup k = some v → Printable k ∧ Printable v

/-- Its fields are printable. -/
def PrintableCampaign (c : Campaign) : Prop := ∀ v, some v ∈ c.fields → Printable v

/-- **Every text that a view prints is printable.** -/
structure PrintableView (link : LinkView) : Prop where
  id : Printable link.id
  slug : Printable link.slug
  targetUrl : Printable link.targetUrl
  shortUrl : Printable link.shortUrl
  createdAt : Printable link.createdAt
  updatedAt : Printable link.updatedAt
  tags : ∀ t ∈ link.tags, Printable t
  metadata : PrintableMetadata link.metadata
  campaign : ∀ c ∈ link.campaign, PrintableCampaign c
  lastAccessedAt : ∀ t ∈ link.stats.lastAccessedAt, Printable t

/-- A field of a campaign that is printed under this name. -/
theorem forall_field {P : Str × Str → Prop} (key : Str) (value : Option Str) :
    (∀ i ∈ (value.map fun v => (key, v)).toList, P i) ↔ ∀ v, some v = value → P (key, v) := by
  cases value <;> simp

theorem forall_campaignItems (c : Campaign) :
    (∀ i ∈ campaignItems c, Printable i.1 ∧ Printable i.2) ↔ PrintableCampaign c := by
  have hnames : ∀ n ∈ ["name", "source", "medium", "term", "content",
      "id"], Printable n := by decide
  simp only [List.forall_mem_cons, List.not_mem_nil, false_implies, implies_true, and_true] at hnames
  obtain ⟨hname, hsource, hmedium, hterm, hcontent, hid⟩ := hnames
  simp only [campaignItems, List.forall_mem_append, forall_field, hname, hsource, hmedium, hterm, hcontent, hid,
    implies_true, true_and, PrintableCampaign, Campaign.fields, List.mem_cons, List.not_mem_nil, or_false, or_imp,
    forall_and, and_assoc]

section Members

variable {ms : List (Str × Str)} (hnames : ∀ n ∈ ms.map (·.1), n.all isPlain = true)
include hnames

theorem controlFree_members : ControlFree (objectText ms) ↔ ∀ w ∈ ms.map (·.2), ControlFree w := by
  rw [controlFree_objectText, List.forall_mem_map]
  rw [List.forall_mem_map] at hnames
  refine forall₂_congr fun m hm => and_iff_right fun c hc => ?_
  have hplain := List.all_eq_true.1 (hnames m hm) c hc
  simp only [isPlain, Bool.and_eq_true, decide_eq_true_eq] at hplain
  exact hplain.1.1

theorem plain_members (hvalues : ∀ w ∈ ms.map (·.2), ValueText True w) :
    ∀ m ∈ ms, IsName m.1 ∧ ValueText True m.2 := by
  rw [List.forall_mem_map] at hnames hvalues
  exact fun m hm => ⟨isName_of_isPlain (hnames m hm), hvalues m hm⟩

end Members

theorem controlFree_stringMembers (items : List (Str × Str)) :
    ControlFree (objectText (stringMembers items)) ↔ ∀ i ∈ items, Printable i.1 ∧ Printable i.2 := by
  rw [controlFree_objectText, stringMembers, List.forall_mem_map]
  simp only [controlFree_jsonEscape, controlFree_jsonString]

theorem valueText_stringMembers {items : List (Str × Str)} (h : ∀ i ∈ items, Printable i.1 ∧ Printable i.2) :
    ValueText True (objectText (stringMembers items)) := by
  have hmembers : ∀ m ∈ stringMembers items, IsName m.1 ∧ ValueText True m.2 := by
    rw [stringMembers, List.forall_mem_map]
    exact fun i hi => ⟨isName_jsonEscape (h i hi).1,
      (valueText_jsonString i.2).congr (iff_of_true (h i hi).2 trivial)⟩
  exact (valueText_objectText hmembers).congr (by simp)

theorem controlFree_campaignText (campaign : Option Campaign) :
    ControlFree (campaignText campaign) ↔ ∀ c ∈ campaign, PrintableCampaign c := by
  cases campaign with
  | none => exact iff_of_true (by decide) (by simp)
  | some c =>
    rw [campaignText_some, controlFree_stringMembers, forall_campaignItems]
    simp

theorem controlFree_jsonOptional (o : Option Str) : ControlFree (jsonOptional o) ↔ ∀ t ∈ o, Printable t := by
  cases o with
  | none => exact iff_of_true (by decide) (by simp)
  | some t => simpa [jsonOptional] using controlFree_jsonString t

/-- The names of the members of a view and of its statistics. -/
theorem viewMembers_names (link : LinkView) : ∀ n ∈ (viewMembers link).map (·.1), n.all isPlain = true := by
  change ∀ n ∈ ["id".toList, "slug".toList, "url".toList, "short_url".toList, "created_at".toList,
    "updated_at", "status", "redirect_type", "tags", "metadata",
    "campaign", "stats"], n.all isPlain = true
  decide

theorem counterMembers_names (stats : Stats) : ∀ n ∈ (counterMembers stats).map (·.1), n.all isPlain = true := by
  change ∀ n ∈ ["total_redirects".toList, "redirects_24h".toList, "redirects_7d".toList,
    "last_accessed_at"], n.all isPlain = true
  decide

theorem controlFree_counterMembers (stats : Stats) :
    ControlFree (objectText (counterMembers stats)) ↔ ∀ t ∈ stats.lastAccessedAt, Printable t := by
  rw [controlFree_members (counterMembers_names stats), ← controlFree_jsonOptional]
  simp only [counterMembers, List.map_cons, List.map_nil, List.forall_mem_cons, controlFree_decimal, true_and,
    List.not_mem_nil, false_implies, implies_true, and_true]

theorem forall_sortedItems (metadata : UnorderedMap Str Str) :
    (∀ i ∈ sortedItems metadata, Printable i.1 ∧ Printable i.2) ↔ PrintableMetadata metadata :=
  ⟨fun h k v hkv => h (k, v) (mem_sortedItems.2 hkv), fun h i hi => h i.1 i.2 (mem_sortedItems.1 hi)⟩

theorem printable_linkStatusToString (status : LinkStatus) : Printable (linkStatusToString status) := by
  cases status <;> decide

theorem printable_redirectTypeToString (type : RedirectType) : Printable (redirectTypeToString type) := by
  cases type <;> decide

/-- **Which views are printed without control characters.** -/
theorem controlFree_view_iff (link : LinkView) : ControlFree (serializeLinkViewJson link) ↔ PrintableView link := by
  rw [serializeLinkViewJson_members, controlFree_members (viewMembers_names link)]
  simp only [viewMembers, List.map_cons, List.map_nil, List.forall_mem_cons, controlFree_jsonString,
    controlFree_arrayText, List.forall_mem_map, controlFree_stringMembers, controlFree_campaignText,
    controlFree_counterMembers, printable_linkStatusToString, printable_redirectTypeToString, true_and,
    List.not_mem_nil, false_implies, implies_true, and_true, forall_sortedItems]
  constructor
  · rintro ⟨hid, hslug, hurl, hshort, hcreated, hupdated, htags, hmetadata, hcampaign, hlast⟩
    exact ⟨hid, hslug, hurl, hshort, hcreated, hupdated, htags, hmetadata, hcampaign, hlast⟩
  · intro h
    exact ⟨h.id, h.slug, h.targetUrl, h.shortUrl, h.createdAt, h.updatedAt, h.tags, h.metadata, h.campaign,
      h.lastAccessedAt⟩

theorem valueText_printable {s : Str} (h : Printable s) : ValueText True (jsonString s) :=
  (valueText_jsonString s).congr (iff_of_true h trivial)

/-- **Views of printable texts are JSON objects.** -/
theorem PrintableView.isJsonObject {link : LinkView} (h : PrintableView link) :
    IsJsonObject (serializeLinkViewJson link) := by
  have htags : ValueText True (arrayText (link.tags.map jsonString)) := by
    refine valueText_arrayText (List.forall_mem_map.2 fun t ht => valueText_printable (h.tags t ht))
  have hmetadata := valueText_stringMembers ((forall_sortedItems _).2 h.metadata)
  have hcampaign : ValueText True (campaignText link.campaign) := by
    cases hc : link.campaign with
    | none => exact valueText_null
    | some c =>
      rw [campaignText_some]
      exact valueText_stringMembers ((forall_campaignItems c).2 (h.campaign c hc))
  have hlast : ValueText True (jsonOptional link.stats.lastAccessedAt) := by
    cases ht : link.stats.lastAccessedAt with
    | none => exact valueText_null
    | some t => exact valueText_printable (h.lastAccessedAt t ht)
  have hcounters : ValueText True (objectText (counterMembers link.stats)) := by
    refine (valueText_objectText (plain_members (counterMembers_names _) ?_)).congr (by simp)
    simp only [counterMembers, List.map_cons, List.map_nil, List.forall_mem_cons, valueText_decimal, hlast,
      List.not_mem_nil, false_implies, implies_true, and_true]
  have hmembers : ∀ m ∈ viewMembers link, IsName m.1 ∧ ValueText True m.2 := by
    refine plain_members (viewMembers_names link) ?_
    simp only [viewMembers, List.map_cons, List.map_nil, List.forall_mem_cons, List.not_mem_nil, false_implies,
      implies_true, and_true]
    exact ⟨valueText_printable h.id, valueText_printable h.slug, valueText_printable h.targetUrl,
      valueText_printable h.shortUrl, valueText_printable h.createdAt, valueText_printable h.updatedAt,
      valueText_printable (printable_linkStatusToString _), valueText_printable (printable_redirectTypeToString _),
      htags, hmetadata, hcampaign, hcounters⟩
  rw [serializeLinkViewJson_members]
  exact ⟨(isJson_objectText hmembers).2 (by simp), rfl⟩

/-- **When the text of a view is legal.** -/
theorem serializeLinkViewJson_legal_iff (link : LinkView) :
    LegalText (serializeLinkViewJson link) ↔ PrintableView link :=
  ⟨fun h => (controlFree_view_iff link).1 h.controlFree, fun h => ⟨(controlFree_view_iff link).2 h, h.isJsonObject⟩⟩

/-! ## What the service makes itself -/

/-- The texts of a link that no command gives. -/
structure OwnPrintable (l : Link) : Prop where
  id : Printable l.id
  slug : Printable l.slug
  createdAt : Printable l.createdAt
  updatedAt : Printable l.updatedAt
  lastAccessedAt : ∀ t ∈ l.stats.lastAccessedAt, Printable t

theorem controlFree_of_isSlugChar {s : Str} (h : ∀ c ∈ s, isSlugChar c = true) : ControlFree s := by
  intro c hc
  have hslug := h c hc
  simp only [isSlugChar, Bool.or_eq_true, beq_iff_eq, isAlphanum_iff] at hslug
  rcases hslug with (h | rfl) | rfl
  · omega
  · decide
  · decide

theorem printable_generateId (draws : Draws) : Printable (generateId draws) := by
  refine (controlFree_of_isSlugChar fun c hc => ?_).printable
  simp [isSlugChar, generateSlug_alphanum _ _ c hc]

theorem printable_currentTimestamp (now : TimePoint) : Printable (currentTimestamp now) := by
  have hdigit : ∀ n, 32 ≤ (digit n).toNat := fun n => by
    have := (isDigit_iff _).1 (digit_isDigit n)
    omega
  refine ControlFree.printable ?_
  simp [ControlFree, currentTimestamp, formatTimestamp, putTime, digits4, digits2, hdigit]

theorem isTagChar_controlFree {c : Char} (h : c.isAlphanum ∨ c = ':' ∨ c = '_' ∨ c = '-') : 32 ≤ c.toNat := by
  rw [isAlphanum_iff] at h
  rcases h with h | rfl | rfl | rfl
  · omega
  · decide
  · decide
  · decide

/-- **Identifiers, slugs and timestamps are printable**, whatever the operation. -/
theorem Writes.ownPrintable {op : Op} {old : Option Link} {l : Link} (h : Writes op old l)
    (hold : ∀ m ∈ old, OwnPrintable m) : OwnPrintable l := by
  cases h with
  | @created config env command st l hcommand hbuild =>
    obtain ⟨hbuilt, hid, hcreated, hupdated, -, -⟩ := buildLink_spec hbuild
    refine ⟨?_, (controlFree_of_isSlugChar (chooseSlug_chars hbuilt.slug)).printable, ?_, ?_, ?_⟩
    · rw [hid]
      exact printable_generateId _
    · rw [hcreated]
      exact printable_currentTimestamp _
    · rw [hupdated]
      exact printable_currentTimestamp _
    · rw [hbuilt.stats]
      exact fun t ht => nomatch ht
  | @changed config env c slug f m m' hcommand hc hf =>
    -- a change keeps what the service has made, and stamps the time
    have hm := hold m rfl
    have he := change_edit (t := currentTimestamp (env.clock 0)) hc hf
    refine ⟨?_, ?_, ?_, printable_currentTimestamp _, ?_⟩
    · rw [he.version.id]
      exact hm.id
    · rw [he.version.slug]
      exact hm.slug
    · rw [he.version.createdAt]
      exact hm.createdAt
    · rw [he.stats]
      exact hm.lastAccessedAt
  | counted m now =>
    have hm := hold m rfl
    refine ⟨hm.id, hm.slug, hm.createdAt, hm.updatedAt, ?_⟩
    rintro _ ⟨⟩
    exact printable_currentTimestamp now

/-! ## What commands give -/

/-- The texts of a link that commands give. -/
structure GivenPrintable (l : Link) : Prop where
  targetUrl : Printable l.targetUrl
  metadata : PrintableMetadata l.metadata
  campaign : ∀ c ∈ l.campaign, PrintableCampaign c

/-- **A command whose texts are printable**: the URL, the metadata and the campaign that it gives. -/
def PrintableCommand : Command → Prop
  | .createLink command => Printable command.targetUrl ∧ PrintableMetadata command.metadata ∧
      ∀ c ∈ command.campaign, PrintableCampaign c
  | .updateLink command => (∀ metadata ∈ command.metadata, PrintableMetadata metadata) ∧
      ∀ c, command.campaign = some (some c) → PrintableCampaign c
  | _ => True

/-- The texts of the operation are printable. -/
def PrintableOp (op : Op) : Prop :=
  ∀ config env c, op.command? = some (config, env, c) → PrintableCommand c

theorem printable_append {s t : Str} : Printable (s ++ t) ↔ Printable s ∧ Printable t := List.forall_mem_append

theorem printable_toLower {s : Str} (h : Printable s) : Printable (toLower s) := by
  intro c hc
  obtain ⟨d, hd, rfl⟩ := List.mem_map.1 hc
  rcases toLower_cases d with hsame | ⟨hlow, -, hlower⟩
  · rw [hsame]
    exact h d hd
  · have hnot : ¬d.toLower.toNat < 32 := by omega
    simp [isBareControl, hnot]

/-- Normalizing a URL brings no control character in. -/
theorem printable_normalizeTargetUrl {input u : Str} {config : ServerConfig} (h : Printable input)
    (hu : normalizeTargetUrl input config = some u) : Printable u := by
  obtain ⟨p, -, htrim, rfl⟩ := normalizeTargetUrl_iff.1 hu
  have htext : Printable p.text := by
    rw [← htrim]
    exact fun c hc => h c ((trim_sublist input).subset hc)
  rw [TargetParts.text, TargetParts.authority, printable_append, printable_append, printable_append,
    printable_append] at htext
  obtain ⟨⟨hscheme, hslashes⟩, ⟨hhost, hport⟩, hsuffix⟩ := htext
  rw [TargetParts.normal, printable_append, printable_append, printable_append, printable_append]
  exact ⟨⟨printable_toLower hscheme, hslashes⟩,
    ⟨printable_toLower hhost, fun c hc => hport c (p.shownPort_subset hc)⟩, hsuffix⟩

/-- **A printable operation writes printable links.** -/
theorem Writes.givenPrintable {op : Op} {old : Option Link} {l : Link} (h : Writes op old l) (hop : PrintableOp op)
    (hold : ∀ m ∈ old, GivenPrintable m) : GivenPrintable l := by
  cases h with
  | @created config env command st l hcommand hbuild =>
    obtain ⟨hurl, hmetadata, hcampaign⟩ := hop _ _ _ hcommand
    obtain ⟨hbuilt, -, -, -, hmeta, hcamp⟩ := buildLink_spec hbuild
    refine ⟨printable_normalizeTargetUrl hurl hbuilt.targetUrl, ?_, ?_⟩
    · rw [hmeta]
      exact hmetadata
    · rw [hcamp]
      exact hcampaign
  | @changed config env c slug f m m' hcommand hc hf =>
    have hm := hold m rfl
    -- the change is the patch of the command
    have hpatch : { m' with updatedAt := currentTimestamp (env.clock 0) } =
        (c.patch config env).apply (currentTimestamp (env.clock 0)) m := by
      rcases change_eq_patch config env hc with ⟨e, he⟩ | hok
      · rw [he] at hf
        cases hf
      · obtain ⟨l', hl', heq⟩ := hok (currentTimestamp (env.clock 0)) m
        rw [hf] at hl'
        cases hl'
        exact heq
    rw [hpatch]
    have hcommand := hop _ _ _ hcommand
    cases c with
    | updateLink command =>
      refine ⟨hm.targetUrl, ?_, ?_⟩
      · change PrintableMetadata (command.metadata.getD m.metadata)
        cases hmeta : command.metadata with
        | none => exact hm.metadata
        | some metadata => exact hcommand.1 metadata hmeta
      · change ∀ c ∈ command.campaign.getD m.campaign, PrintableCampaign c
        rcases hcamp : command.campaign with _ | _ | campaign
        · exact hm.campaign
        · exact fun c hc => nomatch hc
        · rintro _ ⟨⟩
          exact hcommand.2 campaign hcamp
    | deleteLink command => exact ⟨hm.targetUrl, hm.metadata, hm.campaign⟩
    | setLinkEnabled command => exact ⟨hm.targetUrl, hm.metadata, hm.campaign⟩
    | restoreLink command => exact ⟨hm.targetUrl, hm.metadata, hm.campaign⟩
    | createLink command => cases hc
    | getLink query => cases hc
    | previewLink query => cases hc
  | counted m now =>
    have hm := hold m rfl
    exact ⟨hm.targetUrl, hm.metadata, hm.campaign⟩

/-! ## Stored links -/

theorem printable_shortUrlFor {slug : Str} (hslug : Printable slug) (config : ServerConfig) :
    Printable (shortUrlFor config slug) ↔ Printable config.shortenerBaseDomain := by
  have hslash : Printable ['/'] := by decide
  rw [shortUrlFor, printable_append, printable_append, and_iff_left hslug, and_iff_left hslash]
  constructor
  · -- only slashes are left out
    intro h
    rw [← List.rdropWhile_append_rtakeWhile (p := (· == '/')) (l := config.shortenerBaseDomain), printable_append]
    refine ⟨h, fun c hc => ?_⟩
    obtain rfl : c = '/' := by simpa using List.mem_rtakeWhile_imp hc
    decide
  · exact fun h c hc => h c ((List.rdropWhile_prefix _ _).subset hc)

/-- **The text of a stored link**, after any run: it is legal exactly if what commands have given and the base domain
are printable; and what they have given is, if they gave only printable texts. -/
theorem stored_view_legal (ops : List Op) (l : Link) (hl : InStore (worldAfter ops) l) :
    (∀ (config : ServerConfig) (now : TimePoint), LegalText (serializeLinkViewJson (toView config l now)) ↔
      GivenPrintable l ∧ Printable config.shortenerBaseDomain) ∧
    ((∀ op ∈ ops, PrintableOp op) → GivenPrintable l) := by
  have hown : OwnPrintable l := stored_invariant (fun _ _ _ _ hwrite hold => hwrite.ownPrintable hold) hl
  have htags : ∀ t ∈ l.tags, Printable t := fun t ht =>
    ControlFree.printable fun c hc => isTagChar_controlFree ((hl.validLink.tags.tag t ht).2.2 c hc)
  refine ⟨fun config now => ?_, fun hops =>
    stored_invariant (fun op hop _ _ hwrite hold => hwrite.givenPrintable (hops op hop) hold) hl⟩
  rw [serializeLinkViewJson_legal_iff]
  constructor
  · intro h
    exact ⟨⟨h.targetUrl, h.metadata, h.campaign⟩, (printable_shortUrlFor hown.slug config).1 h.shortUrl⟩
  · rintro ⟨hgiven, hbase⟩
    exact ⟨hown.id, hown.slug, hgiven.targetUrl, (printable_shortUrlFor hown.slug config).2 hbase, hown.createdAt,
      hown.updatedAt, htags, hgiven.metadata, hgiven.campaign, hown.lastAccessedAt⟩

theorem printableOp_command {config : ServerConfig} {env : Env} {c : Command} (h : PrintableCommand c) :
    PrintableOp (.command config env c) := by
  rintro _ _ _ ⟨⟩
  exact h

theorem stored_view_legal_sample :
    ∃ l, InStore (worldAfter sampleRun) l ∧ LegalText (serializeLinkViewJson (toView {} l 0)) := by
  have hsome : ((worldAfter sampleRun).links.repository.byId.lookup (List.replicate 20 '0')).isSome := by
    decide +kernel
  obtain ⟨l, hl⟩ := Option.isSome_iff_exists.1 hsome
  have hops : ∀ op ∈ sampleRun, PrintableOp op := by
    simp only [sampleRun, List.forall_mem_cons, List.not_mem_nil, false_implies, implies_true, and_true]
    refine ⟨printableOp_command ⟨by decide, fun k v hkv => ?_, fun c hc => nomatch hc⟩, printableOp_command trivial,
      printableOp_command trivial, printableOp_command trivial, printableOp_command trivial⟩
    simp at hkv
  have hstored : InStore (worldAfter sampleRun) l := .inl ⟨_, hl⟩
  obtain ⟨hlegal, hgiven⟩ := stored_view_legal sampleRun l hstored
  exact ⟨l, hstored, (hlegal {} 0).2 ⟨hgiven hops, by decide⟩⟩

/-- A campaign whose name holds the control character 0x01. -/
def garbledCampaign : Campaign where
  name := some "spring\x01sale"

/-- A run that stores it. -/
def garbledRun : List Op :=
  [.command {} .still (.createLink { targetUrl := "http://example.com", campaign := some garbledCampaign })]

/-- **A control character in the name of a campaign is stored, and printed as it is.** -/
theorem control_character_printed :
    ∃ l, InStore (worldAfter garbledRun) l ∧ ¬ControlFree (serializeLinkViewJson (toView {} l 0)) := by
  have hstored : ((worldAfter garbledRun).links.repository.byId.lookup (List.replicate 20 '0')).map (·.campaign) =
      some (some garbledCampaign) := by
    decide +kernel
  obtain ⟨l, hl, hcampaign⟩ := Option.map_eq_some_iff.1 hstored
  refine ⟨l, .inl ⟨_, hl⟩, fun h => ?_⟩
  have hname := ((controlFree_view_iff _).1 h).campaign garbledCampaign hcampaign "spring\x01sale" (by decide)
  exact absurd hname (by decide)

end UrlShortener

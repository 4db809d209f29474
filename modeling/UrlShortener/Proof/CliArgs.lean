import UrlShortener.Calls.Failure
import UrlShortener.Proof.RowMapper
import UrlShortener.Spec.Cli

/-!
# What can be said on the command line

* `Expressible`: the commands that the arguments of `link` can stand for, verb by verb.
* `command_line_exact`: the commands that `parseLinkCommand` returns are exactly these, with every library that reads
  long options.

The texts of a command are free, apart from those that the syntax of a flag takes away: an empty text mostly is not
accepted, `--tags` and `--metadata` of `update` are cut at commas, and the word `clear` is no expiry. The arguments are
texts; those of a process hold no NUL, so a command line of a shell says the commands whose texts hold none.
-/

namespace UrlShortener.Cli

open Options (CommandLineParser Description VariablesMap LongOptions Proper Agrees)
open Storage (mem_sortedItems foldl_insert_sortedItems)
open Text (cut cut_singleton cut_eq cut_singleton_not_mem not_mem_of_mem_splitOn)

variable {vm vm' : VariablesMap} {name missing : String} {value key : Str}

/-! ## Texts -/

theorem requireNonEmpty_eq_ok {flag : Str} {u : Unit} : requireNonEmpty flag value = .ok u ↔ value ≠ [] := by
  unfold requireNonEmpty
  split
  · simp [*]
  · simp [*]

theorem requiredText_eq_ok : requiredText vm name missing = .ok value ↔
    vm.value name.toList = some value ∧ value ≠ [] := by
  unfold requiredText
  cases vm.value name.toList with
  | none => simp
  | some v =>
    constructor
    · intro h
      obtain ⟨u, hne, h⟩ := bind_eq_ok h
      cases h
      exact ⟨rfl, requireNonEmpty_eq_ok.1 hne⟩
    · rintro ⟨heq, hne⟩
      cases heq
      simp only [requireNonEmpty, if_neg hne]
      rfl

theorem optionalText_eq_ok {o : Option Str} : optionalText vm name = .ok o ↔
    vm.value name.toList = o ∧ o ≠ some [] := by
  unfold optionalText
  cases vm.value name.toList with
  | none =>
    constructor
    · intro h
      cases h
      exact ⟨rfl, by simp⟩
    · rintro ⟨rfl, -⟩
      rfl
  | some v =>
    constructor
    · intro h
      obtain ⟨u, hne, h⟩ := bind_eq_ok h
      cases h
      exact ⟨rfl, by simpa using requireNonEmpty_eq_ok.1 hne⟩
    · rintro ⟨rfl, hne⟩
      have hv : v ≠ [] := by simpa using hne
      simp only [requireNonEmpty, if_neg hv]
      rfl

/-- A text for a boolean. -/
def boolText (b : Bool) : Str := if b then "true" else "false"

theorem enabledFlag_of_text {e : Option Bool} (h : vm.value "enabled" = e.map boolText) :
    enabledFlag vm = .ok e := by
  unfold enabledFlag
  rw [h]
  cases e with
  | none => rfl
  | some b => cases b <;> rfl

theorem redirectTypeFlag_of_text {t : Option RedirectType}
    (h : vm.value "redirect-type" = t.map redirectTypeToString) : redirectTypeFlag vm = .ok t := by
  unfold redirectTypeFlag
  rw [h]
  cases t with
  | none => rfl
  | some t => cases t <;> rfl

/-! ## Lists -/

theorem splitCommaList_plain {texts : List Str} (h : splitCommaList value = texts) :
    texts ≠ [[]] ∧ ∀ text ∈ texts, ',' ∉ text := by
  subst h
  unfold splitCommaList
  split
  · simp
  · rename_i hne
    refine ⟨?_, fun text htext => not_mem_of_mem_splitOn htext⟩
    intro heq
    have hjoin : [','].intercalate (value.splitOn ',') = value := List.intercalate_splitOn ','
    rw [heq] at hjoin
    exact hne hjoin.symm

theorem splitCommaList_commaSep {texts : List Str} (hne : texts ≠ [[]]) (h : ∀ text ∈ texts, ',' ∉ text) :
    splitCommaList (commaSep texts) = texts := by
  unfold splitCommaList commaSep
  match texts with
  | [] => rfl
  | [text] =>
    have htext : text ≠ [] := fun heq => hne (by rw [heq])
    rw [if_neg (by simpa using htext), List.splitOn_intercalate ',' h (by simp)]
  | text :: next :: rest =>
    rw [if_neg (by simp), List.splitOn_intercalate ',' h (by simp)]

/-- The entries that are read, as pairs. -/
theorem foldlM_entries {entry : Str → Except Str (Str × Str)} {texts : List Str} {acc m : UnorderedMap Str Str} :
    texts.foldlM (fun parsed text => (entry text).map fun p => parsed.insert p.1 p.2) acc = .ok m ↔
      ∃ pairs, List.Forall₂ (fun text p => entry text = .ok p) texts pairs ∧
        pairs.foldl (fun parsed p => parsed.insert p.1 p.2) acc = m := by
  induction texts generalizing acc with
  | nil =>
    constructor
    · intro h
      cases h
      exact ⟨[], .nil, rfl⟩
    · rintro ⟨pairs, hpairs, rfl⟩
      cases hpairs
      rfl
  | cons text texts ih =>
    rw [List.foldlM_cons]
    constructor
    · intro h
      obtain ⟨acc', hentry, h⟩ := bind_eq_ok h
      obtain ⟨pairs, hpairs, hm⟩ := ih.1 h
      cases hp : entry text with
      | error e =>
        rw [hp] at hentry
        cases hentry
      | ok p =>
        rw [hp] at hentry
        cases hentry
        exact ⟨p :: pairs, .cons hp hpairs, hm⟩
    · rintro ⟨pairs, hpairs, hm⟩
      cases hpairs with
      | cons hp hpairs =>
        rw [hp]
        exact ih.2 ⟨_, hpairs, hm⟩

theorem readEntries_mem {entry : Str → Except Str (Str × Str)} {texts : List Str} {m : UnorderedMap Str Str}
    (h : readEntries entry texts = .ok m) (hkey : m.lookup key = some value) :
    ∃ text ∈ texts, entry text = .ok (key, value) := by
  obtain ⟨pairs, hpairs, rfl⟩ := foldlM_entries.1 h
  have hmem : (key, value) ∈ pairs := Sql.mem_of_lookup_toMap hkey
  obtain ⟨i, hi, hget⟩ := List.getElem_of_mem hmem
  have hi' : i < texts.length := by rw [hpairs.length_eq]; exact hi
  refine ⟨texts[i], List.getElem_mem hi', ?_⟩
  have hat := hpairs.get hi' hi
  rw [← hget]
  exact hat

/-- The text of an entry. -/
def entryText (item : Str × Str) : Str := item.1 ++ '=' :: item.2

/-- Texts of all entries of a map are read as that map. -/
theorem readEntries_sortedItems {entry : Str → Except Str (Str × Str)} (m : UnorderedMap Str Str)
    (h : ∀ key value, m.lookup key = some value → entry (entryText (key, value)) = .ok (key, value)) :
    readEntries entry ((sortedItems m).map entryText) = .ok m := by
  refine foldlM_entries.2 ⟨sortedItems m, ?_, foldl_insert_sortedItems m⟩
  rw [List.forall₂_map_left_iff]
  refine List.forall₂_same.2 fun item hitem => ?_
  exact h item.1 item.2 (mem_sortedItems.1 hitem)

/-- An entry is cut at its first equals sign, and what is cut may be refused. -/
theorem entry_eq_ok {text refusal : Str} {p : Str × Str} (refused : Str × Str → Prop) [DecidablePred refused] :
    (match cut ['='] text with
      | none => .error refusal
      | some (key, value) => if refused (key, value) then .error refusal else .ok (key, value) : Except Str _) = .ok p ↔
      text = entryText p ∧ '=' ∉ p.1 ∧ ¬refused p := by
  constructor
  · intro h
    cases hcut : cut ['='] text with
    | none => simp [hcut] at h
    | some q =>
      simp only [hcut] at h
      split at h
      · cases h
      · rename_i hfine
        cases h
        refine ⟨?_, cut_singleton_not_mem hcut, hfine⟩
        rw [cut_eq hcut]
        simp [entryText]
  · rintro ⟨rfl, hkey, hfine⟩
    have hcut : cut ['='] (entryText p) = some (p.1, p.2) := cut_singleton hkey
    rw [hcut]
    exact if_neg hfine

theorem createMetadataEntry_eq_ok {text : Str} {p : Str × Str} : createMetadataEntry text = .ok p ↔
    text = entryText p ∧ p.1 ≠ [] ∧ '=' ∉ p.1 :=
  (entry_eq_ok fun p => p.1 = []).trans (and_congr_right' and_comm)

theorem updateMetadataEntry_eq_ok {text : Str} {p : Str × Str} : updateMetadataEntry text = .ok p ↔
    text = entryText p ∧ p.1 ≠ [] ∧ '=' ∉ p.1 ∧ '=' ∉ p.2 := by
  refine (entry_eq_ok fun p => p.1 = [] ∨ '=' ∈ p.2).trans (and_congr_right' ?_)
  rw [not_or, and_left_comm]

/-! ## Flags with more than two states -/

theorem expiryFlag_plain {e : Option (Option Str)} (h : expiryFlag vm = .ok e) (hvalue : e = some (some value)) :
    value ≠ [] ∧ value ≠ "clear" := by
  unfold expiryFlag at h
  subst hvalue
  cases hgiven : vm.value "expires-at" with
  | none =>
    rw [hgiven] at h
    cases h
  | some v =>
    rw [hgiven] at h
    change (if v = "clear" then _ else _) = _ at h
    split at h
    · cases h
    · rename_i hclear
      obtain ⟨u, hne, h⟩ := bind_eq_ok h
      cases h
      exact ⟨requireNonEmpty_eq_ok.1 hne, hclear⟩

theorem expiryFlag_of_text {e : Option (Option Str)}
    (h : ∀ value, e = some (some value) → value ≠ [] ∧ value ≠ "clear")
    (htext : vm.value "expires-at" = e.map fun o => o.getD "clear") : expiryFlag vm = .ok e := by
  unfold expiryFlag
  rw [htext]
  match e with
  | none => rfl
  | some none => rfl
  | some (some value) =>
    obtain ⟨hne, hclear⟩ := h value rfl
    simp only [Option.map_some, Option.getD_some, if_neg hclear, requireNonEmpty, if_neg hne]
    rfl

/-- The entries that `--metadata` of `update` can hold. -/
def PlainEntry (key value : Str) : Prop := key ≠ [] ∧ ',' ∉ key ∧ '=' ∉ key ∧ ',' ∉ value ∧ '=' ∉ value

theorem metadataFlag_plain {o : Option (UnorderedMap Str Str)} (h : metadataFlag vm = .ok o)
    {m : UnorderedMap Str Str} (hm : o = some m) (hkey : m.lookup key = some value) : PlainEntry key value := by
  unfold metadataFlag at h
  subst hm
  cases hgiven : vm.value "metadata" with
  | none =>
    rw [hgiven] at h
    cases h
  | some v =>
    rw [hgiven] at h
    change (parseMetadataList v).map some = .ok (some m) at h
    cases hlist : parseMetadataList v with
    | error e =>
      rw [hlist] at h
      cases h
    | ok m' =>
      rw [hlist] at h
      cases h
      obtain ⟨text, htext, hentry⟩ := readEntries_mem hlist hkey
      obtain ⟨rfl, hne, heq, heqv⟩ := updateMetadataEntry_eq_ok.1 hentry
      -- a piece between commas has none
      have hcomma : ',' ∉ entryText (key, value) := (splitCommaList_plain rfl).2 _ htext
      rw [entryText, List.mem_append, List.mem_cons, not_or, not_or] at hcomma
      exact ⟨hne, hcomma.1, heq, hcomma.2.2, heqv⟩

theorem metadataFlag_of_text {o : Option (UnorderedMap Str Str)}
    (h : ∀ m, o = some m → ∀ key value, m.lookup key = some value → PlainEntry key value)
    (htext : vm.value "metadata" = o.map fun m => commaSep ((sortedItems m).map entryText)) :
    metadataFlag vm = .ok o := by
  unfold metadataFlag
  rw [htext]
  cases o with
  | none => rfl
  | some m =>
    have hplain : ∀ text ∈ (sortedItems m).map entryText, ',' ∉ text ∧ text ≠ [] := by
      intro text hmem
      obtain ⟨item, hitem, rfl⟩ := List.mem_map.1 hmem
      obtain ⟨-, hkey, -, hvalue, -⟩ := h m rfl item.1 item.2 (mem_sortedItems.1 hitem)
      refine ⟨?_, by simp [entryText]⟩
      rw [entryText, List.mem_append, List.mem_cons]
      rintro (hmem | heq | hmem)
      · exact hkey hmem
      · cases heq
      · exact hvalue hmem
    have hne : (sortedItems m).map entryText ≠ [[]] := by
      intro heq
      rw [heq] at hplain
      exact (hplain [] List.mem_cons_self).2 rfl
    have hread : parseMetadataList (commaSep ((sortedItems m).map entryText)) = .ok m := by
      rw [parseMetadataList, splitCommaList_commaSep hne fun text ht => (hplain text ht).1]
      refine readEntries_sortedItems m fun key value hkey => ?_
      obtain ⟨hnil, -, heq, -, heqv⟩ := h m rfl key value hkey
      exact updateMetadataEntry_eq_ok.2 ⟨rfl, hnil, heq, heqv⟩
    change (parseMetadataList _).map some = _
    rw [hread]
    rfl

theorem campaignFlags_ne (vm : VariablesMap) : campaignFlags vm ≠ some {} := by
  intro h
  unfold campaignFlags at h
  simp only at h
  split at h
  · rename_i hsome
    rw [Option.some.injEq] at h
    simp only [Campaign.mk.injEq] at h
    obtain ⟨hname, hsource, hmedium, hterm, hcontent, hid⟩ := h
    rw [hname, hsource, hmedium, hterm, hcontent, hid] at hsome
    cases hsome
  · cases h

/-- The six texts of a campaign are given. -/
structure GivesCampaign (vm : VariablesMap) (c : Option Campaign) : Prop where
  name : vm.value "campaign-name" = c.bind Campaign.name
  source : vm.value "campaign-source" = c.bind Campaign.source
  medium : vm.value "campaign-medium" = c.bind Campaign.medium
  term : vm.value "campaign-term" = c.bind Campaign.term
  content : vm.value "campaign-content" = c.bind Campaign.content
  id : vm.value "campaign-id" = c.bind Campaign.id

theorem GivesCampaign.flags {c : Option Campaign} (h : GivesCampaign vm c) (hc : c ≠ some {}) :
    campaignFlags vm = c := by
  unfold campaignFlags
  rw [h.name, h.source, h.medium, h.term, h.content, h.id]
  cases c with
  | none => rfl
  | some c =>
    obtain ⟨name, source, medium, term, content, id⟩ := c
    simp only [Option.bind_some]
    refine if_pos ?_
    by_contra hnone
    simp only [Bool.or_eq_true, not_or, Bool.not_eq_true, Option.isSome_eq_false_iff, Option.isNone_iff_eq_none]
      at hnone
    obtain ⟨⟨⟨⟨⟨rfl, rfl⟩, rfl⟩, rfl⟩, rfl⟩, rfl⟩ := hnone
    exact hc rfl

theorem campaignUpdate_ne {o : Option (Option Campaign)} (h : campaignUpdate vm = .ok o) : o ≠ some (some {}) := by
  rintro rfl
  unfold campaignUpdate at h
  have hne := campaignFlags_ne vm
  cases hflags : campaignFlags vm with
  | none =>
    rw [hflags] at h
    cases hclear : vm.flag "clear-campaign" <;> (rw [hclear] at h; cases h)
  | some c =>
    rw [hflags] at h hne
    cases hclear : vm.flag "clear-campaign"
    · rw [hclear] at h
      cases h
      exact hne rfl
    · rw [hclear] at h
      cases h

theorem campaignUpdate_of_flags {o : Option (Option Campaign)} (hflags : campaignFlags vm = o.join)
    (hclear : vm.flag "clear-campaign" = decide (o = some none)) : campaignUpdate vm = .ok o := by
  unfold campaignUpdate
  rw [hflags, hclear]
  match o with
  | none => rfl
  | some none => rfl
  | some (some c) => rfl

theorem GivesCampaign.agrees {options : List Description} {c : Option Campaign}
    (hc : GivesCampaign vm c) (h : Agrees options vm vm') (hoptions : ∀ d ∈ campaignOptions, d ∈ options) :
    GivesCampaign vm' c where
  name := (h.value _ (hoptions _ (by decide))).trans hc.name
  source := (h.value _ (hoptions _ (by decide))).trans hc.source
  medium := (h.value _ (hoptions _ (by decide))).trans hc.medium
  term := (h.value _ (hoptions _ (by decide))).trans hc.term
  content := (h.value _ (hoptions _ (by decide))).trans hc.content
  id := (h.value _ (hoptions _ (by decide))).trans hc.id

/-! ## Verbs -/

/-- What is stored, given by tables. -/
def ofTables (values : List (Str × Option Str)) (lists : List (Str × List Str)) (flags : List (Str × Bool)) :
    VariablesMap where
  value name := (values.lookup name).join
  values name := (lists.lookup name).getD []
  flag name := (flags.lookup name).getD false

/-- The options of a campaign. -/
def campaignTable (c : Option Campaign) : List (Str × Option Str) :=
  [("campaign-name", c.bind Campaign.name), ("campaign-source", c.bind Campaign.source),
   ("campaign-medium", c.bind Campaign.medium), ("campaign-term", c.bind Campaign.term),
   ("campaign-content", c.bind Campaign.content), ("campaign-id", c.bind Campaign.id)]

variable {parser : CommandLineParser}

/-- The commands of `link create`, with the configurations it changes to. -/
structure CreateExpressible (config : ServerConfig) (command : CreateLinkCommand) (config' : ServerConfig) :
    Prop where
  targetUrl : command.targetUrl ≠ []
  slug : command.slug ≠ some []
  expiresAt : command.expiresAt ≠ some []
  metadata : ∀ key value, command.metadata.lookup key = some value → key ≠ [] ∧ '=' ∉ key
  campaign : command.campaign ≠ some {}
  config : ∃ domain allow, config' = { config with
      shortenerBaseDomain := domain, shortenerAllowPrivateTargets := allow } ∧
    (domain = config.shortenerBaseDomain ∨ domain ≠ []) ∧ (config.shortenerAllowPrivateTargets = true → allow = true)

theorem proper_createOptions : Proper createOptions where
  names := by decide +kernel
  plain := by decide +kernel

/-- What the options of `create` must hold for `command`. -/
def createVariables (command : CreateLinkCommand) (config : ServerConfig) (domain : Str) (allow : Bool) :
    VariablesMap :=
  ofTables
    ([("url".toList, some command.targetUrl), ("slug".toList, command.slug),
      ("redirect-type", command.redirectType.map redirectTypeToString),
      ("expires-at", command.expiresAt), ("enabled", command.enabled.map boolText),
      ("base-domain", if domain = config.shortenerBaseDomain then none else some domain)] ++
      campaignTable command.campaign)
    [("tag", command.tags), ("metadata", (sortedItems command.metadata).map entryText)]
    [("allow-private-targets", allow)]

theorem createArgs_expressible {args : List Str} {config config' : ServerConfig} {command : CreateLinkCommand}
    (h : parseCreateArgs parser args config = .ok (command, config')) : CreateExpressible config command config' := by
  unfold parseCreateArgs at h
  obtain ⟨vm, -, h⟩ := bind_eq_ok h
  obtain ⟨url, hurl, h⟩ := bind_eq_ok h
  obtain ⟨slug, hslug, h⟩ := bind_eq_ok h
  obtain ⟨redirectType, -, h⟩ := bind_eq_ok h
  obtain ⟨expiresAt, hexpiresAt, h⟩ := bind_eq_ok h
  obtain ⟨enabled, -, h⟩ := bind_eq_ok h
  obtain ⟨metadata, hmetadata, h⟩ := bind_eq_ok h
  obtain ⟨baseDomain, hdomain, h⟩ := bind_eq_ok h
  cases h
  refine ⟨(requiredText_eq_ok.1 hurl).2, (optionalText_eq_ok.1 hslug).2, (optionalText_eq_ok.1 hexpiresAt).2, ?_,
    campaignFlags_ne vm, _, _, rfl, ?_, fun hallow => by simp [hallow]⟩
  · intro key value hkey
    obtain ⟨text, -, hentry⟩ := readEntries_mem hmetadata hkey
    exact (createMetadataEntry_eq_ok.1 hentry).2
  · have hne := (optionalText_eq_ok.1 hdomain).2
    cases baseDomain with
    | none => exact .inl rfl
    | some domain => exact .inr (by simpa using hne)

theorem exists_createArgs (hparser : LongOptions parser) {config config' : ServerConfig} {command : CreateLinkCommand}
    (h : CreateExpressible config command config') :
    ∃ args, parseCreateArgs parser args config = .ok (command, config') := by
  obtain ⟨domain, allow, rfl, hdomain, hallow⟩ := h.config
  obtain ⟨args, vm, hargs, hagree⟩ :=
    hparser.exists_args proper_createOptions (createVariables command config domain allow)
  have hurl : requiredText vm "url" "link create requires --url <URL>." = .ok command.targetUrl :=
    requiredText_eq_ok.2 ⟨hagree.value _ (by decide), h.targetUrl⟩
  have hslug : optionalText vm "slug" = .ok command.slug :=
    optionalText_eq_ok.2 ⟨hagree.value _ (by decide), h.slug⟩
  have htype : redirectTypeFlag vm = .ok command.redirectType :=
    redirectTypeFlag_of_text (hagree.value _ (by decide))
  have hexpiry : optionalText vm "expires-at" = .ok command.expiresAt :=
    optionalText_eq_ok.2 ⟨hagree.value _ (by decide), h.expiresAt⟩
  have henabled : enabledFlag vm = .ok command.enabled := enabledFlag_of_text (hagree.value _ (by decide))
  have htags : vm.values "tag".toList = command.tags := hagree.values _ (by decide)
  have hentries : vm.values "metadata".toList = (sortedItems command.metadata).map entryText :=
    hagree.values _ (by decide)
  have hmetadata : readEntries createMetadataEntry (vm.values "metadata".toList) = .ok command.metadata := by
    rw [hentries]
    refine readEntries_sortedItems command.metadata fun key value hkey => ?_
    exact createMetadataEntry_eq_ok.2 ⟨rfl, h.metadata key value hkey⟩
  have hbase : optionalText vm "base-domain"
      = .ok (if domain = config.shortenerBaseDomain then none else some domain) := by
    refine optionalText_eq_ok.2 ⟨hagree.value _ (by decide), ?_⟩
    split
    · simp
    · rename_i hne
      simpa using hdomain.resolve_left hne
  have hcampaign : campaignFlags vm = command.campaign :=
    (GivesCampaign.agrees ⟨rfl, rfl, rfl, rfl, rfl, rfl⟩ hagree (by decide)).flags h.campaign
  have hflag : vm.flag "allow-private-targets".toList = allow := hagree.flag _ (by decide)
  refine ⟨args, ?_⟩
  unfold parseCreateArgs
  rw [hargs]
  simp only [bind, Except.bind, pure, Except.pure, hurl, hslug, htype, hexpiry, henabled, hmetadata, htags, hbase,
    hcampaign, hflag]
  have hdomain' : (if domain = config.shortenerBaseDomain then none else some domain).getD config.shortenerBaseDomain
      = domain := by
    split
    · rename_i heq
      exact heq.symm
    · rfl
  have hallow' : (allow || config.shortenerAllowPrivateTargets) = allow := by
    cases hc : config.shortenerAllowPrivateTargets with
    | false => rw [Bool.or_false]
    | true => rw [hallow hc, Bool.or_true]
  rw [hdomain', hallow']

/-- The commands of `link update`. -/
structure UpdateExpressible (command : UpdateLinkCommand) : Prop where
  slug : command.slug ≠ []
  expiresAt : ∀ value, command.expiresAt = some (some value) → value ≠ [] ∧ value ≠ "clear"
  tags : ∀ tags, command.tags = some tags → tags ≠ [[]] ∧ ∀ tag ∈ tags, ',' ∉ tag
  metadata : ∀ m, command.metadata = some m → ∀ key value, m.lookup key = some value → PlainEntry key value
  campaign : command.campaign ≠ some (some {})

theorem proper_updateOptions : Proper updateOptions where
  names := by decide +kernel
  plain := by decide +kernel

/-- What the options of `update` must hold for `command`. -/
def updateVariables (command : UpdateLinkCommand) : VariablesMap :=
  ofTables
    ([("slug".toList, some command.slug), ("enabled".toList, command.enabled.map boolText),
      ("expires-at", command.expiresAt.map fun o => o.getD "clear"),
      ("tags", command.tags.map commaSep),
      ("metadata", command.metadata.map fun m => commaSep ((sortedItems m).map entryText))] ++
      campaignTable command.campaign.join)
    [] [("clear-campaign", decide (command.campaign = some none))]

theorem updateArgs_expressible {args : List Str} {command : UpdateLinkCommand}
    (h : parseUpdateArgs parser args = .ok command) : UpdateExpressible command := by
  unfold parseUpdateArgs at h
  obtain ⟨vm, -, h⟩ := bind_eq_ok h
  obtain ⟨slug, hslug, h⟩ := bind_eq_ok h
  obtain ⟨enabled, -, h⟩ := bind_eq_ok h
  obtain ⟨expiresAt, hexpiresAt, h⟩ := bind_eq_ok h
  obtain ⟨metadata, hmetadata, h⟩ := bind_eq_ok h
  obtain ⟨campaign, hcampaign, h⟩ := bind_eq_ok h
  cases h
  refine ⟨(requiredText_eq_ok.1 hslug).2, fun _ => expiryFlag_plain hexpiresAt, ?_,
    fun _ hm _ _ => metadataFlag_plain hmetadata hm, campaignUpdate_ne hcampaign⟩
  intro tags htags
  obtain ⟨value, -, hsplit⟩ := Option.map_eq_some_iff.1 htags
  exact splitCommaList_plain hsplit

theorem exists_updateArgs (hparser : LongOptions parser) {command : UpdateLinkCommand}
    (h : UpdateExpressible command) : ∃ args, parseUpdateArgs parser args = .ok command := by
  obtain ⟨args, vm, hargs, hagree⟩ := hparser.exists_args proper_updateOptions (updateVariables command)
  have hslug : requiredText vm "slug" "link update requires --slug <SLUG>." = .ok command.slug :=
    requiredText_eq_ok.2 ⟨hagree.value _ (by decide), h.slug⟩
  have henabled : enabledFlag vm = .ok command.enabled := enabledFlag_of_text (hagree.value _ (by decide))
  have hexpiry : expiryFlag vm = .ok command.expiresAt :=
    expiryFlag_of_text h.expiresAt (hagree.value _ (by decide))
  have hmetadata : metadataFlag vm = .ok command.metadata :=
    metadataFlag_of_text h.metadata (hagree.value _ (by decide))
  have hflags : campaignFlags vm = command.campaign.join := by
    refine (GivesCampaign.agrees ⟨rfl, rfl, rfl, rfl, rfl, rfl⟩ hagree (by decide)).flags fun heq => ?_
    exact h.campaign (Option.join_eq_some_iff.1 heq)
  have hcampaign : campaignUpdate vm = .ok command.campaign :=
    campaignUpdate_of_flags hflags (hagree.flag _ (by decide))
  have htags : (vm.value "tags".toList).map splitCommaList = command.tags := by
    have htext : vm.value "tags".toList = command.tags.map commaSep := hagree.value _ (by decide)
    rw [htext]
    cases hcase : command.tags with
    | none => rfl
    | some tags =>
      obtain ⟨hne, hplain⟩ := h.tags tags hcase
      exact congrArg some (splitCommaList_commaSep hne hplain)
  refine ⟨args, ?_⟩
  unfold parseUpdateArgs
  rw [hargs]
  simp only [bind, Except.bind, pure, Except.pure, hslug, henabled, hexpiry, hmetadata, hcampaign, htags]

theorem proper_slugOptions : Proper slugOptions where
  names := by decide
  plain := by decide

theorem exists_slugOnly (hparser : LongOptions parser) (verbLabel : String) (slug : Str) :
    (∃ args, parseSlugOnly parser args verbLabel = .ok slug) ↔ slug ≠ [] := by
  constructor
  · rintro ⟨args, h⟩
    obtain ⟨vm, -, h⟩ := bind_eq_ok h
    exact (requiredText_eq_ok.1 h).2
  · intro hne
    obtain ⟨args, vm, hargs, hagree⟩ :=
      hparser.exists_args proper_slugOptions (ofTables [("slug", some slug)] [] [])
    refine ⟨args, ?_⟩
    unfold parseSlugOnly
    rw [hargs]
    exact requiredText_eq_ok.2 ⟨hagree.value _ (by decide), hne⟩

theorem proper_getLikeOptions : Proper getLikeOptions where
  names := by decide
  plain := by decide

theorem exists_getLikeArgs (hparser : LongOptions parser) (verbLabel : String) (query : GetLinkQuery) :
    (∃ args, parseGetLikeArgs parser args verbLabel = .ok query) ↔ query.value ≠ [] := by
  constructor
  · rintro ⟨args, h⟩
    obtain ⟨vm, -, h⟩ := bind_eq_ok h
    cases hslug : vm.value "slug" <;> cases hid : vm.value "id" <;> rw [hslug, hid] at h
    · cases h
    · obtain ⟨u, hne, h⟩ := bind_eq_ok h
      cases h
      exact requireNonEmpty_eq_ok.1 hne
    · obtain ⟨u, hne, h⟩ := bind_eq_ok h
      cases h
      exact requireNonEmpty_eq_ok.1 hne
    · cases h
  · intro hne
    obtain ⟨args, vm, hargs, hagree⟩ := hparser.exists_args proper_getLikeOptions
      (ofTables [("slug", if query.by_ = .slug then some query.value else none),
        ("id", if query.by_ = .id then some query.value else none)] [] [])
    have hslug : vm.value "slug" = if query.by_ = .slug then some query.value else none :=
      hagree.value _ (by decide)
    have hid : vm.value "id" = if query.by_ = .id then some query.value else none :=
      hagree.value _ (by decide)
    refine ⟨args, ?_⟩
    obtain ⟨by_, value⟩ := query
    unfold parseGetLikeArgs
    rw [hargs]
    cases by_ with
    | slug | id =>
      simp only [bind, Except.bind, hslug, hid, reduceCtorEq, if_true, if_false, requireNonEmpty, if_neg hne]
      rfl

theorem proper_statsOptions : Proper statsOptions where
  names := by decide
  plain := by decide

theorem exists_statsArgs (hparser : LongOptions parser) (query : GetLinkStatsQuery) :
    (∃ args, parseStatsArgs parser args = .ok query) ↔
      query.slug ≠ [] ∧ query.from_ ≠ [] ∧ query.to_ ≠ [] ∧ query.bucket ≠ [] := by
  constructor
  · rintro ⟨args, h⟩
    obtain ⟨vm, -, h⟩ := bind_eq_ok h
    split at h
    · cases h
    · cases h
    · cases h
    · cases h
    · obtain ⟨u, hslug, h⟩ := bind_eq_ok h
      obtain ⟨u, hfrom, h⟩ := bind_eq_ok h
      obtain ⟨u, hto, h⟩ := bind_eq_ok h
      obtain ⟨u, hbucket, h⟩ := bind_eq_ok h
      cases h
      exact ⟨requireNonEmpty_eq_ok.1 hslug, requireNonEmpty_eq_ok.1 hfrom, requireNonEmpty_eq_ok.1 hto,
        requireNonEmpty_eq_ok.1 hbucket⟩
  · rintro ⟨hslug, hfrom, hto, hbucket⟩
    obtain ⟨args, vm, hargs, hagree⟩ := hparser.exists_args proper_statsOptions
      (ofTables [("slug", some query.slug), ("from", some query.from_), ("to", some query.to_),
        ("bucket", some query.bucket)] [] [])
    have hvslug : vm.value "slug" = some query.slug := hagree.value _ (by decide)
    have hvfrom : vm.value "from" = some query.from_ := hagree.value _ (by decide)
    have hvto : vm.value "to" = some query.to_ := hagree.value _ (by decide)
    have hvbucket : vm.value "bucket" = some query.bucket := hagree.value _ (by decide)
    refine ⟨args, ?_⟩
    unfold parseStatsArgs
    rw [hargs]
    simp only [bind, Except.bind, hvslug, hvfrom, hvto, hvbucket, requireNonEmpty, if_neg hslug, if_neg hfrom,
      if_neg hto, if_neg hbucket]
    rfl

/-! ## Commands -/

/-- **The commands that the arguments of `link` can stand for**, with the configuration before and after. -/
def Expressible (config : ServerConfig) (command : LinkCliCommand) (config' : ServerConfig) : Prop :=
  match command.verb, command.payload with
  | .create, .create c => CreateExpressible config c config'
  | .get, .get q => q.value ≠ [] ∧ config' = config
  | .update, .update c => UpdateExpressible c ∧ config' = config
  | .del, .delete c => c.slug ≠ [] ∧ config' = config
  | .enable, .setEnabled c => (c.slug ≠ [] ∧ c.enabled = true) ∧ config' = config
  | .disable, .setEnabled c => (c.slug ≠ [] ∧ c.enabled = false) ∧ config' = config
  | .restore, .restore c => c.slug ≠ [] ∧ config' = config
  | .preview, .get q => q.value ≠ [] ∧ config' = config
  | .stats, .stats q => (q.slug ≠ [] ∧ q.from_ ≠ [] ∧ q.to_ ≠ [] ∧ q.bucket ≠ []) ∧ config' = config
  | _, _ => False

theorem parseLinkVerb_eq_ok {token : Str} {verb : LinkCliVerb} :
    parseLinkVerb token = .ok verb ↔ token = verbToken verb := by
  constructor
  · intro h
    unfold parseLinkVerb at h
    split_ifs at h with h₁ h₂ h₃ h₄ h₅ h₆ h₇ h₈ h₉ <;> cases h <;> assumption
  · rintro rfl
    cases verb <;> rfl

/-- The arguments behind a verb are read as its payload. -/
def Reads (parser : CommandLineParser) (config : ServerConfig) (args : List Str) (command : LinkCliCommand)
    (config' : ServerConfig) : Prop :=
  match command.verb, command.payload with
  | .create, .create c => parseCreateArgs parser args config = .ok (c, config')
  | .get, .get q => parseGetArgs parser args = .ok q ∧ config' = config
  | .update, .update c => parseUpdateArgs parser args = .ok c ∧ config' = config
  | .del, .delete c => parseDeleteArgs parser args = .ok c ∧ config' = config
  | .enable, .setEnabled c => parseSetEnabledArgs parser args true = .ok c ∧ config' = config
  | .disable, .setEnabled c => parseSetEnabledArgs parser args false = .ok c ∧ config' = config
  | .restore, .restore c => parseRestoreArgs parser args = .ok c ∧ config' = config
  | .preview, .get q => parsePreviewArgs parser args = .ok q ∧ config' = config
  | .stats, .stats q => parseStatsArgs parser args = .ok q ∧ config' = config
  | _, _ => False

theorem parseLinkCommand_verb {config config' : ServerConfig} {verbArgs : List Str} {verb : LinkCliVerb}
    {command : LinkCliCommand} : parseLinkCommand parser (verbToken verb :: verbArgs) config = .ok (command, config') ↔
      command.verb = verb ∧ Reads parser config verbArgs command config' := by
  have hverb : parseLinkVerb (verbToken verb) = .ok verb := parseLinkVerb_eq_ok.2 rfl
  obtain ⟨verb', payload⟩ := command
  simp only [parseLinkCommand, hverb, bind, Except.bind]
  constructor
  · intro h
    cases verb <;> (
      simp only [map_eq_ok, Prod.mk.injEq, LinkCliCommand.mk.injEq] at h
      grind [Reads])
  · rintro ⟨rfl, h⟩
    cases verb' <;> cases payload <;> first
      | exact absurd h id
      | (simp only [Reads] at h; simp only [map_eq_ok, Prod.mk.injEq]; grind)

theorem exists_slugCommand (hparser : LongOptions parser) (verbLabel : String) {α : Type} {make : Str → α} {c : α}
    {slug : Str} (hmake : ∀ s, make s = c ↔ s = slug) :
    (∃ args, (parseSlugOnly parser args verbLabel).map make = .ok c) ↔ slug ≠ [] := by
  simp only [map_eq_ok, hmake, exists_eq_right]
  exact exists_slugOnly hparser verbLabel slug

theorem exists_setEnabledArgs (hparser : LongOptions parser) (enabled : Bool) (c : SetLinkEnabledCommand) :
    (∃ args, parseSetEnabledArgs parser args enabled = .ok c) ↔ c.slug ≠ [] ∧ c.enabled = enabled := by
  obtain ⟨slug, enabled'⟩ := c
  by_cases h : enabled' = enabled
  · subst h
    simp only [and_true]
    exact exists_slugCommand hparser _ (by simp)
  · simp [parseSetEnabledArgs, map_eq_ok, h, Ne.symm h]

theorem exists_reads (hparser : LongOptions parser) {config config' : ServerConfig} {command : LinkCliCommand} :
    (∃ args, Reads parser config args command config') ↔ Expressible config command config' := by
  obtain ⟨verb, payload⟩ := command
  -- a verb with the payload of another is neither read nor expressible
  cases verb with
  | create =>
    cases payload with
    | create c =>
      constructor
      · rintro ⟨args, h⟩
        exact createArgs_expressible h
      · exact exists_createArgs hparser
    | _ => simp [Reads, Expressible]
  | get =>
    cases payload with
    | get q => exact exists_and_right.trans (and_congr_left' (exists_getLikeArgs hparser _ q))
    | _ => simp [Reads, Expressible]
  | update =>
    cases payload with
    | update c =>
      refine exists_and_right.trans (and_congr_left' ⟨?_, exists_updateArgs hparser⟩)
      rintro ⟨args, h⟩
      exact updateArgs_expressible h
    | _ => simp [Reads, Expressible]
  | del =>
    cases payload with
    | delete c => exact exists_and_right.trans (and_congr_left' (exists_slugCommand hparser _ (by cases c; simp)))
    | _ => simp [Reads, Expressible]
  | enable =>
    cases payload with
    | setEnabled c => exact exists_and_right.trans (and_congr_left' (exists_setEnabledArgs hparser true c))
    | _ => simp [Reads, Expressible]
  | disable =>
    cases payload with
    | setEnabled c => exact exists_and_right.trans (and_congr_left' (exists_setEnabledArgs hparser false c))
    | _ => simp [Reads, Expressible]
  | restore =>
    cases payload with
    | restore c => exact exists_and_right.trans (and_congr_left' (exists_slugCommand hparser _ (by cases c; simp)))
    | _ => simp [Reads, Expressible]
  | preview =>
    cases payload with
    | get q => exact exists_and_right.trans (and_congr_left' (exists_getLikeArgs hparser _ q))
    | _ => simp [Reads, Expressible]
  | stats =>
    cases payload with
    | stats q => exact exists_and_right.trans (and_congr_left' (exists_statsArgs hparser q))
    | _ => simp [Reads, Expressible]

theorem parseLinkCommand_reads {config config' : ServerConfig} {args : List Str} {command : LinkCliCommand}
    (h : parseLinkCommand parser args config = .ok (command, config')) :
    ∃ verbArgs, args = verbToken command.verb :: verbArgs ∧ Reads parser config verbArgs command config' := by
  cases args with
  | nil => cases h
  | cons token verbArgs =>
    cases hverb : parseLinkVerb token with
    | error e =>
      rw [parseLinkCommand, hverb] at h
      cases h
    | ok verb =>
      obtain rfl := parseLinkVerb_eq_ok.1 hverb
      obtain ⟨rfl, hreads⟩ := parseLinkCommand_verb.1 h
      exact ⟨verbArgs, rfl, hreads⟩

/-- **What can be said on the command line.** With a library that reads long options, there are arguments for a command
exactly if it is expressible. -/
theorem command_line_exact (parser : CommandLineParser) (hparser : LongOptions parser)
    (config config' : ServerConfig) (command : LinkCliCommand) :
    (∃ args, parseLinkCommand parser args config = .ok (command, config')) ↔ Expressible config command config' := by
  rw [← exists_reads hparser]
  constructor
  · rintro ⟨args, h⟩
    obtain ⟨verbArgs, -, hreads⟩ := parseLinkCommand_reads h
    exact ⟨verbArgs, hreads⟩
  · rintro ⟨verbArgs, hreads⟩
    exact ⟨verbToken command.verb :: verbArgs, parseLinkCommand_verb.2 ⟨rfl, hreads⟩⟩

/-- An update that gives a link one entry of metadata. -/
def metadataUpdate (value : Str) : LinkCliCommand :=
  ⟨.update, .update { slug := "abc", metadata := some (Finmap.singleton "key" value) }⟩

theorem singleton_plain {k v : Str} (hplain : PlainEntry k v)
    (h : (Finmap.singleton k v : UnorderedMap Str Str).lookup key = some value) : PlainEntry key value := by
  by_cases hkey : key = k
  · subst hkey
    rw [Finmap.lookup_singleton_eq] at h
    cases h
    exact hplain
  · rw [Finmap.lookup_eq_none.2 (by rwa [Finmap.mem_singleton])] at h
    cases h

/-- With `update` no value with an equals sign can be given. -/
theorem metadataUpdate_exact :
    (∃ args, parseLinkCommand Options.parseLong args {} = .ok (metadataUpdate "value", {})) ∧
      ¬∃ args, parseLinkCommand Options.parseLong args {} = .ok (metadataUpdate "a=b", {}) := by
  constructor
  · refine (command_line_exact _ Options.parseLong_longOptions {} {} _).2 ⟨⟨by decide, ?_, ?_, ?_, by decide⟩, rfl⟩
    · rintro value ⟨⟩
    · rintro tags ⟨⟩
    · rintro m ⟨⟩ key value hkey
      exact singleton_plain ⟨by decide, by decide, by decide, by decide, by decide⟩ hkey
  · intro h
    have hexpressible := (command_line_exact _ Options.parseLong_longOptions {} {} _).1 h
    have hentry := hexpressible.1.metadata _ rfl "key" "a=b" (Finmap.lookup_singleton_eq ..)
    exact hentry.2.2.2.2 (by decide)

end UrlShortener.Cli

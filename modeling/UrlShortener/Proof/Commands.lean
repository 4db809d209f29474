import UrlShortener.Calls.Failure
import UrlShortener.Proof.LinkStore
import UrlShortener.Spec.System

/-!
# What a command does

`Command.Effect` lists everything a command can do to the catalog: refuse, read, add a new link, or
replace a link by a `Version` of it. `exec_effect`: **executing a command on a store that represents a
catalog has one of these effects**, and the new store represents the new catalog. All later facts about
commands come from it.
-/

namespace UrlShortener

variable {config : ServerConfig} {env : Env} {st : LinkStore} {cat : Catalog}

/-- `l'` is a version of `l`: what is fixed when a link is created is the same. -/
structure Version (l l' : Link) : Prop where
  id : l'.id = l.id
  slug : l'.slug = l.slug
  targetUrl : l'.targetUrl = l.targetUrl
  createdAt : l'.createdAt = l.createdAt
  redirectType : l'.redirectType = l.redirectType

/-! ## Changes -/

/-- The commands that change one stored link: its slug, and the change. -/
def Command.change : Command → Option (Str × (Str → Link → Result Link))
  | .updateLink command => some (command.slug, fun _ link => applyUpdate command link)
  | .deleteLink command => some (command.slug, fun now link => .ok { link with deletedAt := some now })
  | .setLinkEnabled command => some (command.slug, fun _ link => .ok { link with enabled := command.enabled })
  | .restoreLink command => some (command.slug, fun _ link => .ok { link with deletedAt := none })
  | _ => none

theorem applyExpiry_ok {command : UpdateLinkCommand} {l l' : Link} (h : applyExpiry command l = .ok l') :
    ∃ x, l' = { l with expiresAt := x } ∧
      (x = l.expiresAt ∨ ∀ value, x = some value → (parseRfc3339Zulu value).isSome) := by
  unfold applyExpiry at h
  split at h
  · cases h
    exact ⟨_, rfl, .inl rfl⟩
  · cases h
    exact ⟨none, rfl, .inr (by simp)⟩
  · rename_i value _
    split at h
    · rename_i hp
      cases h
      exact ⟨some value, rfl, .inr fun v hv => by cases hv; exact hp⟩
    · cases h

theorem applyTags_ok {command : UpdateLinkCommand} {l l' : Link} (h : applyTags command l = .ok l') :
    ∃ t, l' = { l with tags := t } ∧ (t = l.tags ∨ ∃ raw, validateTags raw = some t) := by
  unfold applyTags at h
  split at h
  · cases h
    exact ⟨_, rfl, .inl rfl⟩
  · split at h
    · cases h
    · rename_i raw _ _ t ht
      cases h
      exact ⟨t, rfl, .inr ⟨raw, ht⟩⟩

theorem applyMetadata_ok {command : UpdateLinkCommand} {l l' : Link} (h : applyMetadata command l = .ok l') :
    ∃ m, l' = { l with metadata := m } ∧ (m = l.metadata ∨ validateMetadata m = true) := by
  unfold applyMetadata at h
  split at h
  · cases h
    exact ⟨_, rfl, .inl rfl⟩
  · split at h
    · rename_i m _ hm
      cases h
      exact ⟨m, rfl, .inr hm⟩
    · cases h

theorem applyCampaign_ok {command : UpdateLinkCommand} {l l' : Link} (h : applyCampaign command l = .ok l') :
    ∃ c, l' = { l with campaign := c } ∧ (c = l.campaign ∨ validateCampaign c = true) := by
  unfold applyCampaign at h
  split at h
  · cases h
    exact ⟨_, rfl, .inl rfl⟩
  · cases h
    exact ⟨none, rfl, .inr rfl⟩
  · split at h
    · rename_i c _ hc
      cases h
      exact ⟨some c, rfl, .inr hc⟩
    · cases h

/-- What an edit may do to a link: it sets the mutable fields, each to the old value or to one that
passed its check. -/
structure Edit (l l' : Link) : Prop where
  version : Version l l'
  stats : l'.stats = l.stats
  expiresAt : l'.expiresAt = l.expiresAt ∨ ∀ value, l'.expiresAt = some value → (parseRfc3339Zulu value).isSome
  tags : l'.tags = l.tags ∨ ∃ raw, validateTags raw = some l'.tags
  metadata : l'.metadata = l.metadata ∨ validateMetadata l'.metadata = true
  campaign : l'.campaign = l.campaign ∨ validateCampaign l'.campaign = true

theorem applyUpdate_ok {command : UpdateLinkCommand} {l l' : Link} (h : applyUpdate command l = .ok l') :
    Edit l l' ∧ l'.deletedAt = l.deletedAt ∧ l'.enabled = command.enabled.getD l.enabled := by
  unfold applyUpdate at h
  obtain ⟨l₁, h₁, h⟩ := bind_eq_ok h
  obtain ⟨l₂, h₂, h⟩ := bind_eq_ok h
  obtain ⟨l₃, h₃, h⟩ := bind_eq_ok h
  obtain ⟨x, rfl, hx⟩ := applyExpiry_ok h₁
  obtain ⟨t, rfl, ht⟩ := applyTags_ok h₂
  obtain ⟨m, rfl, hm⟩ := applyMetadata_ok h₃
  obtain ⟨c, rfl, hc⟩ := applyCampaign_ok h
  exact ⟨⟨⟨rfl, rfl, rfl, rfl, rfl⟩, rfl, hx, ht, hm, hc⟩, rfl, rfl⟩

/-- A change of a command is an edit, also with the new time of the update. -/
theorem change_edit {c : Command} {slug now t : Str} {f : Str → Link → Result Link} {l l' : Link}
    (hc : c.change = some (slug, f)) (hf : f now l = .ok l') : Edit l { l' with updatedAt := t } := by
  have hplain : ∀ d e, Edit l { l with deletedAt := d, enabled := e, updatedAt := t } := fun _ _ =>
    ⟨⟨rfl, rfl, rfl, rfl, rfl⟩, rfl, .inl rfl, .inl rfl, .inl rfl, .inl rfl⟩
  cases c with
  | updateLink command =>
    cases hc
    obtain ⟨⟨⟨h₁, h₂, h₃, h₄, h₅⟩, h₆, h₇, h₈, h₉, h₁₀⟩, -⟩ := applyUpdate_ok hf
    exact ⟨⟨h₁, h₂, h₃, h₄, h₅⟩, h₆, h₇, h₈, h₉, h₁₀⟩
  | deleteLink command => cases hc; cases hf; exact hplain _ _
  | setLinkEnabled command => cases hc; cases hf; exact hplain _ _
  | restoreLink command => cases hc; cases hf; exact hplain _ _
  | createLink command => cases hc
  | getLink query => cases hc
  | previewLink query => cases hc

theorem exists_of_isOk {r : Result LinkView} (h : r.isOk = true) : ∃ view, r = .ok view := by
  cases r with
  | error e => cases h
  | ok view => exact ⟨view, rfl⟩

/-! ## New links -/

/-- **One tag of a list**: it is of the right length and characters, and is pushed unless it is there already. -/
theorem validateTagsLoop_cons {rawTag : Str} {rest acc tags : List Str}
    (h : validateTagsLoop (rawTag :: rest) acc = some tags) :
    (1 ≤ (trim rawTag).length ∧ (trim rawTag).length ≤ 32 ∧ (trim rawTag).all isTagChar = true) ∧
      (trim rawTag ∈ acc ∧ validateTagsLoop rest acc = some tags ∨
        trim rawTag ∉ acc ∧ validateTagsLoop rest (acc ++ [trim rawTag]) = some tags) := by
  unfold validateTagsLoop at h
  simp only at h
  split at h
  · cases h
  rename_i hne
  split at h
  · cases h
  rename_i hlen
  split at h
  · cases h
  rename_i hchars
  refine ⟨⟨List.length_pos_iff.2 hne, Nat.le_of_not_lt hlen, by simpa using hchars⟩, ?_⟩
  split at h
  · rename_i hseen
    exact .inl ⟨List.contains_iff_mem.1 hseen, h⟩
  · rename_i hnew
    exact .inr ⟨fun hmem => hnew (List.contains_iff_mem.2 hmem), h⟩

/-- What `CreateLink` has checked and filled in when it writes the link `l`. -/
structure Built (config : ServerConfig) (env : Env) (command : CreateLinkCommand) (st : LinkStore) (l : Link) :
    Prop where
  targetUrl : normalizeTargetUrl command.targetUrl config = some l.targetUrl
  slug : chooseSlug config env command st = .ok l.slug
  expiresAt : createExpiry config (env.clock 0) command = .ok l.expiresAt
  tags : validateTags command.tags = some l.tags
  metadata : validateMetadata l.metadata = true
  campaign : validateCampaign l.campaign = true
  enabled : l.enabled = command.enabled.getD true
  deletedAt : l.deletedAt = none
  stats : l.stats = {}

/-- **The checks of `CreateLink`, and what it fills in by itself.** -/
theorem buildLink_spec {command : CreateLinkCommand} {l : Link} (h : buildLink config env command st = .ok l) :
    Built config env command st l ∧ l.id = generateId (env.draws 10) ∧ l.createdAt = currentTimestamp (env.clock 1) ∧
      l.updatedAt = currentTimestamp (env.clock 1) ∧ l.metadata = command.metadata ∧ l.campaign = command.campaign := by
  unfold buildLink newLink at h
  split at h
  · cases h
  rename_i url hurl
  split at h
  · cases h
  rename_i slug hslug
  split at h
  · cases h
  rename_i expiresAt hexp
  split at h
  · cases h
  rename_i tags htags
  split at h
  · cases h
  rename_i hmeta
  split at h
  · cases h
  rename_i hcamp
  cases h
  exact ⟨⟨hurl, hslug, hexp, htags, by simpa using hmeta, by simpa using hcamp, rfl, rfl, rfl⟩, rfl, rfl, rfl, rfl, rfl⟩

theorem buildLink_ok {command : CreateLinkCommand} {l : Link} (h : buildLink config env command st = .ok l) :
    Built config env command st l := (buildLink_spec h).1

/-! ## Effects -/

/-- **Everything a command can do** to the catalog, with the result it returns. -/
inductive Command.Effect (config : ServerConfig) (env : Env) (st : LinkStore) (cat : Catalog) :
    Command → Result LinkView → Catalog → Prop
  | refused (c : Command) (e : AppError) : Effect config env st cat c (.error e) cat
  | read (c : Command) (query : GetLinkQuery) (l : Link) (hc : c = .getLink query ∨ c = .previewLink query)
      (hl : cat.link l.slug = some l) (hq : query.value = match query.by_ with | .id => l.id | .slug => l.slug) :
      Effect config env st cat c (.ok (toView config l (env.clock 0))) cat
  | created (command : CreateLinkCommand) (l : Link) (hbuild : buildLink config env command st = .ok l)
      (hslug : cat.link l.slug = none) (hid : ¬ cat.HasId l.id) :
      Effect config env st cat (.createLink command) (.ok (toView config l (env.clock 2)))
        (cat.add l hslug hid)
  | changed (c : Command) (slug : Str) (f : Str → Link → Result Link) (l l' : Link)
      (hc : c.change = some (slug, f)) (hl : cat.link l.slug = some l) (hslug : l.slug = slug)
      (hf : f (currentTimestamp (env.clock 0)) l = .ok l')
      (he : Edit l { l' with updatedAt := currentTimestamp (env.clock 0) }) :
      Effect config env st cat c
        (.ok (toView config { l' with updatedAt := currentTimestamp (env.clock 0) } (env.clock 1)))
        (cat.replace l { l' with updatedAt := currentTimestamp (env.clock 0) } hl he.version.id he.version.slug)

theorem getLink_effect (h : Represents st cat) {c : Command} {query : GetLinkQuery}
    (hc : c = .getLink query ∨ c = .previewLink query) :
    Command.Effect config env st cat c (getLink config env query st).1 cat ∧
      Represents (getLink config env query st).2 cat := by
  obtain ⟨by_, value⟩ := query
  unfold getLink
  cases by_ with
  | id =>
    simp only
    cases hl : LegacyLinkStore.findById value st with
    | none => exact ⟨.refused _ _, h⟩
    | some l =>
      obtain ⟨hl, hi⟩ := h.findById.1 hl
      exact ⟨.read _ _ l hc hl hi.symm, h⟩
  | slug =>
    simp only [LegacyLinkStore.findBySlug]
    obtain ⟨hread, hst⟩ := h.getLinkForRead value
    rw [hread]
    cases hl : cat.link value with
    | none => exact ⟨.refused _ _, hst⟩
    | some l => exact ⟨.read _ _ l hc (Catalog.link_self hl) (cat.slug_eq hl).symm, hst⟩

theorem createLink_effect (h : Represents st cat) (command : CreateLinkCommand) :
    ∃ cat', Command.Effect config env st cat (.createLink command) (createLink config env command st).1 cat' ∧
      Represents (createLink config env command st).2 cat' := by
  unfold createLink
  split
  · exact ⟨cat, .refused _ _, h⟩
  · rename_i l hbuild
    split
    · exact ⟨cat, .refused _ _, h⟩
    · rename_i st' hcreate
      obtain ⟨hslug, hid, h'⟩ := h.create hcreate
      exact ⟨_, .created command l hbuild hslug hid, h'.invalidateCache _⟩

theorem modifyLink_effect (h : Represents st cat) {c : Command} {slug : Str} {f : Str → Link → Result Link}
    (hc : c.change = some (slug, f)) :
    ∃ cat', Command.Effect config env st cat c (modifyLink config env slug f st).1 cat' ∧
      Represents (modifyLink config env slug f st).2 cat' := by
  obtain ⟨hread, hst⟩ := h.getLinkForRead slug
  unfold modifyLink LegacyLinkStore.findBySlug
  split
  · rename_i st' hget
    rw [hget] at hst
    exact ⟨cat, .refused _ _, hst⟩
  · rename_i l st' hget
    rw [hget] at hread hst
    have hl : cat.link l.slug = some l := Catalog.link_self hread.symm
    simp only
    split
    · exact ⟨cat, .refused _ _, hst⟩
    · rename_i l' hf
      have he := change_edit (t := currentTimestamp (env.clock 0)) hc hf
      obtain ⟨st'', hup, hst''⟩ := hst.update hl he.version.id he.version.slug
      simp only [LegacyLinkStore.update, hup]
      exact ⟨_, .changed c slug f l l' hc hl (cat.slug_eq hread.symm) hf he, hst''⟩

/-- **A command has one of the listed effects**, and the new store represents the new catalog. -/
theorem exec_effect (h : Represents st cat) (c : Command) :
    ∃ cat', Command.Effect config env st cat c (c.exec config env st).1 cat' ∧
      Represents (c.exec config env st).2 cat' := by
  cases c with
  | createLink command => exact createLink_effect h command
  | getLink query => exact ⟨cat, getLink_effect h (.inl rfl)⟩
  | previewLink query => exact ⟨cat, getLink_effect h (.inr rfl)⟩
  | updateLink command => exact modifyLink_effect h (c := .updateLink command) rfl
  | deleteLink command => exact modifyLink_effect h (c := .deleteLink command) rfl
  | setLinkEnabled command => exact modifyLink_effect h (c := .setLinkEnabled command) rfl
  | restoreLink command => exact modifyLink_effect h (c := .restoreLink command) rfl

end UrlShortener

import UrlShortener.Proof.Redirects
import UrlShortener.Proof.Time

/-!
# Field constraints of stored links

* `ValidLink`: the constraints on the fields of a link.
* `Writes`, `stored_invariant`: what an operation writes for a link, and the induction over a run that goes with it.
* `links_valid`: **every stored link satisfies them after every run.** Creation establishes them; every
  other operation writes back a version of a stored link, with each changed field checked.
-/

namespace UrlShortener

open Runs

/-- The six fields of a campaign. -/
def Campaign.fields (c : Campaign) : List (Option Str) := [c.name, c.source, c.medium, c.term, c.content, c.id]

/-- Tags that pass `validateTags`. -/
structure ValidTags (tags : List Str) : Prop where
  length : tags.length ≤ 20
  nodup : tags.Nodup
  tag : ∀ t ∈ tags, 1 ≤ t.length ∧ t.length ≤ 32 ∧
    ∀ c ∈ t, c.isAlphanum ∨ c = ':' ∨ c = '_' ∨ c = '-'

/-- Metadata that passes `validateMetadata`. -/
structure ValidMetadata (metadata : UnorderedMap Str Str) : Prop where
  size : metadata.keys.card ≤ 50
  entry : ∀ k v, metadata.lookup k = some v → 1 ≤ k.length ∧ k.length ≤ 64 ∧ v.length ≤ 512

/-- **The constraints on a stored link.** -/
structure ValidLink (l : Link) : Prop where
  tags : ValidTags l.tags
  metadata : ValidMetadata l.metadata
  campaign : ∀ c, l.campaign = some c → ∀ v, some v ∈ c.fields → v.length ≤ 128
  expiresAt : ∀ v, l.expiresAt = some v → (parseRfc3339Zulu v).isSome
  targetUrl : ∃ input config, normalizeTargetUrl input config = some l.targetUrl
  slug : toLower l.slug ∉ reservedSlugs

/-! ## Validators -/

theorem isTagChar_iff (c : Char) : isTagChar c = true ↔ c.isAlphanum ∨ c = ':' ∨ c = '_' ∨ c = '-' := by
  simp only [isTagChar, Bool.or_eq_true, beq_iff_eq]
  tauto

/-- The loop keeps what it has pushed valid and pushes at most one tag per element. -/
theorem validateTagsLoop_spec {raw acc tags : List Str} (h : validateTagsLoop raw acc = some tags)
    (hnd : acc.Nodup) (hacc : ∀ t ∈ acc, 1 ≤ t.length ∧ t.length ≤ 32 ∧ t.all isTagChar = true) :
    tags.length ≤ acc.length + raw.length ∧ tags.Nodup ∧
      ∀ t ∈ tags, 1 ≤ t.length ∧ t.length ≤ 32 ∧ t.all isTagChar = true := by
  induction raw generalizing acc with
  | nil =>
    cases h
    exact ⟨le_rfl, hnd, hacc⟩
  | cons rawTag rest ih =>
    obtain ⟨hvalid, ⟨-, h⟩ | ⟨hnew, h⟩⟩ := validateTagsLoop_cons h
    · obtain ⟨hl, hn, ht⟩ := ih h hnd hacc
      exact ⟨by simp only [List.length_cons]; omega, hn, ht⟩
    · have hnd' : (acc ++ [trim rawTag]).Nodup := by
        rw [List.nodup_append]
        refine ⟨hnd, List.nodup_singleton _, ?_⟩
        rintro a ha b hb rfl
        rw [List.mem_singleton] at hb
        exact hnew (hb ▸ ha)
      have htag : ∀ t ∈ acc ++ [trim rawTag], 1 ≤ t.length ∧ t.length ≤ 32 ∧ t.all isTagChar = true := by
        intro t ht
        rcases List.mem_append.1 ht with ht | ht
        · exact hacc t ht
        · rw [List.mem_singleton.1 ht]
          exact hvalid
      obtain ⟨hl, hn, ht⟩ := ih h hnd' htag
      refine ⟨?_, hn, ht⟩
      simp only [List.length_append, List.length_cons, List.length_nil] at hl ⊢
      omega

theorem validateTags_valid {raw tags : List Str} (h : validateTags raw = some tags) : ValidTags tags := by
  unfold validateTags at h
  split at h
  · cases h
  rename_i hlen
  obtain ⟨hl, hn, ht⟩ := validateTagsLoop_spec h List.nodup_nil (by simp)
  refine ⟨by simp only [List.length_nil] at hl; omega, hn, fun t hmem => ?_⟩
  obtain ⟨h1, h2, h3⟩ := ht t hmem
  exact ⟨h1, h2, fun c hc => (isTagChar_iff c).1 (List.all_eq_true.1 h3 c hc)⟩

theorem validateMetadata_valid {metadata : UnorderedMap Str Str} (h : validateMetadata metadata = true) :
    ValidMetadata metadata := by
  simp only [validateMetadata, Bool.and_eq_true, decide_eq_true_eq] at h
  obtain ⟨hcard, hentry⟩ := h
  refine ⟨?_, fun k v hkv => ?_⟩
  · exact (Multiset.card_map _ _).trans_le hcard
  · have hmem : (⟨k, v⟩ : Sigma fun _ : Str => Str) ∈ metadata.entries := Finmap.lookup_eq_some_iff.1 hkv
    obtain ⟨h1, h2, h3⟩ := hentry _ hmem
    exact ⟨List.length_pos_iff.2 h1, h2, h3⟩

theorem validateCampaignField_length {field : Option Str} {v : Str} (h : validateCampaignField field = true)
    (hv : some v = field) : v.length ≤ 128 := by
  subst hv
  simpa [validateCampaignField] using h

theorem validateCampaign_valid {campaign : Option Campaign} (h : validateCampaign campaign = true) :
    ∀ c, campaign = some c → ∀ v, some v ∈ c.fields → v.length ≤ 128 := by
  rintro c rfl v hv
  simp only [validateCampaign, Bool.and_eq_true] at h
  obtain ⟨⟨⟨⟨⟨h1, h2⟩, h3⟩, h4⟩, h5⟩, h6⟩ := h
  simp only [Campaign.fields, List.mem_cons, List.not_mem_nil, or_false] at hv
  rcases hv with hv | hv | hv | hv | hv | hv
  · exact validateCampaignField_length h1 hv
  · exact validateCampaignField_length h2 hv
  · exact validateCampaignField_length h3 hv
  · exact validateCampaignField_length h4 hv
  · exact validateCampaignField_length h5 hv
  · exact validateCampaignField_length h6 hv

/-! ## Links -/

theorem createExpiry_valid {config : ServerConfig} {now : TimePoint} {command : CreateLinkCommand}
    {expiresAt : Option Str} (h : createExpiry config now command = .ok expiresAt) :
    ∀ v, expiresAt = some v → (parseRfc3339Zulu v).isSome := by
  rintro v rfl
  unfold createExpiry at h
  split at h
  · split at h
    · cases h
    · rename_i hp
      cases h
      simpa [Option.isSome_iff_ne_none] using hp
  · split at h
    · cases h
      exact parse_formatTimestamp _
    · cases h

/-- An explicit slug is checked against the reserved ones, and so is each generated one. -/
theorem chooseSlug_not_reserved {config : ServerConfig} {env : Env} {command : CreateLinkCommand}
    {st : LinkStore} {slug : Str} (h : chooseSlug config env command st = .ok slug) :
    isReservedSlug slug = false := by
  unfold chooseSlug at h
  split at h
  · split at h
    · cases h
    · split at h
      · cases h
      · rename_i hres
        split at h
        · cases h
        · cases h
          simpa using hres
  · split at h
    · rename_i slug' hgen
      cases h
      have := List.find?_some hgen
      simp only [Bool.and_eq_true, Bool.not_eq_true'] at this
      exact this.2
    · cases h

theorem Built.validLink {config : ServerConfig} {env : Env} {command : CreateLinkCommand} {st : LinkStore}
    {l : Link} (h : Built config env command st l) : ValidLink l where
  tags := validateTags_valid h.tags
  metadata := validateMetadata_valid h.metadata
  campaign := validateCampaign_valid h.campaign
  expiresAt := createExpiry_valid h.expiresAt
  targetUrl := ⟨_, _, h.targetUrl⟩
  slug := by simpa [isReservedSlug] using chooseSlug_not_reserved h.slug

theorem ValidLink.edit {l l' : Link} (h : ValidLink l) (he : Edit l l') : ValidLink l' where
  tags := by
    rcases he.tags with hs | ⟨raw, hraw⟩
    · exact hs ▸ h.tags
    · exact validateTags_valid hraw
  metadata := by
    rcases he.metadata with hs | hv
    · exact hs ▸ h.metadata
    · exact validateMetadata_valid hv
  campaign := by
    rcases he.campaign with hs | hv
    · exact hs ▸ h.campaign
    · exact validateCampaign_valid hv
  expiresAt := by
    rcases he.expiresAt with hs | hv
    · exact hs ▸ h.expiresAt
    · exact hv
  targetUrl := he.version.targetUrl ▸ h.targetUrl
  slug := he.version.slug ▸ h.slug

/-- The redirect counter does not touch a constrained field. -/
theorem ValidLink.count {l : Link} (h : ValidLink l) (now : TimePoint) : ValidLink (countRedirect l now) :=
  ⟨h.tags, h.metadata, h.campaign, h.expiresAt, h.targetUrl, h.slug⟩

/-! ## Runs -/

/-- **What an operation writes for a link**, and the link it read for that, if any: a new link, a changed one, or one
with a redirect counted. -/
inductive Writes (op : Op) : Option Link → Link → Prop
  | created {config : ServerConfig} {env : Env} {command : CreateLinkCommand} {st : LinkStore} {l : Link}
      (hcommand : op.command? = some (config, env, .createLink command))
      (hbuild : buildLink config env command st = .ok l) : Writes op none l
  | changed {config : ServerConfig} {env : Env} {c : Command} {slug : Str} {f : Str → Link → Result Link} {l l' : Link}
      (hcommand : op.command? = some (config, env, c)) (hc : c.change = some (slug, f))
      (hf : f (currentTimestamp (env.clock 0)) l = .ok l') :
      Writes op (some l) { l' with updatedAt := currentTimestamp (env.clock 0) }
  | counted (l : Link) (now : TimePoint) : Writes op (some l) (countRedirect l now)

theorem Effect.writes {op : Op} {w : World} {a : Answer} {cat cat' : Catalog} (he : Effect op w cat a cat') {s : Str}
    {l : Link} (hl : cat'.link s = some l) :
    cat.link s = some l ∨ ∃ old, Writes op old l ∧ ∀ m ∈ old, cat.link s = some m := by
  cases he with
  | quiet _ _ _ => exact .inl hl
  | command _ config env c cat' hcommand _ he =>
    generalize (c.exec config env w.links).1 = r at he
    cases he with
    | refused _ e => exact .inl hl
    | read _ query m hc hm hq => exact .inl hl
    | created command m hbuild hslug hid =>
      rw [Catalog.link_add] at hl
      split at hl
      · cases hl
        exact .inr ⟨none, .created hcommand hbuild, by simp⟩
      · exact .inl hl
    | changed _ slug f m m' hc hm hslug hf he =>
      rw [Catalog.link_replace] at hl
      split at hl
      · rename_i hs
        cases hl
        exact .inr ⟨some m, .changed hcommand hc hf, by simpa [hs] using hm⟩
      · exact .inl hl
  | redirect call m hop hcommand hreq hm _ =>
    rw [Catalog.link_replace] at hl
    split at hl
    · rename_i hs
      cases hl
      exact .inr ⟨some m, .counted m _, by simpa [hs] using hm⟩
    · exact .inl hl

/-- The link is in the repository or in the cache. -/
def InStore (w : World) (l : Link) : Prop :=
  (∃ i, w.links.repository.byId.lookup i = some l) ∨ ∃ s, w.links.cache.lookup s = some l

/-- **The rule for stored links**: what every write of a run keeps holds of every link that is stored after it. -/
theorem stored_invariant {P : Link → Prop} {ops : List Op}
    (hwrites : ∀ op ∈ ops, ∀ old l, Writes op old l → (∀ m ∈ old, P m) → P l) {l : Link}
    (hl : InStore (worldAfter ops) l) : P l := by
  have hcat : ∃ cat, Represents (worldAfter ops).links cat ∧ ∀ s l, cat.link s = some l → P l := by
    refine after_invariant_mem
      (P := fun w : World => ∃ cat, Represents w.links cat ∧ ∀ s l, cat.link s = some l → P l)
      ?_ ⟨_, Represents.empty, by simp⟩
    rintro op hop w ⟨cat, h, hall⟩
    obtain ⟨cat', he, h'⟩ := step_effect h op
    refine ⟨cat', h', fun s l hl => ?_⟩
    rcases he.writes hl with hsame | ⟨old, hwrite, hold⟩
    · exact hall s l hsame
    · exact hwrites op hop old l hwrite fun m hm => hall s m (hold m hm)
  obtain ⟨cat, h, hall⟩ := hcat
  rcases hl with ⟨i, hi⟩ | ⟨s, hs⟩
  · exact hall _ l ((h.byId i l).1 hi).1
  · exact hall s l ((h.cached s).hit hs)

theorem Writes.validLink {op : Op} {old : Option Link} {l : Link} (h : Writes op old l)
    (hold : ∀ m ∈ old, ValidLink m) : ValidLink l := by
  cases h with
  | created hcommand hbuild => exact (buildLink_ok hbuild).validLink
  | changed hcommand hc hf => exact (hold _ rfl).edit (change_edit hc hf)
  | counted m now => exact (hold m rfl).count now

theorem InStore.validLink {ops : List Op} {l : Link} (hl : InStore (worldAfter ops) l) : ValidLink l :=
  stored_invariant (fun _ _ _ _ hwrite hold => hwrite.validLink hold) hl

/-- **Every stored link is valid after every run**, whether it is found by identifier, by slug or in the
cache. -/
theorem links_valid (ops : List Op) :
    (∀ i l, (worldAfter ops).links.repository.byId.lookup i = some l → ValidLink l) ∧
    ∀ s l, (worldAfter ops).links.cache.lookup s = some l → ValidLink l :=
  ⟨fun i _ hl => InStore.validLink (.inl ⟨i, hl⟩), fun s _ hl => InStore.validLink (.inr ⟨s, hl⟩)⟩

theorem links_valid_sample :
    ∃ l, (worldAfter sampleRun).links.repository.byId.lookup (List.replicate 20 '0') = some l ∧
      ValidLink l := by
  have hsome : ((worldAfter sampleRun).links.repository.byId.lookup (List.replicate 20 '0')).isSome := by
    decide +kernel
  obtain ⟨l, hl⟩ := Option.isSome_iff_exists.1 hsome
  exact ⟨l, hl, (links_valid sampleRun).1 _ l hl⟩

end UrlShortener

import UrlShortener.Spec.Repository
import UrlShortener.Catalog.Basic
import UrlShortener.Caching.Coherence

/-!
# The link store represents a catalog

`Represents st cat`: the two indexes of the repository hold exactly the links of `cat`, and the cache
holds copies of some of them. One lemma for each operation of the store says what it does in terms of
the catalog.
-/

namespace UrlShortener

open Caching

/-- **The invariant of the store**, against the catalog it stands for. -/
structure Represents (st : LinkStore) (cat : Catalog) : Prop where
  bySlug : ∀ s i, st.repository.slugToId.lookup s = some i ↔ ∃ l, cat.link s = some l ∧ l.id = i
  byId : ∀ i l, st.repository.byId.lookup i = some l ↔ cat.link l.slug = some l ∧ l.id = i
  cached : ∀ s, CoherentAt Eq cat.link (fun s => st.cache.lookup s) s

namespace Represents

variable {st : LinkStore} {cat : Catalog}

theorem empty : Represents {} Catalog.empty where
  bySlug s i := by simp
  byId i l := by simp
  cached s := coherentAt_of_miss (by simp)

theorem getBySlug (h : Represents st cat) (s : Str) : st.repository.getBySlug s = cat.link s := by
  unfold InMemoryMetadataRepository.getBySlug
  cases hc : cat.link s with
  | none =>
    cases hi : st.repository.slugToId.lookup s with
    | none => rfl
    | some i =>
      obtain ⟨l, hl, -⟩ := (h.bySlug s i).1 hi
      rw [hc] at hl
      cases hl
  | some l =>
    rw [(h.bySlug s l.id).2 ⟨l, hc, rfl⟩]
    exact (h.byId l.id l).2 ⟨Catalog.link_self hc, rfl⟩

theorem slugExists (h : Represents st cat) (s : Str) :
    LegacyLinkStore.slugExists s st = (cat.link s).isSome := by
  unfold LegacyLinkStore.slugExists InMemoryMetadataRepository.slugExists
  rw [Bool.eq_iff_iff, Option.isSome_iff_exists, Option.isSome_iff_exists]
  constructor
  · rintro ⟨i, hi⟩
    obtain ⟨l, hl, -⟩ := (h.bySlug s i).1 hi
    exact ⟨l, hl⟩
  · rintro ⟨l, hl⟩
    exact ⟨l.id, (h.bySlug s l.id).2 ⟨l, hl, rfl⟩⟩

theorem hasId_iff (h : Represents st cat) (i : Str) :
    (st.repository.byId.lookup i).isSome ↔ cat.HasId i := by
  rw [Option.isSome_iff_exists]
  constructor
  · rintro ⟨l, hl⟩
    exact ⟨l.slug, l, (h.byId i l).1 hl⟩
  · rintro ⟨s, l, hl, rfl⟩
    exact ⟨l, (h.byId _ l).2 ⟨Catalog.link_self hl, rfl⟩⟩

/-- **A read by slug**, cached or not, returns the link of the catalog and keeps the invariant. -/
theorem getLinkForRead (h : Represents st cat) (s : Str) :
    (getLinkForRead s st).1 = cat.link s ∧ Represents (getLinkForRead s st).2 cat := by
  unfold UrlShortener.getLinkForRead
  split
  · rename_i l hl
    exact ⟨((h.cached s).hit hl).symm, h⟩
  · rw [h.getBySlug]
    split
    · rename_i hc
      exact ⟨hc.symm, h⟩
    · rename_i l hc
      refine ⟨hc.symm, h.bySlug, h.byId, fun t => ?_⟩
      by_cases hts : t = s
      · subst hts
        exact coherentAt_of_fill hc rfl (Finmap.lookup_insert _)
      · exact (h.cached t).congr rfl (Finmap.lookup_insert_of_ne _ hts)

/-- A read by identifier does not go through the cache. -/
theorem findById (h : Represents st cat) {i : Str} {l : Link} :
    LegacyLinkStore.findById i st = some l ↔ cat.link l.slug = some l ∧ l.id = i := h.byId i l

theorem invalidateCache (h : Represents st cat) (s : Str) :
    Represents (LegacyLinkStore.invalidateCache s st) cat where
  bySlug := h.bySlug
  byId := h.byId
  cached t := by
    by_cases hts : t = s
    · subst hts
      exact coherentAt_of_miss (Finmap.lookup_erase _ _)
    · exact (h.cached t).congr rfl (Finmap.lookup_erase_ne hts)

/-- **The index by identifier after `l` is written**, where only the link of its slug can have its identifier. -/
theorem byId_insert (h : Represents st cat) {l : Link}
    (hid : ∀ m, cat.link m.slug = some m → m.id = l.id → m.slug = l.slug)
    (hslug : ∀ m, cat.link l.slug = some m → m.id = l.id) (i : Str) (m : Link) :
    (st.repository.byId.insert l.id l).lookup i = some m ↔
      (if m.slug = l.slug then some l else cat.link m.slug) = some m ∧ m.id = i := by
  by_cases hi : i = l.id
  · subst hi
    rw [Finmap.lookup_insert]
    constructor
    · intro hm
      cases hm
      simp
    · rintro ⟨hm, hmi⟩
      split at hm
      · exact hm
      · rename_i hne
        exact absurd (hid m hm hmi) hne
  · rw [Finmap.lookup_insert_of_ne _ hi, h.byId]
    by_cases hm : m.slug = l.slug
    · -- what is stored under this slug has the identifier of `l`, before and after
      rw [if_pos hm, hm]
      constructor
      · rintro ⟨hml, hmi⟩
        exact absurd (hmi.symm.trans (hslug m hml)) hi
      · rintro ⟨hml, hmi⟩
        cases hml
        exact absurd hmi.symm hi
    · rw [if_neg hm]

/-- **Writing a link back** under its own identifier and slug replaces it in the catalog. The cached
copy is dropped. -/
theorem update (h : Represents st cat) {l l' : Link} (hl : cat.link l.slug = some l) (hid : l'.id = l.id)
    (hslug : l'.slug = l.slug) :
    ∃ st', updateLinkAndInvalidateCache l' st = .ok st' ∧
      Represents st' (cat.replace l l' hl hid hslug) := by
  have hold : st.repository.byId.lookup l'.id = some l := (h.byId _ l).2 ⟨hl, hid.symm⟩
  refine ⟨{ repository := { st.repository with byId := st.repository.byId.insert l'.id l' }
            cache := st.cache.erase l'.slug }, ?_, ?_, ?_, ?_⟩
  · simp [updateLinkAndInvalidateCache, InMemoryMetadataRepository.update, hold]
  · intro s i
    rw [h.bySlug, Catalog.link_replace]
    by_cases hs : s = l.slug
    · subst hs
      simp [hl, hid]
    · simp [hs]
  · intro i m
    rw [Catalog.link_replace, ← hslug]
    refine h.byId_insert (fun k hk hki => ?_) (fun k hk => ?_) i m
    · rw [hslug]
      exact cat.id_inj hk hl (hki.trans hid)
    · rw [hslug, hl] at hk
      cases hk
      exact hid.symm
  · intro s
    by_cases hs : s = l'.slug
    · subst hs
      exact coherentAt_of_miss (Finmap.lookup_erase _ _)
    · refine (h.cached s).congr ?_ (Finmap.lookup_erase_ne hs)
      rw [Catalog.link_replace, if_neg (hslug ▸ hs)]

/-- **A link that is created** has a fresh slug and identifier and is added to the catalog. -/
theorem create (h : Represents st cat) {l : Link} {st' : LinkStore}
    (hc : LegacyLinkStore.create l st = .ok st') :
    ∃ hslug hid, Represents st' (cat.add l hslug hid) := by
  unfold LegacyLinkStore.create InMemoryMetadataRepository.create at hc
  split at hc
  · rename_i repo hrepo
    split at hrepo
    · cases hrepo
    rename_i hfree
    cases hrepo
    cases hc
    rw [not_or, h.hasId_iff] at hfree
    obtain ⟨hs, hid⟩ := hfree
    have hslug : cat.link l.slug = none := by
      cases hc : cat.link l.slug with
      | none => rfl
      | some m => exact absurd ((h.bySlug _ _).2 ⟨m, hc, rfl⟩) (by simp_all)
    refine ⟨hslug, hid, ?_, ?_, ?_⟩
    · intro s i
      rw [Catalog.link_add]
      by_cases hsl : s = l.slug
      · subst hsl
        simp [Finmap.lookup_insert]
      · rw [Finmap.lookup_insert_of_ne _ hsl, if_neg hsl]
        exact h.bySlug s i
    · intro i m
      rw [Catalog.link_add]
      refine h.byId_insert (fun k hk hki => absurd ⟨_, _, hk, hki⟩ hid) (fun k hk => ?_) i m
      rw [hslug] at hk
      cases hk
    · intro s
      by_cases hsl : s = l.slug
      · -- nothing is stored under the slug, so nothing is cached under it
        subst hsl
        refine coherentAt_of_miss ?_
        cases hcache : st.cache.lookup l.slug with
        | none => rfl
        | some m => rw [(h.cached _).hit hcache] at hslug; cases hslug
      · refine (h.cached s).congr ?_ rfl
        rw [Catalog.link_add, if_neg hsl]
  · cases hc
  · cases hc

end Represents

end UrlShortener

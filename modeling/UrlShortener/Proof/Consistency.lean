import UrlShortener.Proof.Requests

/-!
# Consistency of the link store

* `links_consistent`: **in every reachable state the two indexes of the repository agree with each other
  and with the cache**, so that a read by identifier and a read by slug see the same record.
-/

namespace UrlShortener

/-- The indexes and the cache agree. -/
structure Consistent (st : LinkStore) : Prop where
  index : ∀ s i, st.repository.slugToId.lookup s = some i ↔
    ∃ l, st.repository.byId.lookup i = some l ∧ l.id = i ∧ l.slug = s
  own_id : ∀ i l, st.repository.byId.lookup i = some l → l.id = i
  slug_inj : ∀ i i' l l', st.repository.byId.lookup i = some l → st.repository.byId.lookup i' = some l' →
    l.slug = l'.slug → i = i'
  cached : ∀ s l, st.cache.lookup s = some l → st.repository.getBySlug s = some l
  slug_of_id : ∀ i l, LegacyLinkStore.findById i st = some l → (LegacyLinkStore.findBySlug l.slug st).1 = some l
  id_of_slug : ∀ s l, (LegacyLinkStore.findBySlug s st).1 = some l → LegacyLinkStore.findById l.id st = some l

theorem Represents.consistent {st : LinkStore} {cat : Catalog} (h : Represents st cat) : Consistent st where
  index s i := by
    rw [h.bySlug]
    constructor
    · rintro ⟨l, hl, hi⟩
      exact ⟨l, (h.byId i l).2 ⟨Catalog.link_self hl, hi⟩, hi, cat.slug_eq hl⟩
    · rintro ⟨l, hl, hi, hs⟩
      exact ⟨l, hs ▸ ((h.byId i l).1 hl).1, hi⟩
  own_id i l hl := ((h.byId i l).1 hl).2
  slug_inj i i' l l' hl hl' hs := by
    obtain ⟨hc, hi⟩ := (h.byId i l).1 hl
    obtain ⟨hc', hi'⟩ := (h.byId i' l').1 hl'
    rw [hs, hc'] at hc
    cases hc
    exact hi.symm.trans hi'
  cached s l hl := by
    rw [h.getBySlug]
    exact (h.cached s).hit hl
  slug_of_id i l hl := (h.getLinkForRead l.slug).1.trans (h.findById.1 hl).1
  id_of_slug s l hl := h.findById.2 ⟨Catalog.link_self ((h.getLinkForRead s).1.symm.trans hl), rfl⟩

/-- **The store is consistent after every run** of commands and requests. -/
theorem links_consistent (ops : List Op) : Consistent (worldAfter ops).links := by
  obtain ⟨cat, h⟩ := run_represents ops
  exact h.consistent

end UrlShortener

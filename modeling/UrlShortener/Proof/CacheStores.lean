import UrlShortener.Spec.LinkService
import UrlShortener.Caching.Coherence

/-!
# What the service relies on in a cache

The service needs little of a cache. A value it returns is the one held under the key, `Set` and `Delete` act on their
key, and an entry that is not overwritten stays or vanishes. When an entry vanishes is left open, so the time to live
plays no part.

A cache that writes its values as text may give back another value than the one it was given. That is good enough as
long as the value **serves** the record: while it counts as active and not expired, the record is resolved to the same
target.

* `ServesOn`: what is asked of a cache, for the keys and records in use; `Lawful` where all of them are.
* `inMemoryCacheStore_lawful`, `noopCacheStore_lawful`: the in-memory store and the absent one. Failures and evictions
  keep a store lawful.
-/

namespace UrlShortener.Storage

variable {Cache : Type} {store : ICacheStore Cache} {okKey : Str → Prop} {okRecord : LinkRecord → Prop}
  {entry : Cache → Str → Option CacheValue}

/-- At `key`, `after` holds what `before` holds, or nothing. -/
def Kept (before after : Str → Option CacheValue) (key : Str) : Prop := after key = none ∨ after key = before key

theorem Kept.refl (e : Str → Option CacheValue) (key : Str) : Kept e e key := .inr rfl

theorem Kept.trans {e e' e'' : Str → Option CacheValue} {key : Str} (h : Kept e e' key)
    (h' : Kept e' e'' key) : Kept e e'' key := by
  rcases h' with h' | h'
  · exact .inl h'
  · rcases h with h | h
    · exact .inl (h'.trans h)
    · exact .inr (h'.trans h)

/-! ## Values that stand for a record -/

/-- What a look-up at the instant `t` makes of the stored record. -/
def verdict (t : TimePoint) : Option LinkRecord → ResolveStatus × Option Str
  | none => (.notFound, none)
  | some r =>
    if !r.isActive then (.inactive, none)
    else if r.expiresAt.any (· ≤ t) then (.expired, none)
    else (.redirect, some r.targetUrl)

/-- The cached value answers a look-up as the record does. -/
structure Mirrors (r : LinkRecord) (v : CacheValue) : Prop where
  targetUrl : v.targetUrl = r.targetUrl
  expiresAt : v.expiresAt = r.expiresAt
  isActive : v.isActive = r.isActive

theorem mirrors_cacheValue (r : LinkRecord) : Mirrors r (LinkService.cacheValue r) := ⟨rfl, rfl, rfl⟩

/-- Where the cached value redirects, the record does, to the same target. -/
def Serves (r : LinkRecord) (v : CacheValue) : Prop :=
  ∀ t, (v.isActive && !v.expiresAt.any (· ≤ t)) = true → verdict t (some r) = (.redirect, some v.targetUrl)

theorem Mirrors.serves {r : LinkRecord} {v : CacheValue} (h : Mirrors r v) : Serves r v := by
  intro t hv
  rw [h.isActive, h.expiresAt, Bool.and_eq_true] at hv
  simp only [Bool.not_eq_true'] at hv
  simp [verdict, hv.1, hv.2, h.targetUrl]

/-! ## The law -/

/-- What the service relies on; `entry` says what a cache state holds under a key. A fill with a copy of a record leaves
a value that serves it, or leaves the entry as it was, or drops it. -/
structure ICacheStore.ServesOn (store : ICacheStore Cache) (okKey : Str → Prop) (okRecord : LinkRecord → Prop)
    (entry : Cache → Str → Option CacheValue) : Prop where
  get_hit : ∀ m key cache v, (store.get m key cache).1 = (some v, .none) → entry cache key = some v
  get_kept : ∀ m key cache k, Kept (entry cache) (entry (store.get m key cache).2) k
  set_self : ∀ m key value ttl cache r, okRecord r → Mirrors r value →
    (∃ v, entry (store.set m key value ttl cache).2 key = some v ∧ Serves r v) ∨
      Kept (entry cache) (entry (store.set m key value ttl cache).2) key
  set_other : ∀ m key value ttl cache k, okKey key → okKey k → k ≠ key →
    Kept (entry cache) (entry (store.set m key value ttl cache).2) k
  delete_self : ∀ m key cache, entry (store.delete m key cache).2 key = none
  delete_kept : ∀ m key cache k, Kept (entry cache) (entry (store.delete m key cache).2) k

/-- The store serves every record under every key. -/
abbrev ICacheStore.Lawful (store : ICacheStore Cache) (entry : Cache → Str → Option CacheValue) : Prop :=
  store.ServesOn (fun _ => True) (fun _ => True) entry

theorem ICacheStore.ServesOn.evict_kept (h : store.ServesOn okKey okRecord entry) (m : Moment) (cache : Cache)
    (k : Str) : Kept (entry cache) (entry (store.evict m cache)) k := by
  unfold ICacheStore.evict
  induction m.evicted generalizing cache with
  | nil => exact Kept.refl _ k
  | cons key keys ih => exact (h.delete_kept m key cache k).trans (ih _)

/-- No cache at all is lawful. -/
theorem noopCacheStore_lawful : noopCacheStore.Lawful fun _ _ => none where
  get_hit _ _ _ _ h := by simp [noopCacheStore] at h
  get_kept _ _ _ _ := .inl rfl
  set_self _ _ _ _ _ _ _ _ := .inr (.inl rfl)
  set_other _ _ _ _ _ _ _ _ _ := .inl rfl
  delete_self _ _ _ := rfl
  delete_kept _ _ _ _ := .inl rfl

/-- What `entries_` holds under a key, past its time or not. -/
def InMemoryCacheStore.held (entries : InMemoryCacheStore) (key : Str) : Option CacheValue :=
  (entries.lookup key).map Entry.value

namespace InMemoryCacheStore

variable {entries : InMemoryCacheStore} {key k : Str}

@[simp] theorem held_erase_self : held (entries.erase key) key = none := by
  simp [held]

@[simp] theorem held_erase_other (h : k ≠ key) : held (entries.erase key) k = held entries k := by
  simp [held, Finmap.lookup_erase_ne h]

@[simp] theorem held_insert_self (e : Entry) : held (entries.insert key e) key = some e.value := by
  simp [held]

@[simp] theorem held_insert_other (e : Entry) (h : k ≠ key) :
    held (entries.insert key e) k = held entries k := by
  simp [held, Finmap.lookup_insert_of_ne _ h]

theorem erase_kept (entries : InMemoryCacheStore) (key k : Str) :
    Kept (held entries) (held (entries.erase key)) k := by
  by_cases h : k = key
  · exact .inl (h ▸ held_erase_self)
  · exact .inr (held_erase_other h)

end InMemoryCacheStore

open InMemoryCacheStore in
/-- **The cache in memory is lawful.** -/
theorem inMemoryCacheStore_lawful : inMemoryCacheStore.Lawful InMemoryCacheStore.held where
  get_hit m key entries v h := by
    simp only [inMemoryCacheStore, InMemoryCacheStore.get] at h
    cases he : entries.lookup key with
    | none => simp [he] at h
    | some e =>
      rw [he] at h
      simp only at h
      split at h
      · simp at h
      · simp only [Prod.mk.injEq, Option.some.injEq, and_true] at h
        simp [held, he, h]
  get_kept m key entries k := by
    simp only [inMemoryCacheStore, InMemoryCacheStore.get]
    split
    · exact Kept.refl _ k
    · split
      · exact erase_kept entries key k
      · exact Kept.refl _ k
  set_self m key value ttl entries r _ hm := by
    simp only [inMemoryCacheStore, InMemoryCacheStore.set]
    split
    · exact .inl ⟨value, held_insert_self _, hm.serves⟩
    · split
      · exact .inr (erase_kept entries key key)
      · exact .inl ⟨value, held_insert_self _, hm.serves⟩
  set_other m key value ttl entries k _ _ hk := by
    simp only [inMemoryCacheStore, InMemoryCacheStore.set]
    split
    · exact .inr (held_insert_other _ hk)
    · split
      · exact erase_kept entries key k
      · exact .inr (held_insert_other _ hk)
  delete_self m key entries := held_erase_self
  delete_kept m key entries k := erase_kept entries key k

/-- Failing `Get` and `Set` calls and vanishing entries keep a store lawful. -/
theorem ICacheStore.ServesOn.unreliable (h : store.ServesOn okKey okRecord entry) :
    store.unreliable.ServesOn okKey okRecord entry where
  get_hit m key cache v hv := by
    simp only [ICacheStore.unreliable] at hv
    split at hv
    · have hg := h.get_hit _ _ _ _ hv
      rcases h.evict_kept m cache key with he | he
      · rw [hg] at he; cases he
      · rw [← he, hg]
    · simp at hv
  get_kept m key cache k := by
    simp only [ICacheStore.unreliable]
    split
    · exact (h.evict_kept m cache k).trans (h.get_kept _ _ _ k)
    · exact h.evict_kept m cache k
  set_self m key value ttl cache r hr hm := by
    simp only [ICacheStore.unreliable]
    split
    · rcases h.set_self m key value ttl (store.evict m cache) r hr hm with hs | hs
      · exact .inl hs
      · exact .inr ((h.evict_kept m cache key).trans hs)
    · exact .inr (h.evict_kept m cache key)
  set_other m key value ttl cache k hkey hk hne := by
    simp only [ICacheStore.unreliable]
    split
    · exact (h.evict_kept m cache k).trans (h.set_other _ _ _ _ _ k hkey hk hne)
    · exact h.evict_kept m cache k
  delete_self m key cache := h.delete_self m key _
  delete_kept m key cache k := (h.evict_kept m cache k).trans (h.delete_kept _ _ _ k)

end UrlShortener.Storage

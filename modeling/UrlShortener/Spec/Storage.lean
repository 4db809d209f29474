import UrlShortener.Spec.Fields
import Mathlib.Data.List.Sort

/-!
# Storage ports and their in-memory adapters

`storage/inmemory/in_memory_metadata_repository.cpp`, `storage/inmemory/in_memory_cache_store.cpp`, the
`NoopCacheStore` of `composition/storage_factory.cpp`, and the models they exchange. These are the ports
of `LinkService`; the repository of the command service is another one.

A port call happens at a `Moment`: the clock of the adapter, whether the cache backend is down, and the
entries it has dropped by itself since the call before.
-/

namespace UrlShortener.Storage

/-! ## Models -/

/-- The failures among the `RepoError` values; `none` is success. -/
inductive RepoError
  | notFound
  | alreadyExists
  | invalidArgument
  | transientFailure
  | permanentFailure
  deriving DecidableEq, Repr

/-- Why a cache call failed. -/
inductive CacheError
  | none
  | unavailable
  | invalidArgument
  | permanentFailure
  deriving DecidableEq, Repr

/-- A stored link. -/
structure LinkRecord where
  id : Str
  shortCode : Str
  targetUrl : Str
  createdAt : TimePoint := 0
  updatedAt : TimePoint := 0
  expiresAt : Option TimePoint := none
  deletedAt : Option TimePoint := none
  owner : Option Str := none
  attributes : UnorderedMap Str Str := ∅
  isActive : Bool := true
  version : UInt64 := 1
  deriving DecidableEq

/-- What a link is created from. -/
structure CreateLinkRequest where
  shortCode : Str
  targetUrl : Str
  expiresAt : Option TimePoint := none
  owner : Option Str := none
  attributes : UnorderedMap Str Str := ∅
  isActive : Bool := true

/-- `regex_match` with `^[A-Za-z0-9_-]{3,64}$`, and a target. -/
def CreateLinkRequest.isValid (request : CreateLinkRequest) : Bool :=
  request.targetUrl ≠ [] ∧ 3 ≤ request.shortCode.length ∧ request.shortCode.length ≤ 64 ∧
    request.shortCode.all isSlugChar

/-- `offset` and `limit` are of type `size_t`. -/
structure ListLinksQuery where
  owner : Option Str := none
  includeInactive : Bool := true
  includeDeleted : Bool := false
  offset : UInt64 := 0
  limit : UInt64 := 100

/-- What is cached of a link. -/
structure CacheValue where
  targetUrl : Str
  expiresAt : Option TimePoint := none
  isActive : Bool := true
  version : Option UInt64 := none
  deriving DecidableEq

/-- The order in which a hash table is visited is up to the library: any listing of its entries. -/
structure Iteration (V : Type) where
  visit : UnorderedMap Str V → List (Σ _ : Str, V)
  visits : ∀ m, (visit m : Multiset (Σ _ : Str, V)) = m.entries

/-! ## The metadata repository -/

/-- The map `by_code_`. -/
structure InMemoryMetadataRepository where
  byCode : UnorderedMap Str LinkRecord := ∅
  deriving DecidableEq

namespace InMemoryMetadataRepository

/-- `version` and `deleted_at` keep their defaults. -/
def createLink (repo : InMemoryMetadataRepository) (request : CreateLinkRequest) (id : Str)
    (now : TimePoint) : Except RepoError InMemoryMetadataRepository :=
  if !request.isValid then .error .invalidArgument
  else if (repo.byCode.lookup request.shortCode).isSome then .error .alreadyExists
  else
    let record : LinkRecord :=
      { id, shortCode := request.shortCode, targetUrl := request.targetUrl, createdAt := now, updatedAt := now,
        expiresAt := request.expiresAt, owner := request.owner, attributes := request.attributes,
        isActive := request.isActive }
    .ok { byCode := repo.byCode.insert record.shortCode record }

/-- `GetByShortCode`. -/
def getByShortCode (repo : InMemoryMetadataRepository) (shortCode : Str) : Option LinkRecord :=
  repo.byCode.lookup shortCode

/-- `UpdateLink`: only a known code. -/
def updateLink (repo : InMemoryMetadataRepository) (record : LinkRecord) :
    Except RepoError InMemoryMetadataRepository :=
  if (repo.byCode.lookup record.shortCode).isSome then
    .ok { byCode := repo.byCode.insert record.shortCode record }
  else .error .notFound

/-- Deleting a code that is not there succeeds too. -/
def deleteLink (repo : InMemoryMetadataRepository) (shortCode : Str) : InMemoryMetadataRepository :=
  { byCode := repo.byCode.erase shortCode }

/-- `std::sort` puts records that were created at the same time in some order, here in the order they were
visited. -/
def listLinks (repo : InMemoryMetadataRepository) (iteration : Iteration LinkRecord) (query : ListLinksQuery) :
    List LinkRecord :=
  let records := ((iteration.visit repo.byCode).map Sigma.snd).filter fun record =>
    !(!query.includeDeleted && record.deletedAt.isSome) && !(!query.includeInactive && !record.isActive) &&
      !(query.owner.isSome && record.owner != query.owner)
  let records := records.insertionSort fun lhs rhs => lhs.createdAt ≤ rhs.createdAt
  if records.length ≤ query.offset.toNat then []
  else
    let remaining := records.length - query.offset.toNat
    let limit := min query.limit.toNat remaining
    (records.drop query.offset.toNat).take limit

/-- `Exists`. -/
def linkExists (repo : InMemoryMetadataRepository) (shortCode : Str) : Bool := (repo.getByShortCode shortCode).isSome

end InMemoryMetadataRepository

/-! ## The cache -/

/-- The circumstances of one port call. -/
structure Moment where
  now : TimePoint := 0
  /-- Other than `none`: `Get` and `Set` calls fail with this error. -/
  cacheError : CacheError := .none
  /-- Keys whose cache entries have vanished. -/
  evicted : List Str := []

/-- The operations of the port that `LinkService` uses. A `Get` yields the value and the error code. -/
structure ICacheStore (Cache : Type) where
  get : Moment → Str → Cache → (Option CacheValue × CacheError) × Cache
  set : Moment → Str → CacheValue → Option Int64 → Cache → Bool × Cache
  delete : Moment → Str → Cache → Bool × Cache

/-- `NoopCacheStore`: no cache at all. The error code stays as the caller initialised it. -/
def noopCacheStore : ICacheStore Unit where
  get _ _ _ := ((none, .none), ())
  set _ _ _ _ _ := (true, ())
  delete _ _ _ := (true, ())

/-- A value, and when it expires. -/
structure Entry where
  value : CacheValue
  expiresAt : Option TimePoint
  deriving DecidableEq

/-- The map `entries_`. -/
abbrev InMemoryCacheStore := UnorderedMap Str Entry

/-- Nanoseconds in a `std::chrono::seconds` count. -/
def nanosecondsPerSecond : Int64 := 1000000000

namespace InMemoryCacheStore

/-- An entry past its time is dropped when it is read. -/
def get (m : Moment) (key : Str) (entries : InMemoryCacheStore) :
    (Option CacheValue × CacheError) × InMemoryCacheStore :=
  match entries.lookup key with
  | none => ((none, .none), entries)
  | some entry =>
    if entry.expiresAt.any (· ≤ m.now) then ((none, .none), entries.erase key)
    else ((some entry.value, .none), entries)

/-- `ttl` is in seconds. One that is not positive erases the key. -/
def set (m : Moment) (key : Str) (value : CacheValue) (ttl : Option Int64) (entries : InMemoryCacheStore) :
    Bool × InMemoryCacheStore :=
  match ttl with
  | none => (true, entries.insert key ⟨value, none⟩)
  | some ttl =>
    if ttl ≤ 0 then (true, entries.erase key)
    else (true, entries.insert key ⟨value, some (m.now + ttl * nanosecondsPerSecond)⟩)

/-- `Delete`. -/
def delete (_ : Moment) (key : Str) (entries : InMemoryCacheStore) : Bool × InMemoryCacheStore :=
  (true, entries.erase key)

/-- The entries are erased while they are visited. -/
def clearByPrefix (order : Iteration Entry) (start : Str) (entries : InMemoryCacheStore) : Bool × InMemoryCacheStore :=
  (true, (order.visit entries).foldl
    (fun entries entry => if start.isPrefixOf entry.1 then entries.erase entry.1 else entries) entries)

end InMemoryCacheStore

/-- The store as a port. -/
def inMemoryCacheStore : ICacheStore InMemoryCacheStore where
  get := InMemoryCacheStore.get
  set := InMemoryCacheStore.set
  delete := InMemoryCacheStore.delete

variable {Cache : Type}

/-- The entries that vanish at a moment are gone before the call is served. -/
def ICacheStore.evict (store : ICacheStore Cache) (m : Moment) (cache : Cache) : Cache :=
  m.evicted.foldl (fun cache key => (store.delete m key cache).2) cache

/-- A store whose `Get` and `Set` calls may fail and whose entries may vanish. A failed `Get` yields no
value and a failed `Set` stores nothing, as in the `FailingCache` of the unit tests. -/
def ICacheStore.unreliable (store : ICacheStore Cache) : ICacheStore Cache where
  get m key cache :=
    let cache := store.evict m cache
    if m.cacheError = .none then store.get m key cache else ((none, m.cacheError), cache)
  set m key value ttl cache :=
    let cache := store.evict m cache
    if m.cacheError = .none then store.set m key value ttl cache else (false, cache)
  delete m key cache := store.delete m key (store.evict m cache)

end UrlShortener.Storage

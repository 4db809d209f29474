import UrlShortener.Spec.Types

/-!
# Link repository and link cache

`InMemoryMetadataRepository`, `InMemoryLinkCacheStore`, `getLinkForRead` and
`updateLinkAndInvalidateCache` of `storage/link_repository.cpp`, and the adapter `LegacyLinkStore` of
`app/legacy_adapters.cpp`. A call that fails leaves the maps as they are, so a fallible write returns
the new state or an error.
-/

namespace UrlShortener

/-- The two indexes of the repository. -/
structure InMemoryMetadataRepository where
  byId : UnorderedMap Str Link := ∅
  slugToId : UnorderedMap Str Str := ∅

namespace InMemoryMetadataRepository

/-- A known slug is refused. -/
def create (repo : InMemoryMetadataRepository) (link : Link) : Except RepoError InMemoryMetadataRepository :=
  if (repo.slugToId.lookup link.slug).isSome ∨ (repo.byId.lookup link.id).isSome then .error .alreadyExists
  else .ok { slugToId := repo.slugToId.insert link.slug link.id, byId := repo.byId.insert link.id link }

/-- By way of `slug_to_id_`. -/
def getBySlug (repo : InMemoryMetadataRepository) (slug : Str) : Option Link :=
  match repo.slugToId.lookup slug with
  | none => none
  | some id => repo.byId.lookup id

/-- By identifier. -/
def getById (repo : InMemoryMetadataRepository) (id : Str) : Option Link := repo.byId.lookup id

/-- The slug is in use. -/
def slugExists (repo : InMemoryMetadataRepository) (slug : Str) : Bool := (repo.slugToId.lookup slug).isSome

/-- The slug index is not looked at. -/
def update (repo : InMemoryMetadataRepository) (link : Link) : Except RepoError InMemoryMetadataRepository :=
  if (repo.byId.lookup link.id).isSome then .ok { repo with byId := repo.byId.insert link.id link }
  else .error .notFound

end InMemoryMetadataRepository

/-- `linkRepository()` and the map `by_slug_` of `linkCache()`. -/
structure LinkStore where
  repository : InMemoryMetadataRepository := {}
  cache : UnorderedMap Str Link := ∅

/-- A read through the cache fills it. -/
def getLinkForRead (slug : Str) (st : LinkStore) : Option Link × LinkStore :=
  match st.cache.lookup slug with
  | some cached => (some cached, st)
  | none =>
    match st.repository.getBySlug slug with
    | none => (none, st)
    | some link => (some link, { st with cache := st.cache.insert slug link })

/-- The cached copy goes with the old record. -/
def updateLinkAndInvalidateCache (link : Link) (st : LinkStore) : Except RepoError LinkStore :=
  match st.repository.update link with
  | .error e => .error e
  | .ok repo => .ok { repository := repo, cache := st.cache.erase link.slug }

namespace LegacyLinkStore

/-- `Create`, with the error of the service. -/
def create (link : Link) (st : LinkStore) : Except AppError LinkStore :=
  match st.repository.create link with
  | .ok repo => .ok { st with repository := repo }
  | .error .alreadyExists => .error ⟨.slugConflict, "slug already in use"⟩
  | .error _ => .error ⟨.storageFailure, "repository failure"⟩

/-- The cache first. -/
def findBySlug (slug : Str) (st : LinkStore) : Option Link × LinkStore := getLinkForRead slug st

/-- Past the cache. -/
def findById (id : Str) (st : LinkStore) : Option Link := st.repository.getById id

/-- Past the cache. -/
def slugExists (slug : Str) (st : LinkStore) : Bool := st.repository.slugExists slug

/-- The cached copy is dropped. -/
def invalidateCache (slug : Str) (st : LinkStore) : LinkStore := { st with cache := st.cache.erase slug }

/-- `Update`, with the error of the service. -/
def update (link : Link) (st : LinkStore) : Except AppError LinkStore :=
  match updateLinkAndInvalidateCache link st with
  | .ok st => .ok st
  | .error _ => .error ⟨.storageFailure, "repository failure"⟩

end LegacyLinkStore

end UrlShortener

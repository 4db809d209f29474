import UrlShortener.Spec.PasswordHasher

/-!
# The storage configuration and the adapters built from it

`ParseStorageConfigYaml` of `config/storage_config.cpp` and `BuildStorageAdapters` of
`composition/storage_factory.cpp`. An exception is its text. An adapter is what its constructor is given, the clock
apart; constructors only keep it.
-/

namespace UrlShortener.Composition

open Text

/-! ## yaml-cpp -/

/-- The library, with its nodes that are defined: `YAML::Load`, `operator[]` of a constant node, where `none` is a node
that is not defined, and the conversions `as<..>`. An exception is its text. -/
structure YamlCpp (Node : Type) where
  load : Str → Except Str Node
  get : Node → Str → Except Str (Option Node)
  asString : Node → Except Str Str
  asInt : Node → Except Str Int32
  asBool : Node → Except Str Bool

/-! ## `storage_config.cpp` -/

/-- The block `metadata`. -/
structure MetadataBackendConfig where
  backend : Str := "inmemory"
  sqlitePath : Option Str := none
  postgresDsn : Option Str := none

/-- The block `cache`. -/
structure CacheBackendConfig where
  backend : Str := "none"
  redisAddress : Option Str := none
  defaultTtlSeconds : Option Int32 := none

/-- The block `analytics`. -/
structure AnalyticsBackendConfig where
  backend : Str := "noop"

/-- The block `rate_limit`. -/
structure RateLimitBackendConfig where
  enabled : Bool := false
  backend : Str := "inmemory"
  redisAddress : Option Str := none

/-- The four blocks. -/
structure StorageConfig where
  metadata : MetadataBackendConfig := {}
  cache : CacheBackendConfig := {}
  analytics : AnalyticsBackendConfig := {}
  rateLimit : RateLimitBackendConfig := {}

/-- `Require`. -/
def require (ok : Bool) (msg : Str) : Except Str Unit := if ok then .ok () else .error msg

variable {Node : Type} (yaml : YamlCpp Node)

/-- `ReadOptionalString` and `ReadOptionalInt`, and the settings that keep their default where the key is missing. -/
def readOptional {α : Type} (as : Node → Except Str α) (node : Node) (key : Str) : Except Str (Option α) := do
  match ← yaml.get node key with
  | none => return none
  | some value => return some (← as value)

/-- The block `metadata`. -/
def readMetadata (root : Node) : Except Str MetadataBackendConfig := do
  match ← yaml.get root "metadata" with
  | none => return {}
  | some metadata =>
    let backend ← readOptional yaml yaml.asString metadata "backend"
    let sqlitePath ← readOptional yaml yaml.asString metadata "sqlite_path"
    let postgresDsn ← readOptional yaml yaml.asString metadata "postgres_dsn"
    return { backend := backend.getD "inmemory", sqlitePath := sqlitePath, postgresDsn := postgresDsn }

/-- The block `cache`. -/
def readCache (root : Node) : Except Str CacheBackendConfig := do
  match ← yaml.get root "cache" with
  | none => return {}
  | some cache =>
    let backend ← readOptional yaml yaml.asString cache "backend"
    let redisAddress ← readOptional yaml yaml.asString cache "redis_address"
    let defaultTtlSeconds ← readOptional yaml yaml.asInt cache "default_ttl_seconds"
    return { backend := backend.getD "none", redisAddress := redisAddress,
             defaultTtlSeconds := defaultTtlSeconds }

/-- The block `analytics`. -/
def readAnalytics (root : Node) : Except Str AnalyticsBackendConfig := do
  match ← yaml.get root "analytics" with
  | none => return {}
  | some analytics =>
    let backend ← readOptional yaml yaml.asString analytics "backend"
    return { backend := backend.getD "noop" }

/-- The block `rate_limit`. -/
def readRateLimit (root : Node) : Except Str RateLimitBackendConfig := do
  match ← yaml.get root "rate_limit" with
  | none => return {}
  | some rateLimit =>
    let enabled ← readOptional yaml yaml.asBool rateLimit "enabled"
    let backend ← readOptional yaml yaml.asString rateLimit "backend"
    let redisAddress ← readOptional yaml yaml.asString rateLimit "redis_address"
    return { enabled := enabled.getD false, backend := backend.getD "inmemory", redisAddress := redisAddress }

/-- The text is there and not empty. -/
def isPresent (text : Option Str) : Bool :=
  match text with
  | none => false
  | some text => !text.isEmpty

/-- The checks of `metadata`. -/
def requireMetadata (cfg : MetadataBackendConfig) : Except Str Unit := do
  require (cfg.backend == "inmemory" || cfg.backend == "sqlite" || cfg.backend == "postgres")
    ("invalid metadata.backend: " ++ cfg.backend)
  require (cfg.backend != "sqlite" || isPresent cfg.sqlitePath)
    "metadata.sqlite_path is required for sqlite backend"
  require (cfg.backend != "postgres" || isPresent cfg.postgresDsn)
    "metadata.postgres_dsn is required for postgres backend"

/-- The checks of `cache`. -/
def requireCache (cfg : CacheBackendConfig) : Except Str Unit := do
  require (cfg.backend == "none" || cfg.backend == "inmemory" || cfg.backend == "redis")
    ("invalid cache.backend: " ++ cfg.backend)
  require (cfg.backend != "redis" || isPresent cfg.redisAddress)
    "cache.redis_address is required for redis backend"
  require (cfg.defaultTtlSeconds.all fun seconds => 0 ≤ seconds) "cache.default_ttl_seconds must be >= 0"

/-- The checks of `analytics`. -/
def requireAnalytics (cfg : AnalyticsBackendConfig) : Except Str Unit :=
  require (cfg.backend == "noop" || cfg.backend == "inmemory")
    ("invalid analytics.backend: " ++ cfg.backend)

/-- The checks of `rate_limit`. -/
def requireRateLimit (cfg : RateLimitBackendConfig) : Except Str Unit :=
  if cfg.enabled then do
    require (cfg.backend == "inmemory" || cfg.backend == "redis")
      ("invalid rate_limit.backend: " ++ cfg.backend)
    require (cfg.backend != "redis" || isPresent cfg.redisAddress)
      "rate_limit.redis_address is required for redis backend"
  else .ok ()

/-- `ParseStorageConfigNode`: read, then checked. -/
def parseStorageConfigNode (root : Node) : Except Str StorageConfig := do
  let metadata ← readMetadata yaml root
  let cache ← readCache yaml root
  let analytics ← readAnalytics yaml root
  let rateLimit ← readRateLimit yaml root
  requireMetadata metadata
  requireCache cache
  requireAnalytics analytics
  requireRateLimit rateLimit
  return { metadata := metadata, cache := cache, analytics := analytics, rateLimit := rateLimit }

/-- `ParseStorageConfigYaml`. -/
def parseStorageConfigYaml (yamlContent : Str) : Except Str StorageConfig := do
  parseStorageConfigNode yaml (← yaml.load yamlContent)

/-! ## `storage_factory.cpp` -/

/-- The two databases. -/
inductive SqlBackendKind
  | sqlite
  | postgres

/-- A database and its address. -/
structure SqlConnectionConfig where
  backend : SqlBackendKind
  dsn : Str

/-- The repository that is built. -/
inductive MetadataAdapter
  | inMemory
  | sql (sql : SqlConnectionConfig)

/-- The fields of `RedisCacheConfig` that the factory sets. -/
structure RedisCacheConfig where
  host : Str
  port : ℤ
  defaultTtl : Option Int64 := none

/-- The cache that is built. -/
inductive CacheAdapter
  | noop
  | inMemory
  | redis (config : RedisCacheConfig)

/-- The sink that is built. -/
inductive AnalyticsAdapter
  | noop
  | inMemory

/-- The fields of `RedisRateLimiterConfig` that the factory sets. -/
structure RedisRateLimiterConfig where
  host : Str
  port : ℤ

/-- The limiter that is built. -/
inductive RateLimiterAdapter
  | inMemory
  | redis (config : RedisRateLimiterConfig)

/-- What the factory returns. -/
structure StorageAdapters where
  metadata : MetadataAdapter
  cache : CacheAdapter
  analytics : AnalyticsAdapter
  rateLimiter : Option RateLimiterAdapter

/-- `*text`, which is undefined for an empty optional. -/
def deref (text : Option Str) : Except Str Str :=
  match text with
  | none => .error "empty optional"
  | some text => .ok text

/-- The host and the port of an address: what stands around the first colon. Without a colon, `separator` is `npos`
and `separator + 1` is 0, so that both are read from the whole text. -/
def splitAddress (address : Str) : Except Str (Str × ℤ) := do
  let parts := (cut [':'] address).getD (address, address)
  let port ← PasswordHasher.stoi parts.2
  return (parts.1, port)

/-- Anything else is `postgres`. -/
def buildMetadata (config : MetadataBackendConfig) : Except Str MetadataAdapter := do
  if config.backend = "inmemory" then return .inMemory
  else if config.backend = "sqlite" then return .sql ⟨.sqlite, ← deref config.sqlitePath⟩
  else return .sql ⟨.postgres, ← deref config.postgresDsn⟩

/-- Anything else is `redis`. -/
def buildCache (config : CacheBackendConfig) : Except Str CacheAdapter := do
  if config.backend = "none" then return .noop
  else if config.backend = "inmemory" then return .inMemory
  else
    let (host, port) ← splitAddress (← deref config.redisAddress)
    return .redis { host := host, port := port, defaultTtl := config.defaultTtlSeconds.map Int32.toInt64 }

/-- Anything else is `noop`. -/
def buildAnalytics (config : AnalyticsBackendConfig) : AnalyticsAdapter :=
  if config.backend = "inmemory" then .inMemory else .noop

/-- None where it is off. -/
def buildRateLimiter (config : RateLimitBackendConfig) : Except Str (Option RateLimiterAdapter) := do
  if !config.enabled then return none
  else if config.backend = "inmemory" then return some .inMemory
  else
    let (host, port) ← splitAddress (← deref config.redisAddress)
    return some (.redis { host := host, port := port })

/-- `BuildStorageAdapters`. -/
def buildStorageAdapters (config : StorageConfig) : Except Str StorageAdapters := do
  let metadata ← buildMetadata config.metadata
  let cache ← buildCache config.cache
  let rateLimiter ← buildRateLimiter config.rateLimit
  return { metadata := metadata, cache := cache, analytics := buildAnalytics config.analytics,
           rateLimiter := rateLimiter }

end UrlShortener.Composition

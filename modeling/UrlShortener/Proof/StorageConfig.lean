import UrlShortener.Proof.PasswordHasher
import UrlShortener.Spec.StorageConfig

/-!
# Accepted configurations that start

The validation asks for an address, and the factory takes it apart at its first colon.

* `Setting`: what the document sets.
* `Denotes`: the host and the port of an address. An IPv6 address stands in brackets.
* `splitAddress_denotes_iff`: the factory finds them exactly in an address with one name in front of the colon and the
  digits of a port behind it.
* `starts_iff`: **an accepted configuration starts exactly if every Redis address in use is such an address.**
-/

namespace UrlShortener.Composition

open Text

/-! ## Settings -/

/-- **The document sets the key** of a part to the value. -/
def Setting {Node α : Type} (yaml : YamlCpp Node) (as : Node → Except Str α) (root : Node) (part key : Str)
    (value : α) : Prop :=
  ∃ node entry, yaml.get root part = .ok (some node) ∧ yaml.get node key = .ok (some entry) ∧ as entry = .ok value

section Settings

variable {Node α : Type} {yaml : YamlCpp Node} {as : Node → Except Str α} {node root : Node} {key part : Str}
  {o : Option α}

theorem readOptional_eq_some (h : readOptional yaml as node key = .ok o) (value : α) :
    o = some value ↔ ∃ entry, yaml.get node key = .ok (some entry) ∧ as entry = .ok value := by
  unfold readOptional at h
  obtain ⟨found, hget, h⟩ := bind_eq_ok h
  rw [hget]
  cases found with
  | none =>
    cases h
    simp
  | some entry =>
    obtain ⟨v, has, h⟩ := bind_eq_ok h
    cases h
    simp [has]

theorem setting_iff (hpart : yaml.get root part = .ok (some node)) (h : readOptional yaml as node key = .ok o)
    (value : α) : Setting yaml as root part key value ↔ o = some value := by
  rw [readOptional_eq_some h value]
  constructor
  · rintro ⟨node', entry, hnode, hentry⟩
    cases hpart.symm.trans hnode
    exact ⟨entry, hentry⟩
  · rintro ⟨entry, hentry⟩
    exact ⟨node, entry, hpart, hentry⟩

theorem not_setting (hpart : yaml.get root part = .ok none) (value : α) : ¬Setting yaml as root part key value := by
  rintro ⟨node', entry, hnode, -⟩
  cases hpart.symm.trans hnode

/-- A setting other than the default is one of the document. -/
theorem getD_eq_iff {default value : α} (hne : value ≠ default) : o.getD default = value ↔ o = some value := by
  cases o with
  | none => simp [Ne.symm hne]
  | some v => simp

end Settings

variable {Node : Type} {yaml : YamlCpp Node} {root : Node}

theorem readCache_settings {cfg : CacheBackendConfig} (h : readCache yaml root = .ok cfg) :
    (cfg.backend = "redis" ↔ Setting yaml yaml.asString root "cache" "backend" "redis") ∧
      ∀ address, cfg.redisAddress = some address ↔
        Setting yaml yaml.asString root "cache" "redis_address" address := by
  unfold readCache at h
  obtain ⟨part, hpart, h⟩ := bind_eq_ok h
  cases part with
  | none =>
    cases h
    exact ⟨iff_of_false (by decide) (not_setting hpart _), fun _ => iff_of_false (by simp) (not_setting hpart _)⟩
  | some node =>
    obtain ⟨backend, hbackend, h⟩ := bind_eq_ok h
    obtain ⟨address, haddress, h⟩ := bind_eq_ok h
    obtain ⟨ttl, -, h⟩ := bind_eq_ok h
    cases h
    refine ⟨?_, fun value => (setting_iff hpart haddress value).symm⟩
    rw [setting_iff hpart hbackend]
    exact getD_eq_iff (by decide)

theorem readRateLimit_settings {cfg : RateLimitBackendConfig} (h : readRateLimit yaml root = .ok cfg) :
    (cfg.enabled = true ↔ Setting yaml yaml.asBool root "rate_limit" "enabled" true) ∧
      (cfg.backend = "redis" ↔
        Setting yaml yaml.asString root "rate_limit" "backend" "redis") ∧
      ∀ address, cfg.redisAddress = some address ↔
        Setting yaml yaml.asString root "rate_limit" "redis_address" address := by
  unfold readRateLimit at h
  obtain ⟨part, hpart, h⟩ := bind_eq_ok h
  cases part with
  | none =>
    cases h
    exact ⟨iff_of_false (by decide) (not_setting hpart _), iff_of_false (by decide) (not_setting hpart _),
      fun _ => iff_of_false (by simp) (not_setting hpart _)⟩
  | some node =>
    obtain ⟨enabled, henabled, h⟩ := bind_eq_ok h
    obtain ⟨backend, hbackend, h⟩ := bind_eq_ok h
    obtain ⟨address, haddress, h⟩ := bind_eq_ok h
    cases h
    refine ⟨?_, ?_, fun value => (setting_iff hpart haddress value).symm⟩
    · rw [setting_iff hpart henabled]
      exact getD_eq_iff (by decide)
    · rw [setting_iff hpart hbackend]
      exact getD_eq_iff (by decide)

/-! ## Addresses -/

/-- The decimal digits of a port. -/
def IsPort (digits : Str) : Prop :=
  digits ≠ [] ∧ (∀ c ∈ digits, c.isDigit = true) ∧ 1 ≤ Nat.ofDigitChars 10 digits 0 ∧
    Nat.ofDigitChars 10 digits 0 ≤ 65535

/-- **The host and the port that an address denotes as `host:port`**: a name, or an IPv6 address in brackets. -/
inductive Denotes : Str → Str → ℤ → Prop
  | name {host digits : Str} : host ≠ [] → ':' ∉ host → IsPort digits →
    Denotes (host ++ ':' :: digits) host (Nat.ofDigitChars 10 digits 0)
  | literal {host digits : Str} : ':' ∈ host → '[' ∉ host → ']' ∉ host → IsPort digits →
    Denotes ('[' :: host ++ ']' :: ':' :: digits) host (Nat.ofDigitChars 10 digits 0)

/-- A name, a colon and the digits of a port. -/
def HostPort (address : Str) : Prop :=
  ∃ host digits, address = host ++ ':' :: digits ∧ host ≠ [] ∧ ':' ∉ host ∧ IsPort digits

theorem splitAddress_hostPort {host digits : Str} (hhost : ':' ∉ host) (hport : IsPort digits) :
    splitAddress (host ++ ':' :: digits) = .ok (host, (Nat.ofDigitChars 10 digits 0 : ℤ)) := by
  obtain ⟨hne, hdigits, -, hhigh⟩ := hport
  have hstoi : PasswordHasher.stoi digits = .ok (Nat.ofDigitChars 10 digits 0 : ℤ) := by
    rw [PasswordHasher.stoi_digits hne hdigits, if_neg (by omega)]
  simp only [splitAddress, cut_singleton hhost, Option.getD_some, hstoi]
  rfl

/-- What is taken for the host of an address begins like the address. -/
theorem splitAddress_head {c : Char} {s host : Str} {port : ℤ} (hc : c ≠ ':')
    (h : splitAddress (c :: s) = .ok (host, port)) : c ∈ host := by
  unfold splitAddress at h
  obtain ⟨p, -, h⟩ := bind_eq_ok h
  cases h
  have hcut : cut [':'] (c :: s) = (cut [':'] s).map fun p => (c :: p.1, p.2) := by
    refine cut_cons_later fun hprefix => ?_
    exact hc (List.cons_prefix_cons.1 hprefix).1.symm
  rw [hcut]
  cases cut [':'] s with
  | none => exact List.mem_cons_self
  | some p => exact List.mem_cons_self

/-- **The factory finds the host and the port** in these addresses only. -/
theorem splitAddress_denotes_iff {address : Str} :
    (∃ host port, splitAddress address = .ok (host, port) ∧ Denotes address host port) ↔ HostPort address := by
  constructor
  · rintro ⟨host, port, hsplit, hdenotes⟩
    cases hdenotes with
    | @name _ digits hne hcolon hport => exact ⟨host, digits, rfl, hne, hcolon, hport⟩
    | literal _ hopen _ _ => exact absurd (splitAddress_head (by decide) hsplit) hopen
  · rintro ⟨host, digits, rfl, hne, hcolon, hport⟩
    exact ⟨host, _, splitAddress_hostPort hcolon hport, .name hne hcolon hport⟩

/-! ## The factory -/

theorem require_eq_ok {ok : Bool} {msg : Str} {u : Unit} (h : require ok msg = .ok u) : ok = true := by
  unfold require at h
  split at h
  · assumption
  · cases h

theorem exists_of_isPresent {text : Option Str} (h : isPresent text = true) : ∃ t, text = some t := by
  cases text with
  | none => cases h
  | some t => exact ⟨t, rfl⟩

theorem buildMetadata_ok {cfg : MetadataBackendConfig} (h : requireMetadata cfg = .ok ()) :
    ∃ adapter, buildMetadata cfg = .ok adapter := by
  unfold requireMetadata at h
  obtain ⟨_, hbackend, h⟩ := bind_eq_ok h
  obtain ⟨_, hsqlite, hpostgres⟩ := bind_eq_ok h
  have hbackend := require_eq_ok hbackend
  have hsqlite := require_eq_ok hsqlite
  have hpostgres := require_eq_ok hpostgres
  simp only [Bool.or_eq_true, beq_iff_eq, bne_iff_ne] at hbackend hsqlite hpostgres
  unfold buildMetadata
  rcases hbackend with (hmemory | hlite) | hpg
  · rw [if_pos hmemory]
    exact ⟨_, rfl⟩
  · obtain ⟨path, hpath⟩ := exists_of_isPresent (hsqlite.resolve_left fun hne => hne hlite)
    rw [if_neg (by rw [hlite]; decide), if_pos hlite, hpath]
    exact ⟨_, rfl⟩
  · obtain ⟨dsn, hdsn⟩ := exists_of_isPresent (hpostgres.resolve_left fun hne => hne hpg)
    rw [if_neg (by rw [hpg]; decide), if_neg (by rw [hpg]; decide), hdsn]
    exact ⟨_, rfl⟩

/-- An adapter that is given what the address is taken apart into. -/
theorem redis_starts_iff {A B : Type} (adapter : B → A) (host : B → Str) (port : B → ℤ) (config : Str × ℤ → B)
    (hadapter : Function.Injective adapter) (hconfig : ∀ p, host (config p) = p.1 ∧ port (config p) = p.2)
    (address : Str) :
    (∃ a, (splitAddress address >>= fun p => pure (adapter (config p))) = .ok a ∧
        ∀ b, a = adapter b → Denotes address (host b) (port b)) ↔
      ∃ host port, splitAddress address = .ok (host, port) ∧ Denotes address host port := by
  cases hsplit : splitAddress address with
  | error e =>
    refine iff_of_false ?_ ?_
    · rintro ⟨_, h, -⟩
      cases h
    · rintro ⟨_, _, h, -⟩
      cases h
  | ok p =>
    obtain ⟨hhost, hport⟩ := hconfig p
    constructor
    · rintro ⟨a, ha, hdenotes⟩
      cases ha
      have hp := hdenotes _ rfl
      rw [hhost, hport] at hp
      exact ⟨p.1, p.2, rfl, hp⟩
    · rintro ⟨host', port', hp, hdenotes⟩
      cases hp
      refine ⟨_, rfl, fun b hb => ?_⟩
      rw [← hadapter hb, hhost, hport]
      exact hdenotes

theorem buildCache_starts_iff {cfg : CacheBackendConfig} (h : requireCache cfg = .ok ()) :
    (∃ adapter, buildCache cfg = .ok adapter ∧ ∀ redis, adapter = .redis redis →
        ∃ address, cfg.redisAddress = some address ∧ Denotes address redis.host redis.port) ↔
      (cfg.backend = "redis" → ∀ address, cfg.redisAddress = some address → HostPort address) := by
  unfold requireCache at h
  obtain ⟨_, hbackend, h⟩ := bind_eq_ok h
  obtain ⟨_, hredis, -⟩ := bind_eq_ok h
  have hbackend := require_eq_ok hbackend
  have hredis := require_eq_ok hredis
  simp only [Bool.or_eq_true, beq_iff_eq, bne_iff_ne] at hbackend hredis
  unfold buildCache
  rcases hbackend with (hnone | hmemory) | hbackend
  · rw [if_pos hnone]
    refine iff_of_true ⟨_, rfl, by simp⟩ fun heq => ?_
    exact absurd (hnone.symm.trans heq) (by decide)
  · rw [if_neg (by rw [hmemory]; decide), if_pos hmemory]
    refine iff_of_true ⟨_, rfl, by simp⟩ fun heq => ?_
    exact absurd (hmemory.symm.trans heq) (by decide)
  · obtain ⟨address, haddress⟩ := exists_of_isPresent (hredis.resolve_left fun hne => hne hbackend)
    rw [if_neg (by rw [hbackend]; decide), if_neg (by rw [hbackend]; decide), haddress]
    simp only [hbackend, forall_const, Option.some.injEq, forall_eq', exists_eq_left', ← splitAddress_denotes_iff]
    exact redis_starts_iff CacheAdapter.redis RedisCacheConfig.host RedisCacheConfig.port
      (fun p => ⟨p.1, p.2, cfg.defaultTtlSeconds.map Int32.toInt64⟩) (fun _ _ => CacheAdapter.redis.inj)
      (fun _ => ⟨rfl, rfl⟩) address

theorem buildRateLimiter_starts_iff {cfg : RateLimitBackendConfig} (h : requireRateLimit cfg = .ok ()) :
    (∃ adapter, buildRateLimiter cfg = .ok adapter ∧ ∀ redis, adapter = some (.redis redis) →
        ∃ address, cfg.redisAddress = some address ∧ Denotes address redis.host redis.port) ↔
      (cfg.enabled = true → cfg.backend = "redis" →
        ∀ address, cfg.redisAddress = some address → HostPort address) := by
  unfold requireRateLimit at h
  unfold buildRateLimiter
  by_cases henabled : cfg.enabled = true
  · rw [if_pos henabled] at h
    obtain ⟨_, hbackend, h⟩ := bind_eq_ok h
    have hbackend := require_eq_ok hbackend
    have hredis := require_eq_ok h
    simp only [Bool.or_eq_true, beq_iff_eq, bne_iff_ne] at hbackend hredis
    rw [if_neg (by rw [henabled]; decide)]
    rcases hbackend with hmemory | hbackend
    · rw [if_pos hmemory]
      refine iff_of_true ⟨_, rfl, by simp⟩ fun _ heq => ?_
      exact absurd (hmemory.symm.trans heq) (by decide)
    · obtain ⟨address, haddress⟩ := exists_of_isPresent (hredis.resolve_left fun hne => hne hbackend)
      rw [if_neg (by rw [hbackend]; decide), haddress]
      simp only [hbackend, henabled, forall_const, Option.some.injEq, forall_eq', exists_eq_left',
        ← splitAddress_denotes_iff]
      exact redis_starts_iff (fun config => some (RateLimiterAdapter.redis config)) RedisRateLimiterConfig.host
        RedisRateLimiterConfig.port (fun p => ⟨p.1, p.2⟩)
        (fun _ _ h => RateLimiterAdapter.redis.inj (Option.some.inj h))
        (fun _ => ⟨rfl, rfl⟩) address
  · rw [if_pos (by simpa using henabled)]
    exact iff_of_true ⟨_, rfl, by simp⟩ fun h => absurd h henabled

/-! ## Accepted configurations -/

theorem parseStorageConfigNode_eq_ok {cfg : StorageConfig} (h : parseStorageConfigNode yaml root = .ok cfg) :
    readCache yaml root = .ok cfg.cache ∧ readRateLimit yaml root = .ok cfg.rateLimit ∧
      requireMetadata cfg.metadata = .ok () ∧ requireCache cfg.cache = .ok () ∧
      requireRateLimit cfg.rateLimit = .ok () := by
  unfold parseStorageConfigNode at h
  obtain ⟨metadata, -, h⟩ := bind_eq_ok h
  obtain ⟨cache, hcache, h⟩ := bind_eq_ok h
  obtain ⟨analytics, -, h⟩ := bind_eq_ok h
  obtain ⟨rateLimit, hrateLimit, h⟩ := bind_eq_ok h
  obtain ⟨_, hmetadataOk, h⟩ := bind_eq_ok h
  obtain ⟨_, hcacheOk, h⟩ := bind_eq_ok h
  obtain ⟨_, -, h⟩ := bind_eq_ok h
  obtain ⟨_, hrateLimitOk, h⟩ := bind_eq_ok h
  cases h
  exact ⟨hcache, hrateLimit, hmetadataOk, hcacheOk, hrateLimitOk⟩

/-- **The configuration starts**: the factory returns, and each Redis adapter is given the host and the port that the
address denotes. -/
def Starts (cfg : StorageConfig) : Prop :=
  ∃ adapters, buildStorageAdapters cfg = .ok adapters ∧
    (∀ redis, adapters.cache = .redis redis →
      ∃ address, cfg.cache.redisAddress = some address ∧ Denotes address redis.host redis.port) ∧
    ∀ redis, adapters.rateLimiter = some (.redis redis) →
      ∃ address, cfg.rateLimit.redisAddress = some address ∧ Denotes address redis.host redis.port

/-- The factory builds the adapters one by one. -/
theorem starts_parts {cfg : StorageConfig} (hmetadata : ∃ adapter, buildMetadata cfg.metadata = .ok adapter) :
    Starts cfg ↔
      (∃ adapter, buildCache cfg.cache = .ok adapter ∧ ∀ redis, adapter = .redis redis →
        ∃ address, cfg.cache.redisAddress = some address ∧ Denotes address redis.host redis.port) ∧
      ∃ adapter, buildRateLimiter cfg.rateLimit = .ok adapter ∧ ∀ redis, adapter = some (.redis redis) →
        ∃ address, cfg.rateLimit.redisAddress = some address ∧ Denotes address redis.host redis.port := by
  obtain ⟨metadata, hmetadata⟩ := hmetadata
  constructor
  · rintro ⟨adapters, hbuild, hcache, hrateLimiter⟩
    unfold buildStorageAdapters at hbuild
    obtain ⟨_, -, hbuild⟩ := bind_eq_ok hbuild
    obtain ⟨cache, hcacheOk, hbuild⟩ := bind_eq_ok hbuild
    obtain ⟨rateLimiter, hrateLimiterOk, hbuild⟩ := bind_eq_ok hbuild
    cases hbuild
    exact ⟨⟨cache, hcacheOk, hcache⟩, rateLimiter, hrateLimiterOk, hrateLimiter⟩
  · rintro ⟨⟨cache, hcacheOk, hcache⟩, rateLimiter, hrateLimiterOk, hrateLimiter⟩
    refine ⟨⟨metadata, cache, buildAnalytics cfg.analytics, rateLimiter⟩, ?_, hcache, hrateLimiter⟩
    rw [buildStorageAdapters, hmetadata, hcacheOk, hrateLimiterOk]
    rfl

/-- The Redis addresses that the document puts to use are a name, a colon and the digits of a port. -/
structure AddressesDenote (yaml : YamlCpp Node) (root : Node) : Prop where
  cache : Setting yaml yaml.asString root "cache" "backend" "redis" →
    ∀ address, Setting yaml yaml.asString root "cache" "redis_address" address → HostPort address
  rateLimit : Setting yaml yaml.asBool root "rate_limit" "enabled" true →
    Setting yaml yaml.asString root "rate_limit" "backend" "redis" →
    ∀ address, Setting yaml yaml.asString root "rate_limit" "redis_address" address → HostPort address

/-- **An accepted configuration starts exactly if every Redis address in use denotes a host and a port** with one
colon between them. -/
theorem starts_iff (yaml : YamlCpp Node) (yamlContent : Str) (root : Node) (cfg : StorageConfig)
    (hload : yaml.load yamlContent = .ok root) (haccepted : parseStorageConfigYaml yaml yamlContent = .ok cfg) :
    Starts cfg ↔ AddressesDenote yaml root := by
  have hnode : parseStorageConfigNode yaml root = .ok cfg := by
    rw [parseStorageConfigYaml, hload] at haccepted
    exact haccepted
  obtain ⟨hcache, hrateLimit, hmetadataOk, hcacheOk, hrateLimitOk⟩ := parseStorageConfigNode_eq_ok hnode
  obtain ⟨hcacheBackend, hcacheAddress⟩ := readCache_settings hcache
  obtain ⟨henabled, hlimitBackend, hlimitAddress⟩ := readRateLimit_settings hrateLimit
  rw [starts_parts (buildMetadata_ok hmetadataOk), buildCache_starts_iff hcacheOk,
    buildRateLimiter_starts_iff hrateLimitOk]
  simp only [hcacheBackend, hcacheAddress, henabled, hlimitBackend, hlimitAddress]
  exact ⟨fun h => ⟨h.1, h.2⟩, fun h => ⟨h.cache, h.rateLimit⟩⟩

/-! ## Two documents -/

/-- Nodes of texts and maps. -/
inductive YamlNode
  | scalar (text : Str)
  | map (entries : List (Str × YamlNode))

/-- A document with a Redis cache, and nothing else. -/
def redisDocument (address : Str) : Str :=
  "cache:\n  backend: redis\n  redis_address: " ++ address ++ "\n"

/-- A document that asks for Redis. -/
def redisNode (address : Str) : YamlNode :=
  .map [("cache", .map [("backend", .scalar "redis"), ("redis_address", .scalar address)])]

/-- The conversions of scalars, and a loader that knows such a document. -/
def redisYaml (address : Str) : YamlCpp YamlNode where
  load text := if text = redisDocument address then .ok (redisNode address) else .error "unknown"
  get node key :=
    match node with
    | .scalar _ => .error "operator[] call on a scalar"
    | .map entries => .ok (entries.lookup key)
  asString node :=
    match node with
    | .scalar text => .ok text
    | .map _ => .error "bad conversion"
  asInt _ := .error "bad conversion"
  asBool _ := .error "bad conversion"

/-- What is read from it. -/
def redisConfig (address : Str) : StorageConfig := { cache := ⟨"redis", some address, none⟩ }

theorem load_redisDocument (address : Str) :
    (redisYaml address).load (redisDocument address) = .ok (redisNode address) :=
  if_pos rfl

theorem starts_iff_sample : Starts (redisConfig "127.0.0.1:6379".toList) := by
  refine (starts_iff (redisYaml "127.0.0.1:6379".toList) (redisDocument "127.0.0.1:6379".toList) _ _
    (load_redisDocument _) rfl).2 ⟨?_, ?_⟩
  · rintro - address ⟨node, entry, hnode, hentry, haddress⟩
    cases hnode
    cases hentry
    cases haddress
    have hdigits : ∀ c ∈ "6379".toList, c.isDigit = true := List.forall_iff_forall_mem.1 (by decide +kernel)
    exact ⟨"127.0.0.1".toList, "6379".toList, rfl, by decide, by decide, by decide, hdigits, by decide, by decide⟩
  · intro henabled
    exact absurd henabled (not_setting rfl true)

/-- **An accepted configuration that does not start**: without a colon, the port is read from the name. -/
theorem accepted_not_started :
    parseStorageConfigYaml (redisYaml "localhost") (redisDocument "localhost") =
        .ok (redisConfig "localhost") ∧
      buildStorageAdapters (redisConfig "localhost") = .error "stoi" :=
  ⟨rfl, rfl⟩

end UrlShortener.Composition

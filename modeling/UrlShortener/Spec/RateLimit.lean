import UrlShortener.Spec.Time
import UrlShortener.Numbers.Double

/-!
# Rate limiters

`storage/inmemory/in_memory_rate_limiter.cpp` and `storage/redis/redis_rate_limiter.cpp`, with the part of
a Redis server its script uses. A reading of the clock is part of the call; the server's clock shows the
same time, in seconds. The connection to the server is up.
-/

namespace UrlShortener.RateLimit

open Numbers

/-- Why there is no decision. -/
inductive RateLimitError
  | none
  | invalidKey
  | invalidPolicy
  | unavailable
  deriving DecidableEq

/-- The decision on a request. -/
structure RateLimitDecision where
  allowed : Bool
  remaining : UInt64
  resetAt : TimePoint
  deriving DecidableEq

/-- One call of `Allow`; the window counts seconds. -/
structure AllowCall where
  key : Str
  limit : UInt64
  window : Int64
  now : TimePoint

/-! ## `InMemoryRateLimiter` -/

/-- Requests since the start of a window. -/
structure Bucket where
  count : UInt64 := 0
  resetAt : TimePoint := 0
  deriving DecidableEq

/-- `buckets_`. -/
abbrev Buckets := UnorderedMap Str Bucket

/-- `Allow`. -/
def InMemoryRateLimiter.allow (call : AllowCall) (buckets : Buckets) :
    (RateLimitDecision × RateLimitError) × Buckets :=
  if call.key = [] then ((⟨false, 0, call.now⟩, .invalidKey), buckets)
  else if call.window ≤ 0 then ((⟨false, 0, call.now⟩, .invalidPolicy), buckets)
  else
    let bucket := (buckets.lookup call.key).getD {}
    let bucket : Bucket :=
      if bucket.count = 0 ∨ call.now ≥ bucket.resetAt then ⟨0, call.now.addSeconds call.window.toInt⟩ else bucket
    if call.limit = 0 ∨ bucket.count ≥ call.limit then
      ((⟨false, 0, bucket.resetAt⟩, .none), buckets.insert call.key bucket)
    else
      let bucket := { bucket with count := bucket.count + 1 }
      ((⟨true, call.limit - bucket.count, bucket.resetAt⟩, .none), buckets.insert call.key bucket)

/-! ## Redis -/

/-- A key that holds a counter, and the second from which on it is absent. -/
structure RedisEntry where
  value : ℕ
  expiresAt : Option Int := none

/-- The keys of the server. -/
abbrev RedisKeys := Str → Option RedisEntry

namespace Redis

/-- The keys whose time has come are gone. -/
def expireDue (now : Int) (keys : RedisKeys) : RedisKeys := fun key =>
  (keys key).filter fun entry => entry.expiresAt.all (now < ·)

/-- `INCR`: a missing key counts as 0; the value is a signed 64-bit integer and must not overflow. -/
def incr (key : Str) (keys : RedisKeys) : Option (ℕ × RedisKeys) :=
  let entry := (keys key).getD ⟨0, none⟩
  if entry.value + 1 < 2 ^ 63 then
    some (entry.value + 1, Function.update keys key (some { entry with value := entry.value + 1 }))
  else none

/-- `EXPIRE`, with a positive time to live. -/
def expire (key : Str) (seconds now : Int) (keys : RedisKeys) : RedisKeys :=
  Function.update keys key ((keys key).map fun entry => { entry with expiresAt := some (now + seconds) })

/-- `TTL`. -/
def ttl (key : Str) (now : Int) (keys : RedisKeys) : Int :=
  match keys key with
  | none => -2
  | some entry =>
    match entry.expiresAt with
    | none => -1
    | some time => time - now

/-- The three integers of a reply. -/
structure Reply where
  flag : Int
  current : Int
  ttl : Int

/-- **`kFixedWindowScript`**, at second `now`; no reply when `INCR` fails. The numbers of the script are
doubles: what a command returns is rounded to one, and a number in the reply is truncated to an integer. A
time to live below 0 is replaced by the text of `ARGV[2]`, whose reply has no integer. -/
def fixedWindowScript (key : Str) (limit : UInt64) (window : Int64) (now : Int) (keys : RedisKeys) :
    Option Reply × RedisKeys :=
  let keys := expireDue now keys
  match incr key keys with
  | none => (none, keys)
  | some (current, keys) =>
    let keys := if nearestDouble current = 1 then expire key window.toInt now keys else keys
    let left := ttl key now keys
    let left := if left < 0 then 0 else toLongLong (nearestDouble left.toNat)
    let flag := if nearestDouble current ≤ nearestDouble limit.toNat then 1 else 0
    (some ⟨flag, toLongLong (nearestDouble current), left⟩, keys)

end Redis

/-! ## `RedisRateLimiter` -/

/-- The texts that go into a key. -/
structure RedisRateLimiterConfig where
  scope : Str := "global"
  keyPrefix : Str := "ratelimit:"

namespace RedisRateLimiter

/-- `ComposeKey`. -/
def composeKey (keyPrefix scope id : Str) : Str := keyPrefix ++ scope ++ [':'] ++ id

/-- `c_str()` as an argument of `redisCommand`: the text up to the first NUL. -/
def cStr (s : Str) : Str := s.takeWhile (· != Char.ofNat 0)

/-- `Allow`, by way of the script. -/
def allow (config : RedisRateLimiterConfig) (call : AllowCall) (keys : RedisKeys) :
    (RateLimitDecision × RateLimitError) × RedisKeys :=
  if call.key = [] then ((⟨false, 0, call.now⟩, .invalidKey), keys)
  else if call.window ≤ 0 then ((⟨false, 0, call.now⟩, .invalidPolicy), keys)
  else
    let redisKey := composeKey config.keyPrefix config.scope call.key
    let second := call.now.toInt / 1000000000
    match Redis.fixedWindowScript (cStr redisKey) call.limit call.window second keys with
    | (none, keys) => ((⟨false, 0, call.now⟩, .unavailable), keys)
    | (some reply, keys) =>
      let allowed := reply.flag == 1
      let count := UInt64.ofNat (max 0 reply.current).toNat
      let ttl := max 0 reply.ttl
      let remaining := if call.limit = 0 ∨ count ≥ call.limit then 0 else call.limit - count
      let resetAt := call.now.addSeconds ttl
      ((⟨allowed && call.limit > 0, remaining, resetAt⟩, .none), keys)

end RedisRateLimiter

end UrlShortener.RateLimit

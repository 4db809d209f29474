import UrlShortener.Spec.RedisCache
import UrlShortener.Spec.LinkService
import UrlShortener.Spec.RateLimit

/-!
# The Redis cache store

`storage/redis/redis_cache_store.cpp`. The server is a parameter: what it does and replies at a command is in no source
of the repository. What results rest on is named in `Redis.Keeps`, which holds whichever keys the server drops to make
room.

The server's clock shows the time of the call. A call at a `Moment` with a cache error finds no connection.
-/

namespace UrlShortener.RedisCache

open Storage (CacheValue CacheError Moment ICacheStore)
open RateLimit.RedisRateLimiter (cStr)

/-! ## The server -/

/-- The commands of the store. -/
inductive Command
  | get (key : Str)
  | set (key payload : Str)
  | setex (key : Str) (seconds : ℤ) (payload : Str)
  | del (key : Str)
  | keys (pattern : Str)

/-- The `type` of a `redisReply`, with the text or the texts of its elements where the store reads them. -/
inductive Reply
  | nil
  | string (text : Str)
  | status
  | integer
  | array (texts : List Str)
  | error
  deriving DecidableEq

/-- **A Redis server** with states of type `Server`: `redisCommand` at a millisecond of its clock; no reply if the
connection is lost. -/
structure Redis (Server : Type) where
  run : (nowMs : ℤ) → Command → Server → Option Reply × Server

/-- The server's clock, in milliseconds. -/
def milliseconds (now : TimePoint) : ℤ := now.toInt / 1000000

namespace Redis

variable {Server : Type}

/-- The key and the text that a command is to store. -/
def puts : Command → Option (Str × Str)
  | .set key payload => some (key, payload)
  | .setex key _ payload => some (key, payload)
  | _ => none

/-- **What a server keeps.** `content` is what its keys hold. A command stores its own text or loses a key, and changes
nothing else: keys may go at any time, as their time is over or for want of memory. -/
structure Keeps (redis : Redis Server) (content : Server → Str → Option Str) : Prop where
  /-- `GET` replies with what the key holds. -/
  get : ∀ nowMs key server text, (redis.run nowMs (.get key) server).1 = some (.string text) →
    content server key = some text
  /-- `DEL` removes its key. -/
  del : ∀ nowMs key server, content (redis.run nowMs (.del key) server).2 key = none
  kept : ∀ nowMs command server key,
    content (redis.run nowMs command server).2 key = none ∨
      content (redis.run nowMs command server).2 key = content server key ∨
      ∃ text, puts command = some (key, text) ∧ content (redis.run nowMs command server).2 key = some text

end Redis

/-! ## The store -/

/-- The fields that the store reads. -/
structure RedisCacheConfig where
  keyPrefix : Str := "link:"
  defaultTtl : Option Int64 := none

/-- `BuildCacheKey`. -/
def buildCacheKey (start shortCode : Str) : Str := start ++ shortCode

namespace RedisCacheStore

variable {Server : Type} (redis : Redis Server) (config : RedisCacheConfig)

/-- `FullKey`. -/
def fullKey (key : Str) : Str := buildCacheKey config.keyPrefix key

/-- `EffectiveTtl`. -/
def effectiveTtl (ttl : Option Int64) : Option Int64 := if ttl.isSome then ttl else config.defaultTtl

/-- The payload is read as a C string. -/
def get (m : Moment) (key : Str) (server : Server) : (Option CacheValue × CacheError) × Server :=
  if m.cacheError ≠ .none then ((none, .unavailable), server)
  else
    let done := redis.run (milliseconds m.now) (.get (cStr (fullKey config key))) server
    match done.1 with
    | none => ((none, .unavailable), done.2)
    | some (.string payload) => ((deserializeCacheValue (cStr payload), .none), done.2)
    | some _ => ((none, .none), done.2)

/-- The command of a `Set`. A time to live that is not positive is no time to live. -/
def setCommand (key : Str) (value : CacheValue) (ttl : Option Int64) : Command :=
  let payload := serializeCacheValue value
  match (effectiveTtl config ttl).filter (0 < ·) with
  | some seconds => .setex (cStr (fullKey config key)) seconds.toInt payload
  | none => .set (cStr (fullKey config key)) payload

/-- `Set`. -/
def set (m : Moment) (key : Str) (value : CacheValue) (ttl : Option Int64) (server : Server) : Bool × Server :=
  if m.cacheError ≠ .none then (false, server)
  else
    let done := redis.run (milliseconds m.now) (setCommand config key value ttl) server
    (decide (done.1 = some .status), done.2)

/-- `Delete`. -/
def delete (m : Moment) (key : Str) (server : Server) : Bool × Server :=
  if m.cacheError ≠ .none then (false, server)
  else
    let done := redis.run (milliseconds m.now) (.del (cStr (fullKey config key))) server
    (done.1.isSome, done.2)

/-- The keys that `KEYS` returns are deleted one after the other. -/
def clearByPrefix (m : Moment) (start : Str) (server : Server) : Bool × Server :=
  if m.cacheError ≠ .none then (false, server)
  else
    let nowMs := milliseconds m.now
    let done := redis.run nowMs (.keys (cStr (fullKey config start) ++ ['*'])) server
    match done.1 with
    | some (.array found) =>
      (true, found.foldl (fun server key => (redis.run nowMs (.del (cStr key)) server).2) done.2)
    | _ => (false, done.2)

end RedisCacheStore

/-- The store as a port. -/
def redisCacheStore {Server : Type} (redis : Redis Server) (config : RedisCacheConfig) : ICacheStore Server where
  get := RedisCacheStore.get redis config
  set := RedisCacheStore.set redis config
  delete := RedisCacheStore.delete redis config

end UrlShortener.RedisCache

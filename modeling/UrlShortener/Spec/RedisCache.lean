import UrlShortener.Spec.Stats
import UrlShortener.Spec.Storage
import UrlShortener.Text.Lines

/-!
# Values of the Redis cache

The payloads of `storage/redis/redis_cache_serialization.cpp`. `std::size_t` is 64 bits wide.
-/

namespace UrlShortener.RedisCache

open Storage (CacheValue)

/-- `Split`: the reads of `std::getline`. -/
def split (text : Str) (delim : Char) : List Str := Text.readTexts delim text

/-- The first field of a payload. -/
def kSchemaVersion : ℕ := 1

/-- `std::string::size`. -/
def size (text : Str) : UInt64 := UInt64.ofNat text.length

/-- Six fields with bars between. -/
def serializeCacheValue (value : CacheValue) : Str :=
  let exp := value.expiresAt.elim [] fun tp => (toString (toTimeT tp)).toList
  let ver := value.version.elim [] fun version => decimal version.toNat
  "v=".toList ++ decimal kSchemaVersion ++
    "|a=".toList ++ (if value.isActive then "1".toList else "0".toList) ++
    "|e=".toList ++ exp ++
    "|r=".toList ++ ver ++
    "|n=".toList ++ decimal (size value.targetUrl).toNat ++
    "|u=".toList ++ value.targetUrl

/-- An empty text stands for no value. What is behind the number is not looked at. -/
def readExpiry (exp : Str) : Option (Option TimePoint) :=
  if exp = [] then some none else (stoll exp).map fun p => some (fromTimeT p.1)

/-- An empty text stands for none. -/
def readVersion (ver : Str) : Option (Option UInt64) :=
  if ver = [] then some none else (stoull ver).map some

/-- A payload of another form is no value. -/
def deserializeCacheValue (payload : Str) : Option CacheValue :=
  match split payload '|' with
  | part0 :: part1 :: part2 :: part3 :: part4 :: part5 :: _ =>
    if part0 ≠ "v=1" then none
    else if part1 ≠ "a=0" ∧ part1 ≠ "a=1" then none
    else if !startsWith part4 "n=" || !startsWith part5 "u=" then none
    else if !startsWith part2 "e=" || !startsWith part3 "r=" then none
    else
      match readExpiry (part2.drop 2), readVersion (part3.drop 2), stoull (part4.drop 2) with
      | some expiresAt, some version, some n =>
        let targetUrl := part5.drop 2
        if size targetUrl ≠ n then none
        else some { targetUrl, expiresAt, isActive := decide (part1 = "a=1"), version }
      | _, _, _ => none
  | _ => none

end UrlShortener.RedisCache

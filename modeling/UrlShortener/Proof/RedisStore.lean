import UrlShortener.Caching.Ttl
import UrlShortener.Spec.RedisStore
import UrlShortener.Proof.Transparency
import UrlShortener.Proof.RedisCache
import UrlShortener.Proof.RateLimit

/-!
# The Redis cache behind `LinkService`

* `readBack_eq`: a value comes back with its expiry cut to whole seconds, or not at all if its address has a bar.
* `redisCacheStore_serves`: so what a server keeps **serves** the record it was filled with, whichever keys it drops and
  whenever it cannot be reached by a `Get` or a `Set`.
* `redis_resolve_transparent`: with Redis for a cache, a `Resolve` answers what the repository alone gives.
-/

namespace UrlShortener.RedisCache

open Storage
open RateLimit (NulFree)
open RateLimit.RedisRateLimiter (cStr)
open LinkService (resolve)
open Caching (TtlMap)

/-! ## C strings and keys -/

theorem cStr_eq {text : Str} (h : NulFree text) : cStr text = text := by
  unfold cStr
  rw [List.takeWhile_eq_self_iff]
  intro c hc
  simpa using h c hc

theorem nulFree_of_all {text : Str} (h : text.all (· != Char.ofNat 0) = true) : NulFree text := by
  intro c hc
  simpa using List.all_eq_true.1 h c hc

theorem nulFree_append {a b : Str} (ha : NulFree a) (hb : NulFree b) : NulFree (a ++ b) := by
  intro c hc
  rcases List.mem_append.1 hc with hc | hc
  · exact ha c hc
  · exact hb c hc

/-- The key of the server. -/
def serverKey (config : RedisCacheConfig) (key : Str) : Str := cStr (RedisCacheStore.fullKey config key)

theorem serverKey_eq {config : RedisCacheConfig} (hconfig : NulFree config.keyPrefix) {key : Str} (hkey : NulFree key) :
    serverKey config key = config.keyPrefix ++ key :=
  cStr_eq (nulFree_append hconfig hkey)

theorem serverKey_ne {config : RedisCacheConfig} (hconfig : NulFree config.keyPrefix) {key key' : Str}
    (hkey : NulFree key) (hkey' : NulFree key') (hne : key ≠ key') : serverKey config key ≠ serverKey config key' := by
  rw [serverKey_eq hconfig hkey, serverKey_eq hconfig hkey']
  intro h
  exact hne (List.append_cancel_left h)

/-! ## What is read back -/

/-- What a `Get` makes of the payload of a value. -/
def readBack (value : CacheValue) : Option CacheValue := deserializeCacheValue (cStr (serializeCacheValue value))

/-- **What the store remembers of a value**: nothing if its address has a bar, and otherwise its expiry only to the
second. -/
def remembered (value : CacheValue) : Option CacheValue :=
  if '|' ∈ value.targetUrl then none else some { value with expiresAt := value.expiresAt.map wholeSeconds }

/-- An address that the payload can carry. -/
structure Storable (url : Str) : Prop where
  nulFree : NulFree url
  length_lt : url.length < 2 ^ 64

theorem nulFree_decimal (n : ℕ) : NulFree (decimal n) := by
  intro c hc h
  have hdigit := decimal_isDigit hc
  rw [h] at hdigit
  exact absurd hdigit (by decide)

theorem nulFree_toString (n : ℤ) : NulFree (toString n).toList := by
  rw [toString_toList]
  refine nulFree_append ?_ (nulFree_decimal _)
  split
  · exact List.forall_mem_singleton.2 (by decide)
  · exact List.forall_mem_nil _

theorem nulFree_serialize {value : CacheValue} (h : NulFree value.targetUrl) : NulFree (serializeCacheValue value) := by
  have hactive : NulFree (if value.isActive then "1" else "0") := by
    split
    · exact nulFree_of_all (by decide)
    · exact nulFree_of_all (by decide)
  have hexpiry : NulFree (value.expiresAt.elim [] fun tp => (toString (toTimeT tp)).toList) := by
    cases value.expiresAt with
    | none => exact List.forall_mem_nil _
    | some tp => exact nulFree_toString _
  have hversion : NulFree (value.version.elim [] fun version => decimal version.toNat) := by
    cases value.version with
    | none => exact List.forall_mem_nil _
    | some version => exact nulFree_decimal _
  have hv : NulFree "v=" := nulFree_of_all (by decide)
  have ha : NulFree "|a=" := nulFree_of_all (by decide)
  have he : NulFree "|e=" := nulFree_of_all (by decide)
  have hr : NulFree "|r=" := nulFree_of_all (by decide)
  have hn : NulFree "|n=" := nulFree_of_all (by decide)
  have hu : NulFree "|u=" := nulFree_of_all (by decide)
  have hstart := nulFree_append (nulFree_append (nulFree_append hv (nulFree_decimal kSchemaVersion)) ha) hactive
  have hmiddle := nulFree_append (nulFree_append (nulFree_append (nulFree_append hstart he) hexpiry) hr) hversion
  have hsize := nulFree_append (nulFree_append hmiddle hn) (nulFree_decimal (size value.targetUrl).toNat)
  exact nulFree_append (nulFree_append hsize hu) h

/-- An address that was cut at a bar has another size. -/
theorem size_beforeBar {url : Str} (hlength : url.length < 2 ^ 64) :
    size (beforeBar url) = size url ↔ '|' ∉ url := by
  rw [← beforeBar_eq_iff]
  constructor
  · intro h
    have hle : (beforeBar url).length ≤ url.length := (List.takeWhile_prefix _).length_le
    have hnat := congrArg UInt64.toNat h
    unfold size at hnat
    rw [UInt64.toNat_ofNat_of_lt' (by simpa using lt_of_le_of_lt hle hlength),
      UInt64.toNat_ofNat_of_lt' (by simpa using hlength)] at hnat
    exact (List.takeWhile_prefix _).eq_of_length hnat
  · intro h
    rw [h]

/-- **What comes back** is what is remembered. -/
theorem readBack_eq {value : CacheValue} (h : Storable value.targetUrl) : readBack value = remembered value := by
  unfold readBack remembered
  rw [cStr_eq (nulFree_serialize h.nulFree), deserialize_serialize]
  by_cases hbar : '|' ∈ value.targetUrl
  · rw [if_pos hbar, if_pos (mt (size_beforeBar h.length_lt).1 (not_not.2 hbar))]
  · rw [if_neg hbar, if_neg (not_not.2 ((size_beforeBar h.length_lt).2 hbar)), beforeBar_eq_iff.2 hbar]

/-! ## What is kept serves the record -/

theorem wholeSeconds_le {tp : TimePoint} (h : 0 ≤ tp) : wholeSeconds tp ≤ tp := by
  have hbounds := toTimeT_bounds tp
  rw [Int64.le_iff_toInt_le] at h ⊢
  rw [← fromTimeT_toTimeT_eq, toInt_fromTimeT hbounds.1 hbounds.2, toTimeT,
    Int.tdiv_eq_ediv_of_nonneg (by simpa using h)]
  omega

/-- A record that the cache can take: an address that the payload can carry, an expiry after the epoch. -/
structure Cacheable (r : LinkRecord) : Prop where
  target : Storable r.targetUrl
  expiry : ∀ tp, r.expiresAt = some tp → 0 ≤ tp

theorem serves_remembered {r : LinkRecord} (hr : Cacheable r) {value v : CacheValue} (hm : Mirrors r value)
    (hv : remembered value = some v) : Serves r v := by
  unfold remembered at hv
  split at hv
  · cases hv
  · cases hv
    intro t ht
    rw [Bool.and_eq_true, Bool.not_eq_true'] at ht
    refine hm.serves t ?_
    rw [Bool.and_eq_true, Bool.not_eq_true']
    refine ⟨ht.1, ?_⟩
    -- the expiry has not come, since the earlier one has not
    have hlater := ht.2
    cases hexpiry : value.expiresAt with
    | none => rfl
    | some tp =>
      have hnonneg := hr.expiry tp (hm.expiresAt ▸ hexpiry)
      simp only [hexpiry, Option.map_some, Option.any_some, decide_eq_false_iff_not] at hlater ⊢
      intro hle
      exact hlater (Int64.le_trans (wholeSeconds_le hnonneg) hle)

/-! ## The store -/

variable {Server : Type} {redis : Redis Server} {content : Server → Str → Option Str} {config : RedisCacheConfig}

/-- What a key of the server holds for the store. -/
def held (content : Server → Str → Option Str) (config : RedisCacheConfig) (server : Server) (key : Str) :
    Option CacheValue :=
  (content server (serverKey config key)).bind fun text => deserializeCacheValue (cStr text)

/-- What is held changes at a key that is lost, or under a command that stores a text there. -/
theorem held_run (hredis : redis.Keeps content) (nowMs : ℤ) (command : Command) (server : Server) (k : Str) :
    Kept (held content config server) (held content config (redis.run nowMs command server).2) k ∨
      ∃ text, Redis.puts command = some (serverKey config k, text) ∧
        held content config (redis.run nowMs command server).2 k = deserializeCacheValue (cStr text) := by
  rcases hredis.kept nowMs command server (serverKey config k) with hgone | hsame | ⟨text, hputs, htext⟩
  · refine .inl (.inl ?_)
    rw [held, hgone, Option.bind_none]
  · refine .inl (.inr ?_)
    rw [held, hsame, held]
  · refine .inr ⟨text, hputs, ?_⟩
    rw [held, htext, Option.bind_some]

theorem held_kept (hredis : redis.Keeps content) {command : Command} {k : Str}
    (hquiet : ∀ text, Redis.puts command ≠ some (serverKey config k, text)) (nowMs : ℤ) (server : Server) :
    Kept (held content config server) (held content config (redis.run nowMs command server).2) k := by
  rcases held_run hredis nowMs command server k with hkept | ⟨text, hputs, -⟩
  · exact hkept
  · exact absurd hputs (hquiet text)

/-- `SET` or `SETEX`, with the same key and payload. -/
theorem puts_setCommand (key : Str) (value : CacheValue) (ttl : Option Int64) :
    Redis.puts (RedisCacheStore.setCommand config key value ttl)
      = some (serverKey config key, serializeCacheValue value) := by
  unfold RedisCacheStore.setCommand
  dsimp only
  split <;> rfl

/-- The store in a run in which every `Delete` reaches the server. -/
def deletesReach {Cache : Type} (store : ICacheStore Cache) : ICacheStore Cache :=
  { store with delete := fun m => store.delete { m with cacheError := .none } }

theorem get_state (m : Moment) (key : Str) (server : Server) :
    ((deletesReach (redisCacheStore redis config)).get m key server).2 =
      if m.cacheError ≠ .none then server
      else (redis.run (milliseconds m.now) (.get (serverKey config key)) server).2 := by
  simp only [deletesReach, redisCacheStore, RedisCacheStore.get]
  split
  · rfl
  · split <;> rfl

theorem set_state (m : Moment) (key : Str) (value : CacheValue) (ttl : Option Int64) (server : Server) :
    ((deletesReach (redisCacheStore redis config)).set m key value ttl server).2 =
      if m.cacheError ≠ .none then server
      else (redis.run (milliseconds m.now) (RedisCacheStore.setCommand config key value ttl) server).2 := by
  simp only [deletesReach, redisCacheStore, RedisCacheStore.set]
  split <;> rfl

theorem delete_state (m : Moment) (key : Str) (server : Server) :
    ((deletesReach (redisCacheStore redis config)).delete m key server).2
      = (redis.run (milliseconds m.now) (.del (serverKey config key)) server).2 := rfl

/-- **What the service relies on in a cache** holds of Redis, where no text has a NUL byte. -/
theorem redisCacheStore_serves (hredis : redis.Keeps content) (hconfig : NulFree config.keyPrefix) :
    (deletesReach (redisCacheStore redis config)).ServesOn NulFree Cacheable (held content config) where
  get_hit m key server v h := by
    simp only [deletesReach, redisCacheStore, RedisCacheStore.get] at h
    split at h
    · cases h
    · split at h
      · cases h
      · next text hreply =>
        have hread : deserializeCacheValue (cStr text) = some v := (Prod.mk.inj h).1
        have htext : content server (serverKey config key) = some text :=
          hredis.get (milliseconds m.now) _ server text hreply
        rw [held, htext, Option.bind_some, hread]
      · cases h
  get_kept m key server k := by
    rw [get_state]
    split
    · exact Kept.refl _ k
    · exact held_kept hredis (fun text => by simp [Redis.puts]) _ server
  set_self m key value ttl server r hr hm := by
    rw [set_state]
    split
    · exact .inr (Kept.refl _ key)
    · rcases held_run hredis (milliseconds m.now) (RedisCacheStore.setCommand config key value ttl) server key with
        hkept | ⟨text, hputs, htext⟩
      · exact .inr hkept
      · -- the payload is stored, and read back as the value is remembered
        rw [puts_setCommand] at hputs
        cases hputs
        rw [show deserializeCacheValue (cStr (serializeCacheValue value)) = remembered value from
          readBack_eq (hm.targetUrl ▸ hr.target)] at htext
        cases hread : remembered value with
        | none => exact .inr (.inl (htext.trans hread))
        | some v => exact .inl ⟨v, htext.trans hread, serves_remembered hr hm hread⟩
  set_other m key value ttl server k hkey hk hne := by
    rw [set_state]
    split
    · exact Kept.refl _ k
    · refine held_kept hredis (fun text hputs => ?_) _ server
      rw [puts_setCommand] at hputs
      have hsame : serverKey config key = serverKey config k := (Prod.mk.inj (Option.some.inj hputs)).1
      exact serverKey_ne hconfig hk hkey hne hsame.symm
  delete_self m key server := by
    rw [delete_state, held, hredis.del, Option.bind_none]
  delete_kept m key server k := by
    rw [delete_state]
    exact held_kept hredis (fun text => by simp [Redis.puts]) _ server

/-- **Redis is transparent.** Take any run of the service with the Redis cache, with any clock, whichever keys the
server drops and whichever `Get` and `Set` calls do not reach it, but all of the `Delete` calls. The codes and the
prefix have no NUL byte and the records can be cached. A `Resolve` that follows has the status and the target that the
service with no cache gives at an instant within that `Resolve`. -/
theorem redis_resolve_transparent (redis : Redis Server) (content : Server → Str → Option Str)
    (hredis : redis.Keeps content) (server : Server) (hempty : ∀ key, content server key = none)
    (config : RedisCacheConfig) (hconfig : NulFree config.keyPrefix) (weather weather' : ℕ → Moment)
    (repo : Storage.InMemoryMetadataRepository) (hrepo : InUse Cacheable repo)
    (ops : List ServiceOp) (hops : ∀ op ∈ ops, op.InUse NulFree Cacheable) (code : Str) (hcode : NulFree code) :
    AnswersAt (deletesReach (redisCacheStore redis config)) weather
      (portsAfter (deletesReach (redisCacheStore redis config)) weather { repo, cache := server } ops) (resolve code)
      fun t =>
        (resolveUncached t (portsAfter noopCacheStore weather' { repo, cache := () } ops).repo code).outcome := by
  refine (redisCacheStore_serves hredis hconfig).answersAt hrepo ?_ hops hcode weather'
  intro key
  rw [held, hempty, Option.bind_none]

/-! ## A server -/

/-- What was written under a key and until when, the last of it first; nothing where the key was deleted. -/
abbrev Journal := List (Str × Option (Str × Option ℤ))

namespace Journal

/-- The last line about each key. -/
def entries (journal : Journal) : TtlMap Str Str ℤ := fun key => (journal.lookup key).join

/-- A server that writes down its commands. -/
def server : Redis Journal where
  run nowMs command journal :=
    match command with
    | .get key => (some (((journal.entries.tick nowMs).get key).elim .nil .string), journal)
    | .set key payload => (some .status, (key, some (payload, none)) :: journal)
    | .setex key seconds payload =>
      if nowMs + seconds * 1000 < 2 ^ 63 then
        (some .status, (key, some (payload, some (nowMs + seconds * 1000 + 1))) :: journal)
      else (some .error, journal)
    | .del key => (some .integer, (key, none) :: journal)
    | .keys pattern =>
      (some (.array ((journal.map Prod.fst).filter fun key =>
        pattern.dropLast.isPrefixOf key && (journal.entries.tick nowMs key).isSome)), journal)

theorem entries_cons (key : Str) (entry : Option (Str × Option ℤ)) (journal : Journal) :
    entries ((key, entry) :: journal) = Function.update (entries journal) key entry := by
  funext k
  by_cases hk : k = key
  · subst hk
    simp [entries]
  · simp [entries, List.lookup_cons, beq_eq_false_iff_ne.2 hk, hk]

/-- What a key holds after one more line. -/
theorem text_cons (key k : Str) (entry : Option (Str × Option ℤ)) (journal : Journal) :
    (entries ((key, entry) :: journal)).get k = if k = key then entry.map Prod.fst else journal.entries.get k := by
  rw [entries_cons, TtlMap.get, Function.update_apply]
  split <;> rfl

theorem server_keeps : server.Keeps fun journal key => journal.entries.get key where
  get nowMs key journal text h := by
    cases htext : (journal.entries.tick nowMs).get key with
    | none =>
      simp only [server, htext] at h
      cases h
    | some text' =>
      simp only [server, htext] at h
      cases h
      obtain ⟨entry, hentry, rfl⟩ := Option.map_eq_some_iff.1 htext
      exact Option.map_eq_some_iff.2 ⟨entry, (Option.filter_eq_some_iff.1 hentry).1, rfl⟩
  del nowMs key journal := (text_cons key key none journal).trans (if_pos rfl)
  kept nowMs command journal key := by
    cases command with
    | get _ => exact .inr (.inl rfl)
    | keys _ => exact .inr (.inl rfl)
    | del name =>
      simp only [server, text_cons]
      split
      · exact .inl rfl
      · exact .inr (.inl rfl)
    | set name payload =>
      simp only [server, text_cons]
      split
      · next h => exact .inr (.inr ⟨payload, by rw [h]; rfl, rfl⟩)
      · exact .inr (.inl rfl)
    | setex name seconds payload =>
      simp only [server]
      split
      · simp only [text_cons]
        split
        · next h => exact .inr (.inr ⟨payload, by rw [h]; rfl, rfl⟩)
        · exact .inr (.inl rfl)
      · exact .inr (.inl rfl)

end Journal

/-- A link is created, resolved, retargeted and resolved again. -/
def sampleOps : List ServiceOp :=
  [.createLink { shortCode := "abc", targetUrl := "https://a.io/?q=a|b", expiresAt := some 1500000000 }
      "1" 0,
    .resolve "abc",
    .update { id := "1", shortCode := "abc", targetUrl := "https://b.io" },
    .resolve "abc"]

theorem sampleOps_transparent :
    AnswersAt (deletesReach (redisCacheStore Journal.server {})) (fun _ => {})
      (portsAfter (deletesReach (redisCacheStore Journal.server {})) (fun _ => {}) { repo := {}, cache := [] }
        sampleOps) (resolve "abc") fun t =>
        (resolveUncached t (portsAfter noopCacheStore (fun _ => {}) { repo := {}, cache := () } sampleOps).repo
          "abc").outcome := by
  have habc : NulFree "abc" := nulFree_of_all (by decide)
  have hconfig : NulFree "link:" := nulFree_of_all (by decide)
  refine redis_resolve_transparent Journal.server _ Journal.server_keeps [] (fun _ => rfl) {} hconfig _ _ {} ?_
    sampleOps ?_ _ habc
  · intro code r h
    simp [Storage.InMemoryMetadataRepository.getByShortCode] at h
  · refine List.forall_mem_cons.2 ⟨⟨⟨nulFree_of_all (by decide), by decide⟩, ?_⟩, ?_⟩
    · rintro tp ⟨⟩
      decide
    · refine List.forall_mem_cons.2 ⟨habc, List.forall_mem_cons.2 ⟨?_, List.forall_mem_singleton.2 habc⟩⟩
      exact ⟨⟨nulFree_of_all (by decide), by decide⟩, fun tp h => by cases h⟩

end UrlShortener.RedisCache

import UrlShortener.Spec.RateLimit
import UrlShortener.Proof.Time
import UrlShortener.Runs.Answers
import Mathlib.Data.List.TakeWhile

/-!
# The two rate limiters agree

* `allow_memory`, `allow_redis`: what a call decides and leaves, from the count the limiter has for the key.
* `Related`: the bucket counts up to the limit what Redis counts, and ends when the key expires.
* `limiters_agree`: over every run in which no window ends after the last representable instant.
-/

namespace UrlShortener.RateLimit

open Runs Numbers

/-- What the caller of `Allow` sees. -/
def decided (d : RateLimitDecision × RateLimitError) : Bool × ℕ := (d.1.allowed, d.1.remaining.toNat)

/-- A decision on the call that finds `count` calls in its window. -/
def fixedWindow (limit count : ℕ) : Bool × ℕ := (decide (count < limit), limit - (count + 1))

/-! ## In memory -/

/-- The bucket is to be started anew. -/
def Bucket.Over (bucket : Bucket) (now : TimePoint) : Prop := bucket.count = 0 ∨ bucket.resetAt ≤ now

instance (bucket : Bucket) (now : TimePoint) : Decidable (bucket.Over now) :=
  inferInstanceAs (Decidable (_ ∨ _))

/-- The bucket a call counts in. -/
def currentBucket (call : AllowCall) (buckets : Buckets) : Bucket :=
  let bucket := (buckets.lookup call.key).getD {}
  if bucket.Over call.now then ⟨0, call.now.addSeconds call.window.toInt⟩ else bucket

theorem allow_eq {call : AllowCall} {buckets : Buckets} {bucket : Bucket} (hkey : call.key ≠ [])
    (hwindow : 0 < call.window) (hbucket : currentBucket call buckets = bucket) :
    InMemoryRateLimiter.allow call buckets =
      if call.limit = 0 ∨ bucket.count ≥ call.limit then
        ((⟨false, 0, bucket.resetAt⟩, .none), buckets.insert call.key bucket)
      else
        ((⟨true, call.limit - (bucket.count + 1), bucket.resetAt⟩, .none),
          buckets.insert call.key ⟨bucket.count + 1, bucket.resetAt⟩) := by
  subst hbucket
  unfold InMemoryRateLimiter.allow
  rw [if_neg hkey, if_neg (Int64.not_le.2 hwindow)]
  rfl

/-- The test for a full bucket; a limit of zero needs no case of its own. -/
theorem full_iff {limit count : UInt64} : (limit = 0 ∨ count ≥ limit) ↔ limit.toNat ≤ count.toNat := by
  rw [ge_iff_le, UInt64.le_iff_toNat_le, or_iff_right_of_imp]
  rintro rfl
  exact Nat.zero_le _

/-- A count below a limit does not wrap. -/
theorem toNat_count_add_one {limit count : UInt64} (h : count.toNat < limit.toNat) :
    (count + 1).toNat = count.toNat + 1 := by
  have := limit.toNat_lt
  rw [UInt64.toNat_add, UInt64.toNat_one, Nat.mod_eq_of_lt (by omega)]

/-- One call of the limiter in memory. -/
theorem allow_memory {call : AllowCall} (buckets : Buckets) (hkey : call.key ≠ []) (hwindow : 0 < call.window)
    (hle : (currentBucket call buckets).count ≤ call.limit) :
    let bucket := currentBucket call buckets
    decided (InMemoryRateLimiter.allow call buckets).1 = fixedWindow call.limit.toNat bucket.count.toNat ∧
      ∃ count, (InMemoryRateLimiter.allow call buckets).2 = buckets.insert call.key ⟨count, bucket.resetAt⟩ ∧
        count.toNat = min (bucket.count.toNat + 1) call.limit.toNat := by
  intro bucket
  have hnat : bucket.count.toNat ≤ call.limit.toNat := UInt64.le_iff_toNat_le.1 hle
  rw [allow_eq hkey hwindow (show currentBucket call buckets = bucket from rfl)]
  by_cases hfull : call.limit.toNat ≤ bucket.count.toNat
  · rw [if_pos (full_iff.2 hfull)]
    refine ⟨?_, bucket.count, rfl, by omega⟩
    simp only [decided, fixedWindow, UInt64.toNat_zero, Prod.mk.injEq]
    exact ⟨(decide_eq_false (by omega)).symm, by omega⟩
  · have hcount := toNat_count_add_one (Nat.lt_of_not_le hfull)
    rw [if_neg (full_iff.not.2 hfull)]
    refine ⟨?_, bucket.count + 1, rfl, by omega⟩
    have hsub : bucket.count + 1 ≤ call.limit := UInt64.le_iff_toNat_le.2 (by omega)
    simp only [decided, fixedWindow, UInt64.toNat_sub_of_le _ _ hsub, hcount, Prod.mk.injEq, and_true]
    exact (decide_eq_true (by omega)).symm

/-! ## Redis -/

/-- The second the server's clock shows. -/
def AllowCall.second (call : AllowCall) : Int := call.now.toInt / 1000000000

/-- The key the script is given. -/
def redisKey (config : RedisRateLimiterConfig) (key : Str) : Str :=
  RedisRateLimiter.cStr (RedisRateLimiter.composeKey config.keyPrefix config.scope key)

/-- A count that has not come near the largest 64-bit integer compares with a limit below `2 ^ 53` as it
would without rounding. -/
theorem nearestDouble_le_iff {count limit : ℕ} (hlimit : limit < 2 ^ 53) :
    nearestDouble count ≤ nearestDouble limit ↔ count ≤ limit := by
  rw [nearestDouble_exact hlimit]
  rcases Nat.lt_or_ge count (2 ^ 53) with hsmall | hlarge
  · rw [nearestDouble_exact hsmall]
  · have := nearestDouble_ge hlarge
    constructor <;> intro h <;> omega

/-- What is left of the limit, from the count in the reply. -/
theorem remaining_toNat {limit : UInt64} {count : ℕ} (hlimit : limit.toNat < 2 ^ 53) (hcount : count < 2 ^ 63 - 512) :
    let replied := UInt64.ofNat (max 0 (toLongLong (nearestDouble count))).toNat
    (if limit = 0 ∨ replied ≥ limit then 0 else limit - replied).toNat = limit.toNat - count := by
  intro replied
  have hreplied : replied.toNat = nearestDouble count := by
    have hlt := nearestDouble_lt hcount
    have hmax : (max 0 (toLongLong (nearestDouble count))).toNat = nearestDouble count := by
      rw [toLongLong, if_pos hlt]
      omega
    show (UInt64.ofNat _).toNat = _
    rw [hmax, UInt64.toNat_ofNat_of_lt' (by rw [UInt64.size]; omega)]
  have hcompare : limit.toNat ≤ count ↔ limit.toNat ≤ nearestDouble count := by
    rcases Nat.lt_or_ge count (2 ^ 53) with hsmall | hlarge
    · rw [nearestDouble_exact hsmall]
    · have := nearestDouble_ge hlarge
      constructor <;> intro _ <;> omega
  by_cases hfull : limit = 0 ∨ replied ≥ limit
  · rw [if_pos hfull]
    rcases hfull with rfl | hge
    · simp
    · have := UInt64.le_iff_toNat_le.1 hge
      rw [hreplied, ← hcompare] at this
      simp only [UInt64.toNat_zero]
      omega
  · rw [if_neg hfull]
    have hlt : replied.toNat < limit.toNat := by
      by_contra hge
      exact hfull (Or.inr (UInt64.le_iff_toNat_le.2 (by omega)))
    rw [UInt64.toNat_sub_of_le _ _ (UInt64.le_iff_toNat_le.2 (by omega)), hreplied]
    rw [hreplied] at hlt
    rw [nearestDouble_exact]
    by_contra hlarge
    have := nearestDouble_ge (Nat.le_of_not_lt hlarge)
    omega

/-- The entry the script leaves, for a key that had `entry` at second `now`. -/
def counted (entry : RedisEntry) (window now : Int) : RedisEntry :=
  ⟨entry.value + 1, if entry.value = 0 then some (now + window) else entry.expiresAt⟩

/-- What the script replies and leaves. -/
theorem fixedWindowScript_eq {key : Str} {limit : UInt64} (window : Int64) {now : Int} {keys : RedisKeys}
    {entry : RedisEntry} (hentry : (Redis.expireDue now keys key).getD ⟨0, none⟩ = entry)
    (hlimit : limit.toNat < 2 ^ 53) (hvalue : entry.value + 1 < 2 ^ 63 - 512) :
    ∃ ttl, Redis.fixedWindowScript key limit window now keys
      = (some ⟨if entry.value + 1 ≤ limit.toNat then 1 else 0, toLongLong (nearestDouble (entry.value + 1)), ttl⟩,
        Function.update (Redis.expireDue now keys) key (some (counted entry window.toInt now))) := by
  have hone : nearestDouble (entry.value + 1) = 1 ↔ entry.value = 0 := by
    rcases Nat.lt_or_ge (entry.value + 1) (2 ^ 53) with hsmall | hlarge
    · rw [nearestDouble_exact hsmall]
      omega
    · have := nearestDouble_ge hlarge
      omega
  have hincr : Redis.incr key (Redis.expireDue now keys) = some (entry.value + 1,
      Function.update (Redis.expireDue now keys) key (some { entry with value := entry.value + 1 })) := by
    simp only [Redis.incr, hentry]
    exact if_pos (by omega)
  simp only [Redis.fixedWindowScript, hincr, nearestDouble_le_iff hlimit, hone]
  refine ⟨_, Prod.ext rfl ?_⟩
  by_cases hzero : entry.value = 0
  · simp [hzero, Redis.expire, counted]
  · simp [hzero, counted]

/-- The decision that the limiter makes of the reply of the script. -/
theorem allow_of_reply {config : RedisRateLimiterConfig} {call : AllowCall} {keys keys' : RedisKeys}
    {reply : Redis.Reply} (hkey : call.key ≠ []) (hwindow : 0 < call.window)
    (hscript : Redis.fixedWindowScript (redisKey config call.key) call.limit call.window call.second keys
      = (some reply, keys')) :
    RedisRateLimiter.allow config call keys =
      ((⟨(reply.flag == 1) && call.limit > 0,
        if call.limit = 0 ∨ UInt64.ofNat (max 0 reply.current).toNat ≥ call.limit then 0
          else call.limit - UInt64.ofNat (max 0 reply.current).toNat,
        call.now.addSeconds (max 0 reply.ttl)⟩, .none), keys') := by
  have hscript' : Redis.fixedWindowScript
      (RedisRateLimiter.cStr (RedisRateLimiter.composeKey config.keyPrefix config.scope call.key))
      call.limit call.window (call.now.toInt / 1000000000) keys = (some reply, keys') := hscript
  unfold RedisRateLimiter.allow
  rw [if_neg hkey, if_neg (Int64.not_le.2 hwindow)]
  simp only [hscript']

/-- One call of the limiter over Redis. -/
theorem allow_redis {config : RedisRateLimiterConfig} {call : AllowCall} {keys : RedisKeys}
    (hkey : call.key ≠ []) (hwindow : 0 < call.window) (hlimit : call.limit.toNat < 2 ^ 53)
    (entry : RedisEntry)
    (hentry : (Redis.expireDue call.second keys (redisKey config call.key)).getD ⟨0, none⟩ = entry)
    (hvalue : entry.value + 1 < 2 ^ 63 - 512) :
    decided (RedisRateLimiter.allow config call keys).1 = fixedWindow call.limit.toNat entry.value ∧
      (RedisRateLimiter.allow config call keys).2
        = Function.update (Redis.expireDue call.second keys) (redisKey config call.key)
          (some (counted entry call.window.toInt call.second)) := by
  obtain ⟨ttl, hscript⟩ := fixedWindowScript_eq call.window hentry hlimit hvalue
  rw [allow_of_reply hkey hwindow hscript]
  refine ⟨Prod.ext ?_ (remaining_toNat hlimit hvalue), rfl⟩
  have hpos : call.limit > 0 ↔ 0 < call.limit.toNat := UInt64.lt_iff_toNat_lt
  by_cases hle : entry.value + 1 ≤ call.limit.toNat
  · have : call.limit > 0 := hpos.2 (by omega)
    simp [decided, fixedWindow, hle, this]
    omega
  · simp [decided, fixedWindow, hle]
    omega

/-! ## Keys -/

/-- A text without NUL bytes. -/
def NulFree (s : Str) : Prop := ∀ c ∈ s, c ≠ Char.ofNat 0

/-- The texts that go into a key have no NUL. -/
def RedisRateLimiterConfig.NulFree (config : RedisRateLimiterConfig) : Prop :=
  RateLimit.NulFree config.keyPrefix ∧ RateLimit.NulFree config.scope

theorem redisKey_eq {config : RedisRateLimiterConfig} (hconfig : config.NulFree) {key : Str} (hkey : NulFree key) :
    redisKey config key = config.keyPrefix ++ config.scope ++ [':'] ++ key := by
  unfold redisKey RedisRateLimiter.cStr RedisRateLimiter.composeKey
  rw [List.takeWhile_eq_self_iff]
  intro c hc
  simp only [List.mem_append, List.mem_singleton] at hc
  rcases hc with ((hc | hc) | rfl) | hc
  · simpa using hconfig.1 c hc
  · simpa using hconfig.2 c hc
  · decide
  · simpa using hkey c hc

theorem redisKey_ne {config : RedisRateLimiterConfig} (hconfig : config.NulFree) {key key' : Str}
    (hkey : NulFree key) (hkey' : NulFree key') (hne : key ≠ key') : redisKey config key ≠ redisKey config key' := by
  rw [redisKey_eq hconfig hkey, redisKey_eq hconfig hkey']
  intro h
  exact hne (List.append_cancel_left h)

/-! ## The simulation -/

/-- **The calls the limiters are compared on**: a key without NUL, a window of at least one second and below
`2 ^ 31`, a limit below `2 ^ 53`, at a whole second. -/
structure AllowCall.InDomain (call : AllowCall) : Prop where
  key : NulFree call.key
  window_pos : 1 ≤ call.window.toInt
  window_lt : call.window.toInt < 2 ^ 31
  limit : call.limit.toNat < 2 ^ 53
  whole : call.now.toInt % 1000000000 = 0

/-- The end of the call's window is a time point. -/
def AllowCall.Fits (call : AllowCall) : Prop := call.now.toInt + call.window.toInt * 1000000000 < 2 ^ 63

section

variable {call : AllowCall}

theorem AllowCall.InDomain.now_eq (h : call.InDomain) : call.now.toInt = call.second * 1000000000 := by
  have := h.whole
  unfold AllowCall.second
  omega

theorem AllowCall.InDomain.window_pos' (h : call.InDomain) : 0 < call.window := by
  rw [Int64.lt_iff_toInt_lt]
  exact h.window_pos

/-- Within the range of a time point the end of the window is exact. -/
theorem AllowCall.InDomain.end_eq (h : call.InDomain) (hfits : call.Fits) :
    (call.now.addSeconds call.window.toInt).toInt = (call.second + call.window.toInt) * 1000000000 := by
  have hpos := h.window_pos
  have hlow := call.now.le_toInt
  unfold AllowCall.Fits at hfits
  rw [addSeconds_toInt (by omega) hfits, h.now_eq, Int.add_mul]

end

/-- **What ties the bucket of a key to its Redis entry** after the calls `past`: a key that is absent has a
bucket that is empty or over; a key that is present was counted for each call since its window began, and
its bucket counts the same up to the limit and ends when the key does. -/
structure Related (config : RedisRateLimiterConfig) (past : List AllowCall) (keys : RedisKeys)
    (buckets : Buckets) : Prop where
  absent : ∀ key bucket, NulFree key → keys (redisKey config key) = none → buckets.lookup key = some bucket →
    bucket.count = 0 ∨ ∃ c ∈ past, bucket.resetAt ≤ c.now
  present : ∀ key entry, NulFree key → keys (redisKey config key) = some entry →
    ∃ c ∈ past, c.key = key ∧ 1 ≤ entry.value ∧ entry.value ≤ past.length ∧
      ∃ time bucket, entry.expiresAt = some time ∧ buckets.lookup key = some bucket ∧
        bucket.count.toNat = min entry.value c.limit.toNat ∧
        (bucket.count = 0 ∨ bucket.resetAt.toInt = time * 1000000000)

theorem Related.start (config : RedisRateLimiterConfig) : Related config [] (fun _ => none) ∅ where
  absent := by simp
  present := by simp

/-- A call that touches nothing. -/
theorem Related.idle {config : RedisRateLimiterConfig} {past : List AllowCall} {keys : RedisKeys}
    {buckets : Buckets} (h : Related config past keys buckets) (call : AllowCall) :
    Related config (past ++ [call]) keys buckets where
  absent := by
    intro key bucket hkey hkeys hbucket
    rcases h.absent key bucket hkey hkeys hbucket with hzero | ⟨c, hc, hle⟩
    · exact Or.inl hzero
    · exact Or.inr ⟨c, List.mem_append_left _ hc, hle⟩
  present := by
    intro key entry hkey hkeys
    obtain ⟨c, hc, hckey, hpos, hlen, hrest⟩ := h.present key entry hkey hkeys
    refine ⟨c, List.mem_append_left _ hc, hckey, hpos, ?_, hrest⟩
    rw [List.length_append]
    omega

section

variable {config : RedisRateLimiterConfig} {past : List AllowCall} {keys : RedisKeys} {buckets : Buckets}
  {call : AllowCall}

/-- Keys that expire leave buckets that are over. -/
theorem Related.expireDue (h : Related config past keys buckets) (hcall : call.InDomain) :
    Related config (past ++ [call]) (Redis.expireDue call.second keys) buckets where
  absent := by
    intro key bucket hkey hdue hbucket
    cases hkeys : keys (redisKey config key) with
    | none => exact (h.idle call).absent key bucket hkey hkeys hbucket
    | some entry =>
      obtain ⟨c, -, -, -, -, time, b, htime, hb, -, hreset⟩ := h.present key entry hkey hkeys
      obtain rfl : b = bucket := Option.some.inj (hb.symm.trans hbucket)
      have hover : time ≤ call.second := by
        simpa [Redis.expireDue, hkeys, htime] using hdue
      refine hreset.imp_right fun hreset => ⟨call, by simp, ?_⟩
      rw [Int64.le_iff_toInt_le, hreset, hcall.now_eq]
      omega
  present := by
    intro key entry hkey hdue
    have hkeys : keys (redisKey config key) = some entry := (Option.filter_eq_some_iff.1 hdue).1
    exact (h.idle call).present key entry hkey hkeys

/-- **What the two limiters find for the key of a call.** -/
theorem Related.current (h : Related config past keys buckets) (hcall : call.InDomain)
    (htimes : ∀ c ∈ past, c.now ≤ call.now) (hlimits : ∀ c ∈ past, c.key = call.key → c.limit = call.limit) :
    let due := Redis.expireDue call.second keys (redisKey config call.key)
    let bucket := currentBucket call buckets
    (due = none ∧ bucket = ⟨0, call.now.addSeconds call.window.toInt⟩) ∨
      ∃ entry time, due = some entry ∧ 1 ≤ entry.value ∧ entry.value ≤ past.length ∧
        entry.expiresAt = some time ∧ bucket.count.toNat = min entry.value call.limit.toNat ∧
        (call.limit = 0 ∨ bucket.resetAt.toInt = time * 1000000000) := by
  intro due bucket
  have hover : ∀ b, (buckets.lookup call.key).getD {} = b → b.Over call.now →
      bucket = ⟨0, call.now.addSeconds call.window.toInt⟩ := by
    rintro b rfl hb
    exact if_pos hb
  have hexpired := h.expireDue hcall
  cases hdue : due with
  | none =>
    left
    refine ⟨rfl, hover _ rfl ?_⟩
    cases hbucket : buckets.lookup call.key with
    | none => exact Or.inl rfl
    | some b =>
      rcases hexpired.absent call.key b hcall.key hdue hbucket with hzero | ⟨c, hc, hle⟩
      · exact Or.inl hzero
      · refine Or.inr (Int64.le_trans hle ?_)
        rcases List.mem_append.1 hc with hc | hc
        · exact htimes c hc
        · rw [List.mem_singleton.1 hc]
          exact Int64.le_refl _
  | some entry =>
    right
    obtain ⟨hkeys, halive⟩ := Option.filter_eq_some_iff.1 hdue
    obtain ⟨c, hc, hckey, hpos, hlen, time, b, htime, hb, hcount, hreset⟩ := h.present _ entry hcall.key hkeys
    rw [hlimits c hc hckey] at hcount
    refine ⟨entry, time, rfl, hpos, hlen, htime, ?_⟩
    have hget : (buckets.lookup call.key).getD {} = b := by rw [hb]; rfl
    by_cases hzero : b.count = 0
    · -- only a limit of 0 keeps the bucket empty
      have hlimit : call.limit.toNat = 0 := by
        rw [hzero, UInt64.toNat_zero] at hcount
        omega
      rw [hover b hget (Or.inl hzero), hlimit]
      exact ⟨by simp, Or.inl (UInt64.toNat_inj.1 hlimit)⟩
    · have hreset := hreset.resolve_left hzero
      have hafter : call.second < time := by simpa [htime] using halive
      have hlive : ¬ b.Over call.now := by
        rintro (h | h)
        · exact hzero h
        · rw [Int64.le_iff_toInt_le, hreset, hcall.now_eq] at h
          omega
      have hbucket : bucket = b := by
        show (if ((buckets.lookup call.key).getD {}).Over call.now then _ else _) = b
        rw [hget, if_neg hlive]
      rw [hbucket]
      exact ⟨hcount, Or.inr hreset⟩

/-- The entry and the bucket of one key are replaced by a pair that is tied again. -/
theorem Related.update (hconfig : config.NulFree) (h : Related config past keys buckets) (hmem : call ∈ past)
    (hkey : NulFree call.key) {entry : RedisEntry} {bucket : Bucket} {time : Int} (hpos : 1 ≤ entry.value)
    (hlen : entry.value ≤ past.length) (htime : entry.expiresAt = some time)
    (hcount : bucket.count.toNat = min entry.value call.limit.toNat)
    (hreset : bucket.count = 0 ∨ bucket.resetAt.toInt = time * 1000000000) :
    Related config past (Function.update keys (redisKey config call.key) (some entry))
      (buckets.insert call.key bucket) where
  absent := by
    intro key b hkey' hkeys hb
    have hne : key ≠ call.key := by
      rintro rfl
      simp at hkeys
    rw [Function.update_of_ne (redisKey_ne hconfig hkey' hkey hne)] at hkeys
    rw [Finmap.lookup_insert_of_ne _ hne] at hb
    exact h.absent key b hkey' hkeys hb
  present := by
    intro key e hkey' hkeys
    by_cases hne : key = call.key
    · obtain rfl := hne
      rw [Function.update_self] at hkeys
      obtain rfl := Option.some.inj hkeys
      exact ⟨call, hmem, rfl, hpos, hlen, time, bucket, htime, Finmap.lookup_insert _, hcount, hreset⟩
    · rw [Function.update_of_ne (redisKey_ne hconfig hkey' hkey hne)] at hkeys
      rw [Finmap.lookup_insert_of_ne _ hne]
      exact h.present key e hkey' hkeys

theorem fixedWindow_min (limit count : ℕ) : fixedWindow limit (min count limit) = fixedWindow limit count := by
  refine Prod.ext ?_ ?_
  · exact decide_eq_decide.2 (by omega)
  · simp only [fixedWindow]
    omega

/-- **One call**: both limiters decide alike and stay tied. -/
theorem Related.step (hconfig : config.NulFree) (h : Related config past keys buckets) (hcall : call.InDomain)
    (hfits : call.Fits) (htimes : ∀ c ∈ past, c.now ≤ call.now)
    (hlimits : ∀ c ∈ past, c.key = call.key → c.limit = call.limit) (hlength : past.length + 1 < 2 ^ 63 - 512) :
    decided (RedisRateLimiter.allow config call keys).1 = decided (InMemoryRateLimiter.allow call buckets).1 ∧
      Related config (past ++ [call]) (RedisRateLimiter.allow config call keys).2
        (InMemoryRateLimiter.allow call buckets).2 := by
  by_cases hkey : call.key = []
  · have hredis : RedisRateLimiter.allow config call keys = ((⟨false, 0, call.now⟩, .invalidKey), keys) :=
      if_pos hkey
    have hmemory : InMemoryRateLimiter.allow call buckets = ((⟨false, 0, call.now⟩, .invalidKey), buckets) :=
      if_pos hkey
    rw [hredis, hmemory]
    exact ⟨rfl, h.idle call⟩
  have hwindow := hcall.window_pos'
  have hmem : call ∈ past ++ [call] := by simp
  have hlen : (past ++ [call]).length = past.length + 1 := by simp
  rcases h.current hcall htimes hlimits with ⟨hdue, hbucket⟩ | ⟨entry, time, hdue, hpos, hle, htime, hcount, hreset⟩
  · -- a new window begins
    obtain ⟨hredis, hkeys⟩ := allow_redis hkey hwindow hcall.limit ⟨0, none⟩ (by rw [hdue]; rfl)
      (by simp)
    have hzero : (currentBucket call buckets).count = 0 := by rw [hbucket]
    obtain ⟨hmemory, count, hbuckets, hcount⟩ := allow_memory buckets hkey hwindow
      (by rw [hzero]; exact UInt64.zero_le)
    rw [hzero, UInt64.toNat_zero] at hmemory hcount
    refine ⟨hredis.trans hmemory.symm, ?_⟩
    rw [hkeys, hbuckets, hbucket]
    refine (h.expireDue hcall).update hconfig hmem hcall.key (le_refl 1) (by rw [hlen]; simp [counted])
      rfl hcount (Or.inr (hcall.end_eq hfits))
  · -- the window goes on
    have hentry : (Redis.expireDue call.second keys (redisKey config call.key)).getD ⟨0, none⟩ = entry := by
      rw [hdue]
      rfl
    obtain ⟨hredis, hkeys⟩ := allow_redis hkey hwindow hcall.limit entry hentry (by omega)
    obtain ⟨hmemory, count, hbuckets, hcount'⟩ := allow_memory buckets hkey hwindow
      (UInt64.le_iff_toNat_le.2 (by omega))
    rw [hcount, fixedWindow_min] at hmemory
    refine ⟨hredis.trans hmemory.symm, ?_⟩
    rw [hkeys, hbuckets]
    have hexpires : (counted entry call.window.toInt call.second).expiresAt = some time := by
      rw [counted, if_neg (by omega)]
      exact htime
    have hvalue : (counted entry call.window.toInt call.second).value = entry.value + 1 := rfl
    have hcount : count.toNat = min (entry.value + 1) call.limit.toNat := by omega
    refine (h.expireDue hcall).update hconfig hmem hcall.key (by omega) (by omega) hexpires hcount ?_
    refine hreset.imp_left fun hzero => ?_
    rw [hzero, UInt64.toNat_zero] at hcount'
    exact UInt64.toNat_inj.1 (by rw [hcount', Nat.min_zero]; rfl)

end

/-- **The rate limiters agree.** Over every sequence of calls in the domain at non-decreasing times, with one
limit per key, both limiters allow and refuse the same calls and report the same remaining counts, as long
as every window ends at a time point. The texts of the configuration have no NUL either, and the calls are
fewer than the counter in the script can tell apart. -/
theorem limiters_agree (config : RedisRateLimiterConfig) (calls : List AllowCall) (hconfig : config.NulFree)
    (hdomain : ∀ c ∈ calls, c.InDomain) (htimes : calls.Pairwise fun c c' => c.now ≤ c'.now)
    (hlimits : ∀ c ∈ calls, ∀ c' ∈ calls, c.key = c'.key → c.limit = c'.limit)
    (hfits : ∀ c ∈ calls, c.Fits) (hlength : calls.length < 2 ^ 63 - 512) :
    (answers (RedisRateLimiter.allow config) (fun _ => none) calls).map (fun a => decided a.2)
      = (answers InMemoryRateLimiter.allow ∅ calls).map fun a => decided a.2 := by
  refine answers_agree (R := Related config) (Related.start config) ?_
  rintro past call rest keys buckets rfl hrelated
  have hmem : call ∈ past ++ call :: rest := by simp
  have hpast : ∀ c ∈ past, c ∈ past ++ call :: rest := fun c hc => List.mem_append_left _ hc
  refine hrelated.step hconfig (hdomain call hmem) (hfits call hmem) ?_ ?_ ?_
  · intro c hc
    exact (List.pairwise_append.1 htimes).2.2 c hc call (by simp)
  · intro c hc hkey
    exact hlimits c (hpast c hc) call hmem hkey
  · simp only [List.length_append, List.length_cons] at hlength
    omega

instance (s : Str) : Decidable (NulFree s) := List.decidableBAll (· ≠ Char.ofNat 0) s

instance (call : AllowCall) : Decidable call.Fits := inferInstanceAs (Decidable (_ < _))

instance (call : AllowCall) : Decidable call.InDomain :=
  decidable_of_iff (NulFree call.key ∧ 1 ≤ call.window.toInt ∧ call.window.toInt < 2 ^ 31 ∧
      call.limit.toNat < 2 ^ 53 ∧ call.now.toInt % 1000000000 = 0)
    ⟨fun ⟨a, b, c, d, e⟩ => ⟨a, b, c, d, e⟩, fun ⟨a, b, c, d, e⟩ => ⟨a, b, c, d, e⟩⟩

/-- A limit of one call in ten seconds, asked for at seconds 100, 105 and 110. -/
def sampleCalls : List AllowCall :=
  [⟨"k", 1, 10, 100000000000⟩, ⟨"k", 1, 10, 105000000000⟩, ⟨"k", 1, 10, 110000000000⟩]

theorem limiters_agree_sample :
    (answers InMemoryRateLimiter.allow ∅ sampleCalls).map (fun a => decided a.2)
        = [(true, 0), (false, 0), (true, 0)] ∧
      (answers (RedisRateLimiter.allow {}) (fun _ => none) sampleCalls).map (fun a => decided a.2)
        = (answers InMemoryRateLimiter.allow ∅ sampleCalls).map fun a => decided a.2 := by
  refine ⟨by decide +kernel, limiters_agree {} sampleCalls ⟨by decide, by decide⟩ (by decide) (by decide)
    (by decide) (by decide) (by decide)⟩

/-- **A window that ends after the last time point**: two calls with a limit of one, at second 9000000000 and
with the longest window. The end of the bucket wraps to a time long past, so the bucket is started anew by
the second call. -/
theorem bucket_end_wraps :
    let call : AllowCall := ⟨"k", 1, 2147483647, 9000000000000000000⟩
    call.InDomain ∧
      (answers (RedisRateLimiter.allow {}) (fun _ => none) [call, call]).map (fun a => decided a.2)
        = [(true, 0), (false, 0)] ∧
      (answers InMemoryRateLimiter.allow ∅ [call, call]).map (fun a => decided a.2) = [(true, 0), (true, 0)] := by
  decide +kernel

end UrlShortener.RateLimit

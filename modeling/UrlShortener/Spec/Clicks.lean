import UrlShortener.Spec.Commands
import UrlShortener.Spec.Json
import UrlShortener.Spec.Numerals
import UrlShortener.Sql.Groups
import UrlShortener.Sql.Replay

/-!
# Stored click events

The two repositories of click events, `storage/memory/in_memory_click_event_repository.cpp` and
`storage/sql/sql_click_event_repository.cpp` on SQLite, and the retention job of `analytics/`.

Counters are natural numbers: a store holds fewer than 2^64 events. Counts by status code and by domain are
returned in no particular order, so they are maps.
-/

namespace UrlShortener.Clicks

open Sql

/-- The lengths of a bucket. -/
inductive AggregateBucket
  | hour
  | day
  | week
  deriving DecidableEq

/-- What is to be counted. -/
structure AggregateQuery where
  slug : Option Str := none
  linkId : Option Str := none
  from_ : TimePoint := 0
  to_ : TimePoint := 0
  bucket : Option AggregateBucket := none

/-- The clicks of a bucket. -/
structure TimeBucketCount where
  bucketStart : TimePoint
  count : ℕ
  deriving DecidableEq

/-- The counts. -/
structure AggregateStats where
  totalAttempts : ℕ := 0
  successfulRedirects : ℕ := 0
  statusCodeCounts : UnorderedMap ℕ ℕ := ∅
  domainCounts : UnorderedMap Str ℕ := ∅
  timeBuckets : List TimeBucketCount := []
  deriving DecidableEq

/-- The seconds of a bucket. -/
def AggregateBucket.width : AggregateBucket → ℤ
  | hour => 3600
  | day => 86400
  | week => 604800

/-! ## In memory -/

/-- `bucket_start`. -/
def bucketStart (tp : TimePoint) (b : AggregateBucket) : TimePoint := fromTimeT ((toTimeT tp).tdiv b.width * b.width)

/-- The events as they came. -/
structure InMemoryClickEventRepository where
  events : List ClickEvent := []

namespace InMemoryClickEventRepository

/-- `InsertBatch`. -/
def insertBatch (repo : InMemoryClickEventRepository) (events : List ClickEvent) : InMemoryClickEventRepository :=
  { events := repo.events ++ events }

/-- What the loop of `GetAggregateStats` counts. -/
structure Counters where
  totalAttempts : ℕ := 0
  successfulRedirects : ℕ := 0
  byStatus : UnorderedMap ℕ ℕ := ∅
  byDomain : UnorderedMap Str ℕ := ∅
  byBucket : UnorderedMap ℤ ℕ := ∅

/-- One round of the loop. -/
def countEvent (query : AggregateQuery) (c : Counters) (e : ClickEvent) : Counters :=
  if query.slug.any (e.slug != ·) then c
  else if query.linkId.any (e.linkId != ·) then c
  else if e.occurredAt < query.from_ ∨ query.to_ ≤ e.occurredAt then c
  else
    { totalAttempts := c.totalAttempts + 1
      successfulRedirects :=
        if 300 ≤ e.statusCode ∧ e.statusCode < 400 then c.successfulRedirects + 1 else c.successfulRedirects
      byStatus := bump e.statusCode c.byStatus
      byDomain := bump e.domain c.byDomain
      byBucket :=
        match query.bucket with
        | none => c.byBucket
        | some b => bump (toTimeT (bucketStart e.occurredAt b)) c.byBucket }

/-- The buckets of the map, sorted by their start. -/
def sortedBuckets (byBucket : UnorderedMap ℤ ℕ) : List TimeBucketCount :=
  ((byBucket.entries.map fun e => toLex ((fromTimeT e.1).toInt, e.2)).sort (· ≤ ·)).map fun p =>
    ⟨Int64.ofInt (ofLex p).1, (ofLex p).2⟩

/-- `GetAggregateStats`. -/
def getAggregateStats (repo : InMemoryClickEventRepository) (query : AggregateQuery) : AggregateStats :=
  let c := repo.events.foldl (countEvent query) {}
  { totalAttempts := c.totalAttempts
    successfulRedirects := c.successfulRedirects
    statusCodeCounts := c.byStatus
    domainCounts := c.byDomain
    timeBuckets := sortedBuckets c.byBucket }

/-- `DeleteOlderThan`. -/
def deleteOlderThan (repo : InMemoryClickEventRepository) (cutoff : TimePoint) : InMemoryClickEventRepository :=
  { events := repo.events.filter fun e => !decide (e.occurredAt < cutoff) }

end InMemoryClickEventRepository

/-! ## SQLite -/

/-- `CAST(.. AS TEXT)` of an integer. -/
def castText (n : ℤ) : Str := if 0 ≤ n then decimal n.toNat else '-' :: decimal (-n).toNat

/-- `std::stoll` of such a text; what is stored fits in 64 bits. -/
def storedInteger (text : Str) : ℤ := (readNumeral text).elim 0 fun p => p.1.value

/-- A row of `click_events`. -/
structure ClickRow where
  eventId : Str
  occurredAt : ℤ
  slug : Str
  linkId : Str
  domain : Str
  statusCode : ℤ
  referrer : Str
  userAgent : Str
  clientIdHash : Str
  deriving DecidableEq

/-- The row of an event. -/
def toRow (e : ClickEvent) : ClickRow where
  eventId := e.eventId
  occurredAt := toTimeT e.occurredAt
  slug := e.slug
  linkId := e.linkId
  domain := e.domain
  statusCode := e.statusCode
  referrer := e.referrer
  userAgent := e.userAgent
  clientIdHash := e.clientIdHash

/-- The table `click_events`. -/
structure SqlClickEventRepository where
  clickEvents : Table ClickRow := []

namespace SqlClickEventRepository

/-- `event_id` is the primary key. -/
def insertBatch (repo : SqlClickEventRepository) (events : List ClickEvent) : SqlClickEventRepository :=
  { clickEvents := events.foldl (fun table e => insertOrIgnore (·.eventId) table (toRow e)) repo.clickEvents }

/-- `base_where`: the window, and the slug if there is one. -/
def baseWhere (query : AggregateQuery) (row : ClickRow) : Bool :=
  decide (toTimeT query.from_ ≤ row.occurredAt) && decide (row.occurredAt < toTimeT query.to_) &&
    query.slug.all (row.slug == ·)

/-- The `extra_where` of the count of redirects. -/
def redirectsOnly (row : ClickRow) : Bool := decide (300 ≤ row.statusCode ∧ row.statusCode < 400)

/-- `count_query`: the count is read as a text. -/
def countQuery (repo : SqlClickEventRepository) (query : AggregateQuery) (extraWhere : ClickRow → Bool) : ℕ :=
  (storedInteger (castText (count (fun row => baseWhere query row && extraWhere row) repo.clickEvents))).toNat

/-- The groups of a column as they are read: a key, and a count as a text. -/
def readGroups {K : Type} (groups : List (K × ℕ)) : List (K × ℕ) :=
  groups.map fun g => (g.1, (storedInteger (castText g.2)).toNat)

/-- `GetAggregateStats`. -/
def getAggregateStats (repo : SqlClickEventRepository) (query : AggregateQuery) : AggregateStats :=
  let rows := repo.clickEvents.filter (baseWhere query)
  { totalAttempts := countQuery repo query fun _ => true
    successfulRedirects := countQuery repo query redirectsOnly
    statusCodeCounts :=
      toMap ((readGroups (groupCount (·.statusCode) rows)).map fun g => ((storedInteger (castText g.1)).toNat, g.2))
    domainCounts := toMap (readGroups (groupCount (·.domain) rows))
    timeBuckets :=
      match query.bucket with
      | none => []
      | some b =>
        -- `bucket_start` is the text of the expression, in the grouping as in the order
        let groups := groupCount (fun row : ClickRow => castText (row.occurredAt.tdiv b.width * b.width)) rows
        (readGroups (orderRows (·.1) groups)).map fun g => ⟨fromTimeT (storedInteger g.1), g.2⟩ }

end SqlClickEventRepository

/-! ## Retention -/

/-- The lengths at which texts are cut. -/
structure SanitizationLimits where
  maxReferrerBytes : UInt64 := 512
  maxUserAgentBytes : UInt64 := 512
  maxDomainBytes : UInt64 := 255

/-- The fields that `Validate` and the retention job read. Durations are in milliseconds. -/
structure AnalyticsConfig where
  enabled : Bool := true
  queueCapacity : UInt64 := 8192
  batchSize : UInt64 := 128
  flushInterval : Int64 := 1000
  retryBackoff : Int64 := 100
  retentionDays : UInt64 := 30
  sanitization : SanitizationLimits := {}
  clientHashSalt : Str := []

/-- What failed. -/
inductive AnalyticsErrorCode
  | none
  | validation
  | queue
  | repository
  | worker
  | retention
  deriving DecidableEq

/-- What failed, and how. -/
structure AnalyticsError where
  code : AnalyticsErrorCode := .none
  message : Str := []
  deriving DecidableEq

/-- `ValidateLimits`: none of them is 0. -/
def validateLimits (limits : SanitizationLimits) : Bool :=
  decide (0 < limits.maxReferrerBytes) && decide (0 < limits.maxUserAgentBytes) && decide (0 < limits.maxDomainBytes)

/-- `Validate`. -/
def AnalyticsConfig.validate (config : AnalyticsConfig) : Except AnalyticsError Unit :=
  if config.queueCapacity = 0 ∨ config.batchSize = 0 ∨ config.queueCapacity < config.batchSize ∨
      config.flushInterval ≤ 0 ∨ config.retryBackoff ≤ 0 ∨ config.retentionDays = 0 ∨
      validateLimits config.sanitization = false ∨ (config.enabled = true ∧ config.clientHashSalt = []) then
    .error ⟨.validation, "Invalid analytics configuration"⟩
  else .ok ()

/-- What `Run` reports. -/
structure RetentionCleanupResult where
  enabled : Bool := false
  cutoff : Option TimePoint := none
  deletedCount : UInt64 := 0
  error : Option AnalyticsError := none

/-- `RetentionCleanupJob::Run` on a repository whose deletion is `deleteOlderThan`. The days are cast to
`long long`; hours and nanoseconds wrap at 64 bits. The failure counter of the metrics is left out. -/
def runRetention {Repo : Type} (deleteOlderThan : Repo → TimePoint → Except AnalyticsError Repo)
    (config : AnalyticsConfig) (now : TimePoint) (repo : Repo) : RetentionCleanupResult × Repo :=
  let retentionDays := config.retentionDays.toInt64
  if retentionDays ≤ 0 then ({ enabled := false }, repo)
  else
    let hours := 24 * retentionDays
    let cutoff := now - hours * 3600000000000
    match deleteOlderThan repo cutoff with
    | .error error => ({ enabled := true, cutoff := some cutoff, error := some error }, repo)
    | .ok repo => ({ enabled := true, cutoff := some cutoff }, repo)

end UrlShortener.Clicks

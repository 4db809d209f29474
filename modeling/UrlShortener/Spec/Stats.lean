import UrlShortener.Spec.Clicks
import UrlShortener.Spec.Handlers

/-!
# Statistics endpoints

`LegacyLinkStatsReader::read` of `app/legacy_adapters.cpp` and `AnalyticsStatsHandler::Handle` of
`http/analytics_stats_handler.cpp`, over a repository of click events. The two are written separately in the
source, down to the parsing of the window and the printing of the answer, and so they are here.
-/

namespace UrlShortener

open Clicks (AggregateQuery AggregateBucket)

namespace Analytics

/-- The clicks with a status. -/
structure StatusCodeCount where
  statusCode : ℕ
  count : UInt64

/-- The clicks on a domain. -/
structure DomainCount where
  domain : Str
  count : UInt64

/-- The clicks of a bucket. -/
structure TimeBucketCount where
  bucketStart : TimePoint
  count : UInt64

/-- `analytics::AggregateStats`: the counts are vectors, in the order the repository gives them. -/
structure AggregateStats where
  totalAttempts : UInt64 := 0
  successfulRedirects : UInt64 := 0
  statusCodeCounts : List StatusCodeCount := []
  domainCounts : List DomainCount := []
  timeBuckets : List TimeBucketCount := []

/-- `GetAggregateStats` of a repository; `none` where it returns false. -/
abbrev ClickEventRepository := AggregateQuery → Option AggregateStats

end Analytics

open Analytics

/-! ## Parsing -/

/-- The seconds of a text that is a number as a whole. -/
def epochSeconds (value : Str) : Option ℤ :=
  match stoll value with
  | none => none
  | some (epoch, rest) => if rest ≠ [] then none else some epoch

/-! ## The reader -/

namespace LegacyLinkStatsReader

/-- `parseEpoch` of `legacy_adapters.cpp`. -/
def parseEpoch (value : Str) : Option TimePoint := (epochSeconds value).map fromTimeT

/-- The conversion loops. -/
def toView (query : GetLinkStatsQuery) (stats : AggregateStats) : LinkStatsView where
  slug := query.slug
  totalAttempts := stats.totalAttempts
  successfulRedirects := stats.successfulRedirects
  statusCodeCounts := stats.statusCodeCounts.map fun item => ⟨item.statusCode, item.count⟩
  domainCounts := stats.domainCounts.map fun item => ⟨item.domain, item.count⟩
  timeBuckets := stats.timeBuckets.map fun item => ⟨toTimeT item.bucketStart, item.count⟩
  from_ := query.from_
  to_ := query.to_
  bucket := query.bucket

/-- `Read`. -/
def read (repository : ClickEventRepository) (query : GetLinkStatsQuery) : Result LinkStatsView :=
  if query.slug = [] then .error ⟨.notFound, "Link not found"⟩
  else
    match parseEpoch query.from_, parseEpoch query.to_ with
    | some from_, some to_ =>
      if to_ ≤ from_ then .error ⟨.invalidField, "invalid_timestamp"⟩
      else
        let aggregate (bucket : AggregateBucket) : Result LinkStatsView :=
          match repository { slug := some query.slug, from_ := from_, to_ := to_, bucket := some bucket } with
          | none => .error ⟨.storageFailure, "repository"⟩
          | some stats => .ok (toView query stats)
        if query.bucket = "hour" then aggregate .hour
        else if query.bucket = "day" then aggregate .day
        else if query.bucket = "week" then aggregate .week
        else .error ⟨.invalidField, "invalid_bucket"⟩
    | _, _ => .error ⟨.invalidField, "invalid_timestamp"⟩

end LegacyLinkStatsReader

/-! ## The handler -/

namespace AnalyticsStatsHandler

/-- `parse_epoch` of `analytics_stats_handler.cpp`. -/
def parseEpoch (s : Str) : Option TimePoint :=
  match stoll s with
  | some (v, []) => some (fromTimeT v)
  | _ => none

/-- The body of an error. -/
def errorBody (error requestId : Str) : Str :=
  "\x7b\"error\":\"" ++ error ++ "\",\"request_id\":" ++ jsonString requestId ++ "\x7d"

/-- The text written to the stream. -/
def body (slug from_ to_ bucket : Str) (stats : AggregateStats) : Str :=
  "\x7b\"slug\":" ++ jsonString slug ++
  ",\"total_attempts\":" ++ decimal stats.totalAttempts.toNat ++
  ",\"successful_redirects\":" ++ decimal stats.successfulRedirects.toNat ++
  ",\"attempts_by_status_code\":\x7b" ++
  commaSep (stats.statusCodeCounts.map fun i =>
    ['"'] ++ decimal i.statusCode ++ "\":" ++ decimal i.count.toNat) ++
  "\x7d,\"attempts_by_domain\":\x7b" ++
  commaSep (stats.domainCounts.map fun i => jsonString i.domain ++ [':'] ++ decimal i.count.toNat) ++
  "\x7d,\"time_buckets\":[" ++
  commaSep (stats.timeBuckets.map fun i =>
    "\x7b\"bucket_start\":" ++ (toString (toTimeT i.bucketStart)).toList ++
      ",\"count\":" ++ decimal i.count.toNat ++ "\x7d") ++
  "],\"from\":" ++ from_ ++ ",\"to\":" ++ to_ ++
  ",\"bucket\":" ++ jsonString bucket ++ "\x7d"

/-- The status code and the body. -/
def handle (repo : ClickEventRepository) (slug from_ to_ bucket requestId : Str) : ℕ × Str :=
  if slug = [] then (404, errorBody "not_found" requestId)
  else
    match parseEpoch from_ with
    | none => (400, errorBody "invalid_timestamp" requestId)
    | some qFrom =>
      match parseEpoch to_ with
      | none => (400, errorBody "invalid_timestamp" requestId)
      | some qTo =>
        if qTo ≤ qFrom then (400, errorBody "invalid_timestamp" requestId)
        else
          let answer (qBucket : AggregateBucket) : ℕ × Str :=
            match repo { slug := some slug, from_ := qFrom, to_ := qTo, bucket := some qBucket } with
            | none => (500, errorBody "repository" requestId)
            | some stats => (200, body slug from_ to_ bucket stats)
          if bucket = "hour" then answer .hour
          else if bucket = "day" then answer .day
          else if bucket = "week" then answer .week
          else (400, errorBody "invalid_bucket" requestId)

end AnalyticsStatsHandler

end UrlShortener

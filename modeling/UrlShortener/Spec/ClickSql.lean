import UrlShortener.Spec.Analytics
import UrlShortener.Spec.Soci
import UrlShortener.Spec.Stats

/-!
# Click events in SQL: statements that fail

`SqlClickEventRepository::InsertBatch` and `GetAggregateStats` of `storage/sql/sql_click_event_repository.cpp`,
statement by statement, on a session that may fail at each of them.

* `GetAggregateStats` executes each of its statements once, so that a session is what it answers to them.
* `InsertBatch` is executed again by the worker, so that what its statements do depends on the database.
* What is left of `*stats` and `*error` is returned with the result; `none` is a null pointer.
-/

namespace UrlShortener.Clicks.ClickSession

open Storage (Statement SqlValue SociRow RowSet)
open Analytics (StatusCodeCount DomainCount)

/-! ## Inserting -/

/-- The `INSERT` of an event; a known `event_id` is passed over. -/
def insertStatement (isPostgres : Bool) (e : ClickEvent) : Statement :=
  { sql :=
      if isPostgres then
        ("INSERT INTO click_events (event_id, occurred_at, slug, link_id, domain, status_code,  referrer, " ++
          "user_agent, client_id_hash) VALUES (:eid, to_timestamp(:oat), :slug, :lid, :dom, :sc, :ref, :ua, :cih) " ++
          "ON CONFLICT (event_id) DO NOTHING").toList
      else
        ("INSERT OR IGNORE INTO click_events (event_id, occurred_at, slug, link_id, domain, status_code,  referrer, " ++
          "user_agent, client_id_hash) VALUES (:eid, :oat, :slug, :lid, :dom, :sc, :ref, :ua, :cih)").toList
    uses := [("eid", .text e.eventId), ("oat", .integer (toTimeT e.occurredAt)),
      ("slug", .text e.slug), ("lid", .text e.linkId), ("dom", .text e.domain),
      ("sc", .integer e.statusCode), ("ref", .text e.referrer), ("ua", .text e.userAgent),
      ("cih", .text e.clientIdHash)] }

section Insert

variable {DB : Type} (execute : Statement → DB → Except Str Unit × DB) (isPostgres : Bool)

/-- The loop of `InsertBatch`. -/
def insertEvents : List ClickEvent → DB → Except Str Unit × DB
  | [], db => (.ok (), db)
  | e :: events, db =>
    match execute (insertStatement isPostgres e) db with
    | (.error what, db) => (.error what, db)
    | (.ok (), db) => insertEvents events db

/-- `InsertBatch`: the first exception ends it. -/
def insertBatch (events : List ClickEvent) (error : Option AnalyticsError) (db : DB) :
    (Bool × Option AnalyticsError) × DB :=
  match insertEvents execute isPostgres events db with
  | (.ok (), db) => ((true, error), db)
  | (.error what, db) => ((false, error.map fun _ => ⟨.repository, what⟩), db)

/-- **The pipeline with this repository**: the worker gives `InsertBatch` the address of its `err`, and looks only at
the result. -/
def handle (now : Int64) (c : WorkerCall) (s : Pipeline × DB) : c.Answer × (Pipeline × DB) :=
  match c with
  | .insertBatch batch =>
    let inserted := insertBatch execute isPostgres batch (some {}) s.2
    let answered := Pipeline.handle ⟨now, inserted.1.1⟩ (.insertBatch batch) s.1
    (answered.1, (answered.2, inserted.2))
  | c =>
    let answered := Pipeline.handle ⟨now, false⟩ c s.1
    (answered.1, (answered.2, s.2))

end Insert

/-! ## Reading -/

/-- `std::stoll`; the exceptions of the library have the function's name as their text. -/
def stollText (text : Str) : Except Str ℤ :=
  match UrlShortener.stoll text with
  | none => .error "stoll"
  | some (value, _) => .ok value

/-- `get` of a text. -/
def getText (r : SociRow) (name : Str) : Except Str Str :=
  match r name with
  | .null => .error "Null value not allowed for this type"
  | .text s => .ok s
  | .integer _ => .error Storage.badCast

/-- The cast of a count to `uint64_t`. -/
def toCount (value : ℤ) : UInt64 := (Int64.ofInt value).toUInt64

/-- What the database answers: the text that is selected, if there is a row, and the rows of the longer results. -/
structure Reader where
  executeInto : Statement → Except Str (Option Str)
  prepare : Statement → RowSet

section Read

variable (reader : Reader) (isPostgres : Bool) (query : AggregateQuery)

/-- `base_where`: the window, and the slug if there is one. -/
def baseWhere : Str :=
  let tsCond :=
    if isPostgres then "occurred_at >= to_timestamp(:from_ts) AND occurred_at < to_timestamp(:to_ts)".toList
    else "occurred_at >= :from_ts AND occurred_at < :to_ts".toList
  let slugClause := if query.slug.isSome then " AND slug = :slug".toList else []
  "WHERE ".toList ++ tsCond ++ slugClause

/-- The values that every statement uses. -/
def baseUses : List (Str × SqlValue) :=
  [("from_ts".toList, .integer (toTimeT query.from_)), ("to_ts".toList, .integer (toTimeT query.to_))] ++
    match query.slug with
    | none => []
    | some slug => [("slug".toList, .text slug)]

/-- The statement of `count_query`. -/
def countStatement (extraWhere : Str) : Statement :=
  { sql := "SELECT CAST(COUNT(*) AS TEXT) FROM click_events " ++ baseWhere isPostgres query ++ extraWhere
    uses := baseUses query }

/-- `count_query`: without a row the text stays as it was. -/
def countQuery (extraWhere : Str) : Except Str ℤ :=
  match reader.executeInto (countStatement isPostgres query extraWhere) with
  | .error what => .error what
  | .ok text => stollText (text.getD "0")

/-- The `extra_where` of the redirects. -/
def redirectsWhere : Str := " AND status_code >= 300 AND status_code < 400"

/-- Counts by status. -/
def statusStatement : Statement :=
  { sql :=
      "SELECT CAST(status_code AS TEXT) AS status_code, CAST(COUNT(*) AS TEXT) AS cnt FROM click_events " ++
        baseWhere isPostgres query ++ " GROUP BY status_code"
    uses := baseUses query }

/-- A row of that statement. -/
def statusCodeCount (r : SociRow) : Except Str StatusCodeCount := do
  let statusCode ← stollText (← getText r "status_code")
  let count ← stollText (← getText r "cnt")
  return ⟨(statusCode % 65536).toNat, toCount count⟩

/-- Counts by domain. -/
def domainStatement : Statement :=
  { sql :=
      "SELECT domain, CAST(COUNT(*) AS TEXT) AS cnt FROM click_events " ++ baseWhere isPostgres query ++
        " GROUP BY domain"
    uses := baseUses query }

/-- A row of that statement. -/
def domainCount (r : SociRow) : Except Str DomainCount := do
  let domain ← getText r "domain"
  let count ← stollText (← getText r "cnt")
  return ⟨domain, toCount count⟩

/-- Counts by bucket. -/
def bucketStatement (bucket : AggregateBucket) : Statement :=
  { sql :=
      "SELECT CAST((occurred_at / :w) * :w AS TEXT) AS bucket_start, CAST(COUNT(*) AS TEXT) AS cnt " ++
        "FROM click_events " ++ baseWhere isPostgres query ++
        " GROUP BY bucket_start ORDER BY bucket_start"
    uses := ("w", .integer bucket.width) :: baseUses query }

/-- A row of that statement. -/
def timeBucketCount (r : SociRow) : Except Str Analytics.TimeBucketCount := do
  let bs ← stollText (← getText r "bucket_start")
  let count ← stollText (← getText r "cnt")
  return ⟨fromTimeT bs, toCount count⟩

/-- The `try` block of `GetAggregateStats`: how it ends, and what `*stats` holds then. -/
def fill (stats : Analytics.AggregateStats) : Except Str Unit × Analytics.AggregateStats :=
  match countQuery reader isPostgres query [] with
  | .error what => (.error what, stats)
  | .ok total =>
    let stats := { stats with totalAttempts := toCount total }
    match countQuery reader isPostgres query redirectsWhere with
    | .error what => (.error what, stats)
    | .ok redirects =>
      let stats := { stats with successfulRedirects := toCount redirects }
      match (reader.prepare (statusStatement isPostgres query)).pushInto statusCodeCount stats.statusCodeCounts with
      | (.error what, items) => (.error what, { stats with statusCodeCounts := items })
      | (.ok (), items) =>
        let stats := { stats with statusCodeCounts := items }
        match (reader.prepare (domainStatement isPostgres query)).pushInto domainCount stats.domainCounts with
        | (.error what, items) => (.error what, { stats with domainCounts := items })
        | (.ok (), items) =>
          let stats := { stats with domainCounts := items }
          match query.bucket with
          | none => (.ok (), stats)
          | some bucket =>
            if isPostgres then (.ok (), stats)
            else
              let buckets := reader.prepare (bucketStatement isPostgres query bucket)
              let pushed := buckets.pushInto timeBucketCount stats.timeBuckets
              (pushed.1, { stats with timeBuckets := pushed.2 })

/-- `GetAggregateStats`: what `stats` and `error` point to at the end. -/
def getAggregateStats (stats : Option Analytics.AggregateStats) (error : Option AnalyticsError) :
    Bool × Option Analytics.AggregateStats × Option AnalyticsError :=
  match stats with
  | none => (false, none, error)
  | some _ =>
    match fill reader isPostgres query {} with
    | (.ok (), stats) => (true, some stats, error)
    | (.error what, stats) => (false, some stats, error.map fun _ => ⟨.repository, what⟩)

end Read

end UrlShortener.Clicks.ClickSession

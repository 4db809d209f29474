import UrlShortener.Spec.Soci
import UrlShortener.Spec.SqlMetadata

/-!
# The PostgreSQL session

`PostgresSession` of `storage/postgres/postgres_session_factory.cpp` and `storage/postgres/postgres_error_mapper.cpp`.

* The database and the driver are parameters: what a statement answers and does to them, and with which text it
  fails, is up to `Soci`.
* A body that is retried is a function of the state around it: the database, and the variables that the lambda
  captures by reference. An exception is its text.
* The pause of 20 ms between two attempts is left out. What is written to `*error` is returned.
-/

namespace UrlShortener.Storage

/-- The last test of the source gives the same as none of them. -/
def PostgresErrorMapper.mapException (msg : Str) : RepoError :=
  if Text.contains msg "23505" || Text.contains msg "unique" then .alreadyExists
  else if Text.contains msg "42P01" || Text.contains msg "undefined table" then .permanentFailure
  else if Text.contains msg "40001" || Text.contains msg "40P01" ||
      Text.contains msg "connection" || Text.contains msg "could not connect" then .transientFailure
  else if Text.contains msg "57014" || Text.contains msg "statement timeout" ||
      Text.contains msg "timeout" || Text.contains msg "canceling statement" then .transientFailure
  else if Text.contains msg "28P01" || Text.contains msg "password authentication failed" then
    .permanentFailure
  else .permanentFailure

/-! ## The session -/

/-- **The driver on a database.** `executeInto` is a statement with one integer as its result. -/
structure Soci (DB : Type) where
  execute : Statement → DB → Except Str Unit × DB
  executeInto : Statement → DB → Except Str Int × DB
  prepare : Statement → DB → RowSet × DB

namespace PostgresSession

/-- `GetOpt<std::string>`. -/
def getOptText (r : SociRow) (name : Str) : Except Str (Option Str) :=
  match r name with
  | .null => .ok none
  | .text s => .ok (some s)
  | .integer _ => .error badCast

/-- `GetOpt` of an integer type. -/
def getOptInteger (r : SociRow) (name : Str) : Except Str (Option Int) :=
  match r name with
  | .null => .ok none
  | .text _ => .error badCast
  | .integer n => .ok (some n)

/-- `RowFromSoci`; a null in a required column throws. -/
def rowFromSoci (r : SociRow) : Except Str SqlRow := do
  let id ← getOptText r "id"
  let shortCode ← getOptText r "short_code"
  let targetUrl ← getOptText r "target_url"
  let createdAt ← getOptInteger r "created_at"
  let updatedAt ← getOptInteger r "updated_at"
  let expiresAt ← getOptInteger r "expires_at"
  let isActive ← getOptInteger r "is_active"
  let ownerId ← getOptText r "owner_id"
  let attributesJson ← getOptText r "attributes_json"
  return { id, shortCode, targetUrl, createdAt, updatedAt, expiresAt, isActive, ownerId, attributesJson }

section Retry

variable {σ : Type} (maxRetries : UInt64) (fn : σ → Except Str Unit × σ) (retryable : Bool)

/-- The loop of `RunWithRetry`, with `rounds` of it to go. -/
def retryLoop : (rounds : ℕ) → (attempt : UInt64) → σ → (Bool × Option RepoError) × σ
  | 0, _, s => ((false, some .transientFailure), s)
  | rounds + 1, attempt, s =>
    match fn s with
    | (.ok (), s) => ((true, none), s)
    | (.error what, s) =>
      if what = "not_found" then ((false, some .notFound), s)
      else
        let mapped := PostgresErrorMapper.mapException what
        let transient := mapped == .transientFailure
        if !(retryable && transient && decide (attempt < maxRetries)) then ((false, some mapped), s)
        else retryLoop rounds (attempt + 1) s

/-- `RunWithRetry`: `attempt` runs from 0 to `max_retries`. -/
def runWithRetry (s : σ) : (Bool × Option RepoError) × σ :=
  retryLoop maxRetries fn retryable (maxRetries.toNat + 1) 0 s

end Retry

/-- The `INSERT`, with its values. -/
def insertStatement (sql : Str) (row : SqlRow) : Statement :=
  { sql
    uses := [("id", .text (row.id.getD [])), ("short_code", .text (row.shortCode.getD [])),
      ("target_url", .text (row.targetUrl.getD [])), ("created_at", .integer (row.createdAt.getD 0)),
      ("updated_at", .integer (row.updatedAt.getD 0)), ("expires_at", .ofInteger row.expiresAt),
      ("is_active", .integer (row.isActive.getD 0)), ("owner_id", .ofText row.ownerId),
      ("attributes_json", .ofText row.attributesJson)] }

/-- The `UPDATE`, with its values. -/
def updateStatement (sql : Str) (row : SqlRow) : Statement :=
  { sql
    uses := [("target_url", .text (row.targetUrl.getD [])),
      ("updated_at", .integer (row.updatedAt.getD 0)), ("expires_at", .ofInteger row.expiresAt),
      ("is_active", .integer (row.isActive.getD 0)), ("owner_id", .ofText row.ownerId),
      ("attributes_json", .ofText row.attributesJson), ("short_code", .text (row.shortCode.getD []))] }

/-- A statement about one code. -/
def codeStatement (sql shortCode : Str) : Statement := { sql, uses := [("short_code", .text shortCode)] }

/-- How `UpdateLink` looks for the row after the change. -/
def countStatement (shortCode : Str) : Statement :=
  codeStatement "SELECT COUNT(1) FROM links WHERE short_code = :short_code;" shortCode

/-- The `SELECT` of a page. -/
def listStatement (sql : Str) (owner : Option Str) (includeInactive : Bool) (limit offset : UInt64) : Statement :=
  { sql
    uses := [("owner_id", .ofText owner),
      ("include_inactive", .integer (if includeInactive then 1 else 0)),
      ("limit", .integer (staticCastInt limit)), ("offset", .integer (staticCastInt offset))] }

variable {DB : Type} (soci : Soci DB) (maxRetries : UInt64)

/-- `Bootstrap`. -/
def bootstrap (sql : Str) (db : DB) : (Bool × Option RepoError) × DB :=
  runWithRetry maxRetries (soci.execute { sql }) true db

/-- `InsertLink`. -/
def insertLink (sql : Str) (row : SqlRow) (db : DB) : (Bool × Option RepoError) × DB :=
  runWithRetry maxRetries (soci.execute (insertStatement sql row)) false db

/-- The body of `SelectByShortCode`: only the first row is fetched, and each attempt that ends sets `out`. -/
def selectBody (statement : Statement) (s : Option SqlRow × DB) : Except Str Unit × (Option SqlRow × DB) :=
  let (out, db) := s
  let (rs, db) := soci.prepare statement db
  match rs.rows, rs.failure with
  | [], some what => (.error what, (out, db))
  | [], none => (.ok (), (none, db))
  | r :: _, _ =>
    match rowFromSoci r with
    | .error what => (.error what, (out, db))
    | .ok row => (.ok (), (some row, db))

/-- `SelectByShortCode`. -/
def selectByShortCode (sql : Str) (shortCode : Str) (db : DB) : (Option SqlRow × Option RepoError) × DB :=
  let ((ok, error), (out, db)) :=
    runWithRetry maxRetries (selectBody soci (codeStatement sql shortCode)) true (none, db)
  if !ok then ((none, error), db)
  else if out.isNone then ((out, some .notFound), db)
  else ((out, error), db)

/-- The body of `UpdateLink`: the change, and the count that tells whether there was a row to change. -/
def updateBody (sql : Str) (row : SqlRow) (db : DB) : Except Str Unit × DB :=
  match soci.execute (updateStatement sql row) db with
  | (.error what, db) => (.error what, db)
  | (.ok (), db) =>
    match soci.executeInto (countStatement (row.shortCode.getD [])) db with
    | (.error what, db) => (.error what, db)
    | (.ok affected, db) => if affected = 0 then (.error "not_found", db) else (.ok (), db)

/-- `UpdateLink`. -/
def updateLink (sql : Str) (row : SqlRow) (db : DB) : (Bool × Option RepoError) × DB :=
  runWithRetry maxRetries (updateBody soci sql row) false db

/-- `DeleteLink`. -/
def deleteLink (sql : Str) (shortCode : Str) (db : DB) : (Bool × Option RepoError) × DB :=
  runWithRetry maxRetries (soci.execute (codeStatement sql shortCode)) false db

/-- The body of `Exists`. -/
def existsBody (statement : Statement) (s : Int × DB) : Except Str Unit × (Int × DB) :=
  match soci.executeInto statement s.2 with
  | (.error what, db) => (.error what, (s.1, db))
  | (.ok count, db) => (.ok (), (count, db))

/-- `Exists`; `*exists` is set whether the statement succeeds or not. -/
def linkExists (sql : Str) (shortCode : Str) (db : DB) : (Bool × Bool × Option RepoError) × DB :=
  let ((ok, error), (count, db)) := runWithRetry maxRetries (existsBody soci (codeStatement sql shortCode)) true (0, db)
  ((ok, decide (0 < count), error), db)

/-- The body of `List`. -/
def listBody (statement : Statement) (s : List SqlRow × DB) : Except Str Unit × (List SqlRow × DB) :=
  let (rows, db) := s
  let (rs, db) := soci.prepare statement db
  let (result, rows) := rs.pushInto rowFromSoci rows
  (result, (rows, db))

/-- `List`: `rows` is declared before the body that is retried, and an attempt goes on with what it finds there. -/
def list (sql : Str) (owner : Option Str) (includeInactive : Bool) (limit offset : UInt64) (db : DB) :
    (List SqlRow × Option RepoError) × DB :=
  let statement := listStatement sql owner includeInactive limit offset
  let ((ok, error), (rows, db)) := runWithRetry maxRetries (listBody soci statement) true ([], db)
  if !ok then (([], error), db) else ((rows, error), db)

end PostgresSession

end UrlShortener.Storage

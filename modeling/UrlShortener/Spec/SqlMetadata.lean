import UrlShortener.Spec.Storage
import UrlShortener.Spec.Json
import UrlShortener.Sql.Table
import UrlShortener.PropertyTree.Basic

/-!
# The SQL metadata repository over SQLite

`storage/sql/sql_metadata_repository.cpp`, `storage/sql/sql_metadata_row_mapper.cpp`,
`storage/sqlite/sqlite_session_factory.cpp`, `storage/sqlite/sqlite_sql_dialect.cpp` and
`storage/sqlite/sqlite_error_mapper.cpp`.

* The statements of the dialect are the table operations they denote. Every method opens a session and
  creates the table when it is missing, so a database starts as the empty table.
* The property tree library, with its `read_json` and `write_json`, is a parameter (`PropertyTree.Library`).
* The type under which SOCI reports an `INTEGER` column is a parameter; the session handles two.
* A method that lets an exception out has no answer (`none`).
-/

namespace UrlShortener.Storage

open PropertyTree Sql

/-! ## Rows -/

/-- `SqlRow`: the columns as the repository and the session exchange them. -/
structure SqlRow where
  id : Option Str := none
  shortCode : Option Str := none
  targetUrl : Option Str := none
  createdAt : Option Int := none
  updatedAt : Option Int := none
  expiresAt : Option Int := none
  isActive : Option Int := none
  ownerId : Option Str := none
  attributesJson : Option Str := none

/-- A row of the table `links`. An `Option` column may be `NULL`. -/
structure LinksRow where
  id : Str
  shortCode : Str
  targetUrl : Str
  createdAt : Int
  updatedAt : Int
  expiresAt : Option Int
  isActive : Int
  ownerId : Option Str
  attributesJson : Option Str
  deriving DecidableEq

/-- The primary key. -/
def LinksRow.clash (r r' : LinksRow) : Bool := r.shortCode == r'.shortCode

/-! ## The row mapper -/

/-- `ToEpochSeconds`. -/
def toEpochSeconds (tp : TimePoint) : Int := toTimeT tp

/-- `FromEpochSeconds`. -/
def fromEpochSeconds (value : Int) : TimePoint := fromTimeT value

/-- The tree that is written: `put` takes its key as a path. -/
def payloadTree (json : Library T) (id : Str) (attrs : UnorderedMap Str Str) : T :=
  let root := json.put "id" id json.empty
  let attrsTree := (sortedItems attrs).foldl (fun t item => json.put item.1 item.2 t) json.empty
  json.addChild "attributes" attrsTree root

/-- Nothing when `write_json` throws. -/
def serializePayload (json : Library T) (id : Str) (attrs : UnorderedMap Str Str) : Option Str :=
  json.write (payloadTree json id attrs)

/-- Nothing when `read_json` or `get` throws. -/
def deserializePayload (json : Library T) (text : Str) : Option (Str × UnorderedMap Str Str) :=
  match json.read text with
  | none => none
  | some root =>
    match json.get "id" root with
    | none => none
    | some id =>
      let attrs :=
        match json.getChild "attributes" root with
        | none => ∅
        | some attrsTree => (json.items attrsTree).foldl (fun attrs kv => attrs.insert kv.1 kv.2) ∅
      some (id, attrs)

namespace SqlMetadataRowMapper

/-- Nothing when `SerializePayload` throws; the mapper does not catch it. -/
def toCreateRow (json : Library T) (request : CreateLinkRequest) (id : Str) (now : TimePoint) : Option SqlRow :=
  (serializePayload json id request.attributes).map fun attributesJson =>
    { id := some id, shortCode := some request.shortCode, targetUrl := some request.targetUrl,
      createdAt := some (toEpochSeconds now), updatedAt := some (toEpochSeconds now),
      expiresAt := request.expiresAt.map toEpochSeconds, isActive := some (if request.isActive then 1 else 0),
      ownerId := request.owner, attributesJson := some attributesJson }

/-- `ToUpdateRow`. -/
def toUpdateRow (json : Library T) (record : LinkRecord) : Option SqlRow :=
  (serializePayload json record.id record.attributes).map fun attributesJson =>
    { id := some record.id, shortCode := some record.shortCode, targetUrl := some record.targetUrl,
      createdAt := some (toEpochSeconds record.createdAt), updatedAt := some (toEpochSeconds record.updatedAt),
      expiresAt := record.expiresAt.map toEpochSeconds, isActive := some (if record.isActive then 1 else 0),
      ownerId := record.owner, attributesJson := some attributesJson }

/-- The record starts out with its defaults: no column sets `deleted_at` or `version`. -/
def fromRow (json : Library T) (row : SqlRow) : Except RepoError LinkRecord :=
  match row.shortCode, row.targetUrl, row.createdAt, row.updatedAt, row.isActive with
  | some shortCode, some targetUrl, some createdAt, some updatedAt, some isActive =>
    let out : LinkRecord :=
      { id := [], shortCode, targetUrl, createdAt := fromEpochSeconds createdAt,
        updatedAt := fromEpochSeconds updatedAt, expiresAt := row.expiresAt.map fromEpochSeconds,
        owner := row.ownerId, isActive := isActive != 0 }
    match row.attributesJson with
    | none => .ok { out with id := row.id.getD shortCode, attributes := ∅ }
    | some text =>
      match deserializePayload json text with
      | none => .error .permanentFailure
      | some (id, attributes) => .ok { out with id, attributes }
  | _, _, _, _, _ => .error .permanentFailure

end SqlMetadataRowMapper

/-! ## The session -/

/-- Every text that is no other case is a permanent failure. -/
def SqliteErrorMapper.mapException (msg : Str) : RepoError :=
  if Text.contains msg "UNIQUE" || Text.contains msg "unique" then .alreadyExists
  else if Text.contains msg "database is locked" || Text.contains msg "busy" then .transientFailure
  else .permanentFailure

/-- The types of a SOCI column that hold integers. -/
inductive SociIntegers
  | dtInteger
  | dtLongLong
  deriving DecidableEq

/-- `GetOptLL`: a column that is no `dt_long_long` is read as an `int`, the low 32 bits. -/
def SociIntegers.getLL : SociIntegers → Int → Int
  | .dtLongLong, value => value
  | .dtInteger, value => (Int32.ofInt value).toInt

/-- `static_cast<int>`. -/
def staticCastInt (n : UInt64) : Int := (Int32.ofInt n.toNat).toInt

namespace SqliteSession

/-- The statement fails with this text when the primary key is there already. -/
def uniqueFailed : Str := "UNIQUE constraint failed: links.short_code"

/-- `InsertLink`; a known code is refused. -/
def insertLink (row : SqlRow) (links : Table LinksRow) : (Bool × Option RepoError) × Table LinksRow :=
  let new : LinksRow :=
    { id := row.id.getD [], shortCode := row.shortCode.getD [], targetUrl := row.targetUrl.getD [],
      createdAt := row.createdAt.getD 0, updatedAt := row.updatedAt.getD 0, expiresAt := row.expiresAt,
      isActive := row.isActive.getD 0, ownerId := row.ownerId, attributesJson := row.attributesJson }
  match Sql.insert LinksRow.clash new links with
  | some links => ((true, none), links)
  | none => ((false, some (SqliteErrorMapper.mapException uniqueFailed)), links)

/-- `RowFromSoci`. -/
def rowFromSoci (integers : SociIntegers) (r : LinksRow) : SqlRow :=
  { id := some r.id, shortCode := some r.shortCode, targetUrl := some r.targetUrl,
    createdAt := some (integers.getLL r.createdAt), updatedAt := some (integers.getLL r.updatedAt),
    expiresAt := r.expiresAt.map integers.getLL, isActive := some r.isActive, ownerId := r.ownerId,
    attributesJson := r.attributesJson }

/-- `SelectByShortCode`. -/
def selectByShortCode (integers : SociIntegers) (shortCode : Str) (links : Table LinksRow) :
    Except RepoError SqlRow :=
  match first (·.shortCode == shortCode) links with
  | none => .error .notFound
  | some row => .ok (rowFromSoci integers row)

/-- The statement sets neither `id` nor `created_at`. -/
def updateLink (row : SqlRow) (links : Table LinksRow) : (Bool × Option RepoError) × Table LinksRow :=
  let shortCode := row.shortCode.getD []
  let set (r : LinksRow) : LinksRow :=
    { r with targetUrl := row.targetUrl.getD [], updatedAt := row.updatedAt.getD 0, expiresAt := row.expiresAt,
             isActive := row.isActive.getD 0, ownerId := row.ownerId, attributesJson := row.attributesJson }
  let affected := count (·.shortCode == shortCode) links
  (if affected = 0 then (false, some .notFound) else (true, none), update (·.shortCode == shortCode) set links)

/-- `DeleteLink`; an unknown code is no error. -/
def deleteLink (shortCode : Str) (links : Table LinksRow) : (Bool × Option RepoError) × Table LinksRow :=
  ((true, none), delete (·.shortCode == shortCode) links)

/-- `Exists`. -/
def linkExists (shortCode : Str) (links : Table LinksRow) : Bool := 0 < count (·.shortCode == shortCode) links

/-- `owner_id = :owner_id` does not hold when the column is `NULL`. -/
def list (integers : SociIntegers) (owner : Option Str) (includeInactive : Bool) (limit offset : UInt64)
    (links : Table LinksRow) : List SqlRow :=
  let rows := links.filter fun r => (owner.isNone || r.ownerId == owner) && (includeInactive || r.isActive == 1)
  (page (staticCastInt limit) (staticCastInt offset) (orderBy (·.createdAt) rows)).map (rowFromSoci integers)

end SqliteSession

/-! ## The repository -/

namespace SqlMetadataRepository

open SqlMetadataRowMapper

variable (json : Library T) (integers : SociIntegers)

/-- `CreateLink`; none if the mapper throws. -/
def createLink (request : CreateLinkRequest) (id : Str) (now : TimePoint) (links : Table LinksRow) :
    Option (Bool × Option RepoError) × Table LinksRow :=
  if !request.isValid then (some (false, some .invalidArgument), links)
  else
    match toCreateRow json request id now with
    | none => (none, links)
    | some row =>
      let (answer, links) := SqliteSession.insertLink row links
      (some answer, links)

/-- `GetByShortCode`. -/
def getByShortCode (shortCode : Str) (links : Table LinksRow) : Option LinkRecord × Option RepoError :=
  match SqliteSession.selectByShortCode integers shortCode links with
  | .error e => (none, some e)
  | .ok row =>
    match fromRow json row with
    | .error e => (none, some e)
    | .ok out => (some out, none)

/-- `UpdateLink`; none if the mapper throws. -/
def updateLink (record : LinkRecord) (links : Table LinksRow) : Option (Bool × Option RepoError) × Table LinksRow :=
  match toUpdateRow json record with
  | none => (none, links)
  | some row =>
    let (answer, links) := SqliteSession.updateLink row links
    (some answer, links)

/-- `DeleteLink`. -/
def deleteLink (shortCode : Str) (links : Table LinksRow) : (Bool × Option RepoError) × Table LinksRow :=
  SqliteSession.deleteLink shortCode links

/-- The loop over the rows: the first one that cannot be mapped ends it. -/
def mapRows : List SqlRow → Except RepoError (List LinkRecord)
  | [] => .ok []
  | row :: rows =>
    match fromRow json row with
    | .error e => .error e
    | .ok mapped => (mapRows rows).map (mapped :: ·)

/-- `include_deleted` is not passed on. -/
def listLinks (query : ListLinksQuery) (links : Table LinksRow) : List LinkRecord × Option RepoError :=
  match mapRows json (SqliteSession.list integers query.owner query.includeInactive query.limit query.offset links) with
  | .error e => ([], some e)
  | .ok out => (out, none)

/-- `Exists`. -/
def linkExists (shortCode : Str) (links : Table LinksRow) : Bool := SqliteSession.linkExists shortCode links

end SqlMetadataRepository

/-! ## The port -/

/-- A call of `IMetadataRepository`. The in-memory adapter lists its hash table in some order. -/
inductive MetadataCall
  | createLink (request : CreateLinkRequest) (id : Str) (now : TimePoint)
  | updateLink (record : LinkRecord)
  | deleteLink (shortCode : Str)
  | getByShortCode (shortCode : Str)
  | linkExists (shortCode : Str)
  | listLinks (query : ListLinksQuery) (iteration : Iteration LinkRecord)

namespace MetadataCall

/-- What a call returns, and its error code. -/
abbrev Answer : MetadataCall → Type
  | .createLink .. | .updateLink .. | .deleteLink .. | .linkExists .. => Bool × Option RepoError
  | .getByShortCode .. => Option LinkRecord × Option RepoError
  | .listLinks .. => List LinkRecord × Option RepoError

/-- A change that is refused leaves the repository as it is. -/
def changeAnswer (repo : InMemoryMetadataRepository) :
    Except RepoError InMemoryMetadataRepository → (Bool × Option RepoError) × InMemoryMetadataRepository
  | .error e => ((false, some e), repo)
  | .ok repo => ((true, none), repo)

/-- `InMemoryMetadataRepository`. -/
def inMemory : (call : MetadataCall) → InMemoryMetadataRepository → call.Answer × InMemoryMetadataRepository
  | .createLink request id now, repo => changeAnswer repo (repo.createLink request id now)
  | .updateLink record, repo => changeAnswer repo (repo.updateLink record)
  | .deleteLink shortCode, repo => ((true, none), repo.deleteLink shortCode)
  | .getByShortCode shortCode, repo =>
    ((repo.getByShortCode shortCode, if (repo.getByShortCode shortCode).isSome then none else some .notFound), repo)
  | .linkExists shortCode, repo => ((repo.linkExists shortCode, none), repo)
  | .listLinks query iteration, repo => ((repo.listLinks iteration query, none), repo)

/-- `SqlMetadataRepository` with the SQLite dialect and session. -/
def sqlite (json : Library T) (integers : SociIntegers) :
    (call : MetadataCall) → Table LinksRow → Option call.Answer × Table LinksRow
  | .createLink request id now, links => SqlMetadataRepository.createLink json request id now links
  | .updateLink record, links => SqlMetadataRepository.updateLink json record links
  | .deleteLink shortCode, links =>
    let (answer, links) := SqlMetadataRepository.deleteLink shortCode links
    (some answer, links)
  | .getByShortCode shortCode, links =>
    (some (SqlMetadataRepository.getByShortCode json integers shortCode links), links)
  | .linkExists shortCode, links => (some (SqlMetadataRepository.linkExists shortCode links, none), links)
  | .listLinks query _, links => (some (SqlMetadataRepository.listLinks json integers query links), links)

end MetadataCall

end UrlShortener.Storage

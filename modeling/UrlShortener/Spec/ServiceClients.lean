import Mathlib.Data.List.Basic
import UrlShortener.Spec.Time
import UrlShortener.Sql.Table

/-!
# Service clients

`security/service_client.cpp` and `security/service_client_repository.cpp`, over the table `service_clients` of
`005_auth_tables.sql`. The identifier of a new row and the readings of the clock are arguments, and an operation that
throws returns `none`.
-/

namespace UrlShortener.ServiceClients

open Sql

/-- A client. -/
structure ServiceClient where
  id : Str
  clientId : Str
  clientSecretHash : Option Str
  allowedScopes : List Str
  isActive : Bool
  createdAt : TimePoint
  updatedAt : TimePoint
  lastUsedAt : Option TimePoint := none

/-- `std::find` over the scopes. -/
def ServiceClient.hasScope (client : ServiceClient) (scope : Str) : Bool := client.allowedScopes.contains scope

/-- A row of `service_clients`. -/
structure ClientRow where
  id : Str
  clientId : Str
  clientSecretHash : Option Str
  allowedScopes : Str
  isActive : Int
  createdAt : Int
  updatedAt : Int
  lastUsedAt : Option Int := none

/-- The `PRIMARY KEY` and the `UNIQUE` column. -/
def ClientRow.clash (row other : ClientRow) : Bool := row.id == other.id || row.clientId == other.clientId

/-- Commas between. -/
def joinScopes (scopes : List Str) : Str := [','].intercalate scopes

/-- The loop of `splitScopes`, with the token so far and the scopes so far. -/
def splitScopesLoop : Str → (tok : Str) → (out : List Str) → List Str
  | [], tok, out => if tok ≠ [] then out ++ [tok] else out
  | c :: s, tok, out =>
    if c = ',' then
      if tok ≠ [] then splitScopesLoop s [] (out ++ [tok]) else splitScopesLoop s tok out
    else splitScopesLoop s (tok ++ [c]) out

/-- Empty parts are left out. -/
def splitScopes (s : Str) : List Str := splitScopesLoop s [] []

/-- The row and its object; none if the insert is refused. -/
def createClient (id : Str) (now : TimePoint) (clientId : Str) (allowedScopes : List Str)
    (clientSecretHash : Option Str) (clients : Table ClientRow) : Option (ServiceClient × Table ClientRow) :=
  let row : ClientRow :=
    { id := id, clientId := clientId, clientSecretHash := clientSecretHash, allowedScopes := joinScopes allowedScopes
      isActive := 1, createdAt := toTimeT now, updatedAt := toTimeT now }
  match insert ClientRow.clash row clients with
  | none => none
  | some clients =>
    some ({ id := id, clientId := clientId, clientSecretHash := clientSecretHash, allowedScopes := allowedScopes,
            isActive := true, createdAt := now, updatedAt := now }, clients)

/-- The object of a row. -/
def fromRow (row : ClientRow) : ServiceClient where
  id := row.id
  clientId := row.clientId
  clientSecretHash := row.clientSecretHash
  allowedScopes := splitScopes row.allowedScopes
  isActive := row.isActive != 0
  createdAt := fromTimeT row.createdAt
  updatedAt := fromTimeT row.updatedAt
  lastUsedAt := row.lastUsedAt.map fromTimeT

/-- The client of that name. -/
def findByClientId (clientId : Str) (clients : Table ClientRow) : Option ServiceClient :=
  (first (·.clientId == clientId) clients).map fromRow

/-- Sets `last_used_at`. -/
def touchLastUsed (now : TimePoint) (clientId : Str) (clients : Table ClientRow) : Table ClientRow :=
  update (·.clientId == clientId) (fun row => { row with lastUsedAt := some (toTimeT now) }) clients

/-- A call that writes, with what it takes from outside. -/
inductive ClientCall
  | create (id : Str) (now : TimePoint) (clientId : Str) (allowedScopes : List Str) (clientSecretHash : Option Str)
  | touch (now : TimePoint) (clientId : Str)

/-- What a call leaves behind. -/
def ClientCall.step (call : ClientCall) (clients : Table ClientRow) : Table ClientRow :=
  match call with
  | create id now clientId allowedScopes clientSecretHash =>
    match createClient id now clientId allowedScopes clientSecretHash clients with
    | none => clients
    | some (_, clients) => clients
  | touch now clientId => touchLastUsed now clientId clients

end UrlShortener.ServiceClients

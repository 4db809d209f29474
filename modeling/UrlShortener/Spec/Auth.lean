import UrlShortener.Spec.Time
import UrlShortener.Sql.Table

/-!
# Users and sessions

`UserCredentialsRepository`, `AuthSessionRepository` and `AuthBrokerService` of `security/`, over the two
tables of `005_auth_tables.sql` they read and write. The audit log is left out: nothing reads it back. What
an operation takes from outside is an `AuthEnv`: the successive readings of the clock, the identifier of the
row it inserts and the token it generates. An operation that throws returns `none`.
-/

namespace UrlShortener.Auth

open Sql

/-- What a user may do. -/
inductive ControlSet
  | admin
  | user
  deriving DecidableEq

/-! ## Tables -/

/-- A row of `app_users`. -/
structure UserRow where
  id : Str
  username : Str
  passwordHash : Str
  controlSet : ControlSet
  isActive : Int
  createdAt : Int
  updatedAt : Int
  lastLoginAt : Option Int := none

/-- A row of `auth_sessions`. -/
structure SessionRow where
  id : Str
  userId : Str
  clientId : Option Str
  tokenHash : Str
  createdAt : Int
  expiresAt : Int
  revokedAt : Option Int := none
  lastUsedAt : Option Int := none

/-- The two tables. -/
structure AuthDb where
  users : Table UserRow := []
  sessions : Table SessionRow := []

/-- The `PRIMARY KEY` and the `UNIQUE` column of `app_users`. -/
def UserRow.clash (row other : UserRow) : Bool := row.id == other.id || row.username == other.username

/-- The `PRIMARY KEY` and the `UNIQUE` column of `auth_sessions`. -/
def SessionRow.clash (row other : SessionRow) : Bool := row.id == other.id || row.tokenHash == other.tokenHash

/-! ## Objects -/

/-- A user. -/
structure UserCredentials where
  id : Str
  username : Str
  passwordHash : Str
  controlSet : ControlSet
  isActive : Bool
  createdAt : TimePoint
  updatedAt : TimePoint
  lastLoginAt : Option TimePoint

/-- A session. -/
structure AuthSession where
  id : Str
  userId : Str
  clientId : Option Str
  tokenHash : Str
  createdAt : TimePoint
  expiresAt : TimePoint
  revokedAt : Option TimePoint := none
  lastUsedAt : Option TimePoint := none

/-- Neither revoked nor expired. -/
def AuthSession.isActive (session : AuthSession) (now : TimePoint) : Bool :=
  if session.revokedAt.isSome then false
  else if now ≥ session.expiresAt then false
  else true

/-- What an operation takes from outside. -/
structure AuthEnv where
  clock : ℕ → TimePoint
  newId : Str
  newToken : Str

/-- The password hasher and `TokenGenerator::hashToken`. -/
structure Crypto where
  verifyPassword : (plainPassword passwordHash : Str) → Bool
  hashToken : Str → Str

/-! ## `UserCredentialsRepository` -/

namespace UserCredentialsRepository

/-- The object of a row. -/
def buildUserRow (row : UserRow) : UserCredentials where
  id := row.id
  username := row.username
  passwordHash := row.passwordHash
  controlSet := row.controlSet
  isActive := row.isActive != 0
  createdAt := fromTimeT row.createdAt
  updatedAt := fromTimeT row.updatedAt
  lastLoginAt := row.lastLoginAt.map fromTimeT

/-- There is an active admin. -/
def activeAdminExists (db : AuthDb) : Bool :=
  decide (0 < count (fun row => row.controlSet == .admin && row.isActive == 1) db.users)

/-- The row and its object; none if the insert is refused. -/
def createUser (env : AuthEnv) (username passwordHash : Str) (controlSet : ControlSet) (db : AuthDb) :
    Option UserCredentials × AuthDb :=
  let now := env.clock 0
  let row : UserRow :=
    { id := env.newId, username := username, passwordHash := passwordHash, controlSet := controlSet
      isActive := 1, createdAt := toTimeT now, updatedAt := toTimeT now }
  match insert UserRow.clash row db.users with
  | none => (none, db)
  | some users => (some ⟨env.newId, username, passwordHash, controlSet, true, now, now, none⟩, { db with users })

/-- The active user of that name. -/
def findByUsername (username : Str) (db : AuthDb) : Option UserCredentials :=
  (first (fun row => row.username == username && row.isActive == 1) db.users).map buildUserRow

/-- The active user of that identifier. -/
def findById (userId : Str) (db : AuthDb) : Option UserCredentials :=
  (first (fun row => row.id == userId && row.isActive == 1) db.users).map buildUserRow

/-- Clears `is_active`. -/
def deactivateUser (env : AuthEnv) (username : Str) (db : AuthDb) : AuthDb :=
  let now := toTimeT (env.clock 0)
  { db with
    users := update (·.username == username) (fun row => { row with isActive := 0, updatedAt := now }) db.users }

/-- Sets `last_login_at`. -/
def touchLastLogin (now : TimePoint) (userId : Str) (db : AuthDb) : AuthDb :=
  { db with users := update (·.id == userId) (fun row => { row with lastLoginAt := some (toTimeT now) }) db.users }

end UserCredentialsRepository

/-! ## `AuthSessionRepository` -/

namespace AuthSessionRepository

/-- The row and its object; none if the insert is refused. -/
def createSession (id : Str) (now : TimePoint) (userId tokenHash : Str) (expiresAt : TimePoint)
    (clientId : Option Str) (db : AuthDb) : Option (AuthSession × AuthDb) :=
  let row : SessionRow :=
    { id := id, userId := userId, clientId := clientId, tokenHash := tokenHash
      createdAt := toTimeT now, expiresAt := toTimeT expiresAt }
  match insert SessionRow.clash row db.sessions with
  | none => none
  | some sessions =>
    some ({ id := id, userId := userId, clientId := clientId, tokenHash := tokenHash,
            createdAt := now, expiresAt := expiresAt }, { db with sessions })

/-- The object of a row. -/
def fromRow (row : SessionRow) : AuthSession where
  id := row.id
  userId := row.userId
  clientId := row.clientId
  tokenHash := row.tokenHash
  createdAt := fromTimeT row.createdAt
  expiresAt := fromTimeT row.expiresAt
  revokedAt := row.revokedAt.map fromTimeT
  lastUsedAt := row.lastUsedAt.map fromTimeT

/-- `findByTokenHash`, which also stamps `last_used_at` of an active session. -/
def findByTokenHash (now : TimePoint) (tokenHash : Str) (db : AuthDb) : Option AuthSession × AuthDb :=
  match first (·.tokenHash == tokenHash) db.sessions with
  | none => (none, db)
  | some row =>
    let session := fromRow row
    if session.isActive now then
      (some { session with lastUsedAt := some now },
        { db with sessions :=
            update (·.id == row.id) (fun row => { row with lastUsedAt := some (toTimeT now) }) db.sessions })
    else (some session, db)

/-- Revokes the session of a token. -/
def revokeByTokenHash (now : TimePoint) (tokenHash : Str) (db : AuthDb) : AuthDb :=
  { db with sessions :=
      update (·.tokenHash == tokenHash) (fun row => { row with revokedAt := some (toTimeT now) }) db.sessions }

/-- Revokes what is not yet revoked. -/
def revokeAllForUser (now : TimePoint) (userId : Str) (db : AuthDb) : AuthDb :=
  let unrevoked : SessionRow → Bool := fun row => row.userId == userId && row.revokedAt.isNone
  { db with sessions := update unrevoked (fun row => { row with revokedAt := some (toTimeT now) }) db.sessions }

end AuthSessionRepository

/-! ## `AuthBrokerService` -/

/-- What a sign-in returns. -/
structure CreateSessionResult where
  ok : Bool
  rawToken : Str := []
  session : Option AuthSession := none
  user : Option UserCredentials := none

/-- What an introspection returns. -/
structure IntrospectResult where
  active : Bool
  user : Option UserCredentials := none
  session : Option AuthSession := none

namespace AuthBrokerService

variable (crypto : Crypto) (sessionLifetime : Int64)

/-- `verifyPassword`: the user, when the password is theirs. -/
def verifyPassword (now : TimePoint) (username plainPassword : Str) (db : AuthDb) :
    Option UserCredentials × AuthDb :=
  match UserCredentialsRepository.findByUsername username db with
  | none => (none, db)
  | some user =>
    if !user.isActive then (none, db)
    else if !crypto.verifyPassword plainPassword user.passwordHash then (none, db)
    else (some user, UserCredentialsRepository.touchLastLogin now user.id db)

/-- A sign-in; none if the insert throws. -/
def createSession (env : AuthEnv) (username plainPassword : Str) (clientId : Option Str) (db : AuthDb) :
    Option CreateSessionResult × AuthDb :=
  match verifyPassword crypto (env.clock 0) username plainPassword db with
  | (none, db) => (some ⟨false, [], none, none⟩, db)
  | (some user, db) =>
    let rawToken := env.newToken
    let tokenHash := crypto.hashToken rawToken
    let expiresAt := (env.clock 1).addSeconds sessionLifetime.toInt
    match AuthSessionRepository.createSession env.newId (env.clock 2) user.id tokenHash expiresAt clientId db with
    | none => (none, db)
    | some (session, db) => (some ⟨true, rawToken, some session, some user⟩, db)

/-- The user and the session of a token that is in force. -/
def introspectToken (env : AuthEnv) (rawToken : Str) (db : AuthDb) : IntrospectResult × AuthDb :=
  match AuthSessionRepository.findByTokenHash (env.clock 0) (crypto.hashToken rawToken) db with
  | (none, db) => (⟨false, none, none⟩, db)
  | (some session, db) =>
    let now := env.clock 1
    if !session.isActive now then (⟨false, none, none⟩, db)
    else
      match UserCredentialsRepository.findById session.userId db with
      | none => (⟨false, none, none⟩, db)
      | some user => (⟨true, some user, some session⟩, db)

/-- A sign-out. -/
def revokeToken (env : AuthEnv) (rawToken : Str) (db : AuthDb) : AuthDb :=
  AuthSessionRepository.revokeByTokenHash (env.clock 0) (crypto.hashToken rawToken) db

end AuthBrokerService

/-! ## Runs -/

/-- The operations on the two tables. -/
inductive AuthOp
  | createUser (username passwordHash : Str) (controlSet : ControlSet)
  | deactivateUser (username : Str)
  | createSession (username plainPassword : Str) (clientId : Option Str)
  | introspectToken (rawToken : Str)
  | revokeToken (rawToken : Str)
  | revokeAllForUser (userId : Str)

/-- An operation, and what it takes from outside. -/
structure AuthCall where
  op : AuthOp
  env : AuthEnv

/-- What an operation leaves behind. -/
def AuthCall.step (crypto : Crypto) (sessionLifetime : Int64) (call : AuthCall) (db : AuthDb) : AuthDb :=
  match call.op with
  | .createUser username passwordHash controlSet =>
    (UserCredentialsRepository.createUser call.env username passwordHash controlSet db).2
  | .deactivateUser username => UserCredentialsRepository.deactivateUser call.env username db
  | .createSession username plainPassword clientId =>
    (AuthBrokerService.createSession crypto sessionLifetime call.env username plainPassword clientId db).2
  | .introspectToken rawToken => (AuthBrokerService.introspectToken crypto call.env rawToken db).2
  | .revokeToken rawToken => AuthBrokerService.revokeToken crypto call.env rawToken db
  | .revokeAllForUser userId => AuthSessionRepository.revokeAllForUser (call.env.clock 0) userId db

end UrlShortener.Auth

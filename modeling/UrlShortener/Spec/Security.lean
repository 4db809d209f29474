import UrlShortener.Calls.Program
import UrlShortener.Spec.Auth

/-!
# Authentication, user management and the audit log

`auth_broker_service.cpp`, `user_management_service.cpp`, `first_admin_bootstrap.cpp`, `access_guard.cpp`,
`control_set.cpp` and `auth_audit_log_repository.cpp` of `security/`.

Callers on separate connections share the database only, and nothing groups their statements into transactions: a
service is a program of single statements (`Statement`), each of them atomic. Any of them may throw, and an exception
ends the program where it stands.

What a statement takes from outside is the `Fate` of the call: the clock, random bytes, and whether it goes through.
-/

namespace UrlShortener.Auth

open Sql Calls

/-! ## The audit log -/

/-- What is logged. -/
inductive AuditAction
  | passwordVerify
  | sessionCreate
  | tokenIntrospect
  | tokenRevoke
  | userCreate
  | userDeactivate
  | firstAdminCreate
  deriving DecidableEq

/-- How it went. -/
inductive AuditResult
  | success
  | failure
  | denied
  deriving DecidableEq

/-- A row of `auth_audit_log`. -/
structure AuditRow where
  id : Str
  clientId : Option Str
  username : Option Str
  userId : Option Str
  action : AuditAction
  result : AuditResult
  reason : Option Str
  createdAt : Int
  deriving DecidableEq

/-- The `PRIMARY KEY`. -/
def AuditRow.clash (row other : AuditRow) : Bool := row.id == other.id

/-- The arguments of `append`; those left out are null. -/
structure AuditEntry where
  action : AuditAction
  result : AuditResult
  username : Option Str := none
  userId : Option Str := none
  clientId : Option Str := none
  reason : Option Str := none
  deriving DecidableEq

/-! ## Control sets -/

/-- The name of a control set. -/
def ControlSet.toStr : ControlSet → Str
  | admin => "admin"
  | user => "user"

/-- Only an admin may. -/
def canManageUsers (controlSet : ControlSet) : Bool := controlSet == .admin

/-! ## Statements -/

/-- The statements of the services, and what they take from outside. -/
inductive Statement
  | now
  | randomBytes
  | activeAdminExists
  | findByUsername (username : Str)
  | findById (userId : Str)
  | listUsers
  | createUser (username passwordHash : Str) (controlSet : ControlSet)
  | deactivateUser (username : Str)
  | touchLastLogin (userId : Str)
  | createSession (userId tokenHash : Str) (expiresAt : TimePoint) (clientId : Option Str)
  | selectSession (tokenHash : Str)
  | touchLastUsed (id : Str) (now : TimePoint)
  | revokeByTokenHash (tokenHash : Str)
  | revokeAllForUser (userId : Str)
  | append (entry : AuditEntry)

namespace Statement

/-- What each returns. -/
def Value : Statement → Type
  | now => TimePoint
  | randomBytes => Str
  | activeAdminExists => Bool
  | findByUsername _ => Option UserCredentials
  | findById _ => Option UserCredentials
  | listUsers => List UserCredentials
  | createUser _ _ _ => UserCredentials
  | createSession _ _ _ _ => AuthSession
  | selectSession _ => Option AuthSession
  | deactivateUser _ => Unit
  | touchLastLogin _ => Unit
  | touchLastUsed _ _ => Unit
  | revokeByTokenHash _ => Unit
  | revokeAllForUser _ => Unit
  | append _ => Unit

end Statement

/-- What ends a program early: an exception of the database or of the random generator, or one of the services' own. -/
inductive SecurityError
  | thrown (statement : Statement)
  | accessDenied (message : Str)
  | adminAlreadyExists

/-- It may throw instead. -/
def Statement.Answer (c : Statement) : Type := Except SecurityError c.Value

/-- The tables, and a count. -/
structure SecurityDb where
  auth : AuthDb := {}
  auditLog : Table AuditRow := []
  /-- The statements so far. -/
  calls : ℕ := 0

/-- How a statement fares. -/
structure Fate where
  now : TimePoint := 0
  bytes : Str := []
  /-- The database cannot be reached, or there are no random bytes. -/
  throws : Bool := false

namespace Statement

/-- The identifier of a row is made of random bytes as well. -/
def env (f : Fate) : AuthEnv := ⟨fun _ => f.now, f.bytes, f.bytes⟩

/-- The statement on the tables. A refused `INSERT` throws. -/
def execute (f : Fate) (c : Statement) (db : SecurityDb) : c.Answer × SecurityDb :=
  match c with
  | now => (.ok f.now, db)
  | randomBytes => (.ok f.bytes, db)
  | activeAdminExists => (.ok (UserCredentialsRepository.activeAdminExists db.auth), db)
  | findByUsername username => (.ok (UserCredentialsRepository.findByUsername username db.auth), db)
  | findById userId => (.ok (UserCredentialsRepository.findById userId db.auth), db)
  | listUsers => (.ok ((orderBy UserRow.createdAt db.auth.users).map UserCredentialsRepository.buildUserRow), db)
  | createUser username passwordHash controlSet =>
    match UserCredentialsRepository.createUser (env f) username passwordHash controlSet db.auth with
    | (some user, auth) => (.ok user, { db with auth })
    | (none, _) => (.error (.thrown (createUser username passwordHash controlSet)), db)
  | deactivateUser username =>
    (.ok (), { db with auth := UserCredentialsRepository.deactivateUser (env f) username db.auth })
  | touchLastLogin userId => (.ok (), { db with auth := UserCredentialsRepository.touchLastLogin f.now userId db.auth })
  | createSession userId tokenHash expiresAt clientId =>
    match AuthSessionRepository.createSession f.bytes f.now userId tokenHash expiresAt clientId db.auth with
    | some (session, auth) => (.ok session, { db with auth })
    | none => (.error (.thrown (createSession userId tokenHash expiresAt clientId)), db)
  | selectSession tokenHash =>
    (.ok ((first (·.tokenHash == tokenHash) db.auth.sessions).map AuthSessionRepository.fromRow), db)
  | touchLastUsed id time =>
    let sessions := update (·.id == id) (fun row => { row with lastUsedAt := some (toTimeT time) }) db.auth.sessions
    (.ok (), { db with auth := { db.auth with sessions } })
  | revokeByTokenHash tokenHash =>
    (.ok (), { db with auth := AuthSessionRepository.revokeByTokenHash f.now tokenHash db.auth })
  | revokeAllForUser userId =>
    (.ok (), { db with auth := AuthSessionRepository.revokeAllForUser f.now userId db.auth })
  | append entry =>
    let row : AuditRow :=
      { id := f.bytes, clientId := entry.clientId, username := entry.username, userId := entry.userId
        action := entry.action, result := entry.result, reason := entry.reason, createdAt := toTimeT f.now }
    match insert AuditRow.clash row db.auditLog with
    | some auditLog => (.ok (), { db with auditLog })
    | none => (.error (.thrown (append entry)), db)

/-- Reading the clock never throws. -/
def mayThrow : Statement → Bool
  | now => false
  | _ => true

/-- The `n`-th statement of a run has the fate `fate n`. -/
def handle (fate : ℕ → Fate) (c : Statement) (db : SecurityDb) : c.Answer × SecurityDb :=
  let f := fate db.calls
  let db := { db with calls := db.calls + 1 }
  if c.mayThrow && f.throws then (.error (.thrown c), db) else execute f c db

end Statement

/-! ## Programs -/

/-- Programs that may be ended by an exception. -/
abbrev Security := ExceptT SecurityError (Prog Statement Statement.Answer)

/-- A statement as a program. -/
def Security.run (c : Statement) : Security c.Value := ExceptT.mk (Prog.perform c)

open Security (run)

/-- The hashes. A password hash is made with a random salt. -/
structure SecurityCrypto extends Crypto where
  hashWithSalt : (salt plainPassword : Str) → Str

namespace Security

/-- `append` of the audit log. -/
def auditAppend (entry : AuditEntry) : Security Unit := run (.append entry)

/-- A hash with a fresh salt. -/
def hashPassword (crypto : SecurityCrypto) (plainPassword : Str) : Security Str := do
  let salt : Str ← run .randomBytes
  return crypto.hashWithSalt salt plainPassword

end Security

open Security (auditAppend hashPassword)

/-- `requireUserManagement` of an `AccessGuard`. -/
def requireUserManagement (guard : ControlSet) : Security Unit :=
  if !canManageUsers guard then
    throw (.accessDenied ("User management access denied for control set: " ++ guard.toStr))
  else pure ()

/-- `findByTokenHash` of the session repository. The clock is read after the row was fetched. -/
def findByTokenHash (tokenHash : Str) : Security (Option AuthSession) := do
  let found : Option AuthSession ← run (.selectSession tokenHash)
  match found with
  | none => return none
  | some session => do
    let now : TimePoint ← run .now
    if session.isActive now then do
      let _ : Unit ← run (.touchLastUsed session.id now)
      return some { session with lastUsedAt := some now }
    else return some session

namespace Broker

variable (crypto : SecurityCrypto) (sessionLifetime : Int64)

/-- `verifyPassword` of the broker: every outcome is logged. -/
def verifyPassword (username plainPassword : Str) : Security (Option UserCredentials) := do
  let found : Option UserCredentials ← run (.findByUsername username)
  match found with
  | none => do
    auditAppend { action := .passwordVerify, result := .failure, username }
    return none
  | some user =>
    if !user.isActive then do
      auditAppend { action := .passwordVerify, result := .failure, username }
      return none
    else if !crypto.verifyPassword plainPassword user.passwordHash then do
      auditAppend { action := .passwordVerify, result := .failure, username }
      return none
    else do
      let _ : Unit ← run (.touchLastLogin user.id)
      auditAppend { action := .passwordVerify, result := .success, username, userId := user.id }
      return some user

/-- What `createSession` does for a user whose password was right. -/
def openSession (username : Str) (user : UserCredentials) (clientId : Option Str) : Security CreateSessionResult := do
  let rawToken : Str ← run .randomBytes
  let tokenHash := crypto.hashToken rawToken
  let now : TimePoint ← run .now
  let expiresAt := now.addSeconds sessionLifetime.toInt
  let session : AuthSession ← run (.createSession user.id tokenHash expiresAt clientId)
  auditAppend { action := .sessionCreate, result := .success, username, userId := user.id, clientId }
  return ⟨true, rawToken, some session, some user⟩

/-- A sign-in. -/
def createSession (username plainPassword : Str) (clientId : Option Str) : Security CreateSessionResult := do
  let verified ← verifyPassword crypto username plainPassword
  match verified with
  | none => do
    auditAppend { action := .sessionCreate, result := .failure, username, clientId }
    return ⟨false, [], none, none⟩
  | some user => openSession crypto sessionLifetime username user clientId

/-- The answer for a token that is not accepted. -/
def refuse : Security IntrospectResult := do
  auditAppend { action := .tokenIntrospect, result := .failure }
  return ⟨false, none, none⟩

/-- The user of the session must still be there. -/
def acceptSession (session : AuthSession) : Security IntrospectResult := do
  let found : Option UserCredentials ← run (.findById session.userId)
  match found with
  | none => refuse
  | some user => do
    auditAppend { action := .tokenIntrospect, result := .success, username := user.username, userId := user.id }
    return ⟨true, some user, some session⟩

/-- The user of a token. -/
def introspectToken (rawToken : Str) : Security IntrospectResult := do
  let found ← findByTokenHash (crypto.hashToken rawToken)
  match found with
  | none => refuse
  | some session => do
    let now : TimePoint ← run .now
    if !session.isActive now then refuse else acceptSession session

/-- A sign-out. -/
def revokeToken (rawToken : Str) : Security Unit := do
  let _ : Unit ← run (.revokeByTokenHash (crypto.hashToken rawToken))
  auditAppend { action := .tokenRevoke, result := .success }

end Broker

namespace UserManagement

variable (crypto : SecurityCrypto)

/-- For an admin only. -/
def createUser (guard : ControlSet) (username plainPassword : Str) (controlSet : ControlSet) :
    Security UserCredentials := do
  requireUserManagement guard
  let passwordHash ← hashPassword crypto plainPassword
  let user : UserCredentials ← run (.createUser username passwordHash controlSet)
  auditAppend { action := .userCreate, result := .success, username, userId := user.id }
  return user

/-- For an admin only. -/
def listUsers (guard : ControlSet) : Security (List UserCredentials) := do
  requireUserManagement guard
  run .listUsers

/-- For an admin only. -/
def deactivateUser (guard : ControlSet) (username : Str) : Security Unit := do
  requireUserManagement guard
  let _ : Unit ← run (.deactivateUser username)
  auditAppend { action := .userDeactivate, result := .success, username }

end UserManagement

/-- `createFirstAdmin`, refused with an entry in the log while there is an active administrator. -/
def createFirstAdmin (crypto : SecurityCrypto) (username plainPassword : Str) : Security UserCredentials := do
  let known : Bool ← run .activeAdminExists
  if known then do
    auditAppend { action := .firstAdminCreate, result := .denied, username }
    throw .adminAlreadyExists
  else do
    let passwordHash ← hashPassword crypto plainPassword
    let user : UserCredentials ← run (.createUser username passwordHash .admin)
    auditAppend { action := .firstAdminCreate, result := .success, username, userId := user.id }
    return user

/-! ## Callers -/

/-- One call of one of the services. -/
inductive SecurityOp
  | verifyPassword (username plainPassword : Str)
  | createSession (username plainPassword : Str) (clientId : Option Str)
  | introspectToken (rawToken : Str)
  | revokeToken (rawToken : Str)
  | revokeAllForUser (userId : Str)
  | createUser (guard : ControlSet) (username plainPassword : Str) (controlSet : ControlSet)
  | listUsers (guard : ControlSet)
  | deactivateUser (guard : ControlSet) (username : Str)
  | createFirstAdmin (username plainPassword : Str)

/-- What a call returns. -/
inductive SecurityResult
  | verified (user : Option UserCredentials)
  | session (result : CreateSessionResult)
  | introspected (result : IntrospectResult)
  | user (user : UserCredentials)
  | users (users : List UserCredentials)
  | done

/-- The program of an operation. -/
def SecurityOp.program (crypto : SecurityCrypto) (sessionLifetime : Int64) : SecurityOp → Security SecurityResult
  | verifyPassword username plainPassword => do
    return .verified (← Broker.verifyPassword crypto username plainPassword)
  | createSession username plainPassword clientId => do
    return .session (← Broker.createSession crypto sessionLifetime username plainPassword clientId)
  | introspectToken rawToken => do return .introspected (← Broker.introspectToken crypto rawToken)
  | revokeToken rawToken => do
    Broker.revokeToken crypto rawToken
    return .done
  | revokeAllForUser userId => do
    let _ : Unit ← run (.revokeAllForUser userId)
    return .done
  | createUser guard username plainPassword controlSet => do
    return .user (← UserManagement.createUser crypto guard username plainPassword controlSet)
  | listUsers guard => do return .users (← UserManagement.listUsers guard)
  | deactivateUser guard username => do
    UserManagement.deactivateUser guard username
    return .done
  | createFirstAdmin username plainPassword => do
    return .user (← Auth.createFirstAdmin crypto username plainPassword)

/-- Concurrent operations. -/
abbrev SecurityPool (ι : Type) :=
  Pool Statement Statement.Answer (fun _ : ι => Except SecurityError SecurityResult) SecurityDb

/-- Any number of callers on one database. -/
def securityPool {ι : Type} (crypto : SecurityCrypto) (sessionLifetime : Int64) (ops : ι → SecurityOp)
    (db : SecurityDb) : SecurityPool ι where
  prog i := (ops i).program crypto sessionLifetime
  state := db

end UrlShortener.Auth

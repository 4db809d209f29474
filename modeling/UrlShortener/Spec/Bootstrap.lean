import UrlShortener.Calls.Program
import UrlShortener.Spec.Auth

/-!
# The first administrator

`FirstAdminBootstrap` of `security/first_admin_bootstrap.cpp`. Callers on separate connections share the database
only, and each of their statements is atomic. The audit log is left out: nothing reads it back.
-/

namespace UrlShortener.Auth

open Calls

/-- The statements of `UserCredentialsRepository` that the bootstrap issues. -/
inductive UserStatement
  | activeAdminExists
  | createUser (env : AuthEnv) (username passwordHash : Str) (controlSet : ControlSet)

namespace UserStatement

/-- What each returns. -/
def Answer : UserStatement → Type
  | activeAdminExists => Bool
  | createUser _ _ _ _ => Option UserCredentials

/-- What each does. -/
def handle (c : UserStatement) (db : AuthDb) : c.Answer × AuthDb :=
  match c with
  | activeAdminExists => (UserCredentialsRepository.activeAdminExists db, db)
  | createUser env username passwordHash controlSet =>
    UserCredentialsRepository.createUser env username passwordHash controlSet db

end UserStatement

/-- What `createFirstAdmin` throws: `AdminAlreadyExistsError`, or the error of the insert. -/
inductive BootstrapError
  | adminAlreadyExists
  | insertFailed

/-- One call, with what it takes from outside. -/
structure FirstAdminCall where
  env : AuthEnv
  username : Str
  plainPassword : Str

/-- The bootstrap, statement by statement. -/
abbrev BootstrapProg := Prog UserStatement UserStatement.Answer

namespace BootstrapProg

/-- The first statement. -/
abbrev activeAdminExists : BootstrapProg Bool := Prog.perform UserStatement.activeAdminExists

/-- The second statement. -/
abbrev createUser (env : AuthEnv) (username passwordHash : Str) (controlSet : ControlSet) :
    BootstrapProg (Option UserCredentials) :=
  Prog.perform (UserStatement.createUser env username passwordHash controlSet)

/-- The second half of `createFirstAdmin`, from the password hash on. -/
def insertAdmin (hashPassword : Str → Str) (c : FirstAdminCall) :
    BootstrapProg (Except BootstrapError UserCredentials) := do
  let passwordHash := hashPassword c.plainPassword
  match ← createUser c.env c.username passwordHash .admin with
  | some user => return .ok user
  | none => return .error .insertFailed

/-- `createFirstAdmin`: ask, then insert. -/
def createFirstAdmin (hashPassword : Str → Str) (c : FirstAdminCall) :
    BootstrapProg (Except BootstrapError UserCredentials) := do
  if ← activeAdminExists then return .error .adminAlreadyExists
  insertAdmin hashPassword c

end BootstrapProg

/-- Any number of callers on one database. -/
def bootstrapPool {ι : Type} (hashPassword : Str → Str) (calls : ι → FirstAdminCall) (db : AuthDb) :
    Pool UserStatement UserStatement.Answer (fun _ : ι => Except BootstrapError UserCredentials) AuthDb where
  prog i := BootstrapProg.createFirstAdmin hashPassword (calls i)
  state := db

end UrlShortener.Auth

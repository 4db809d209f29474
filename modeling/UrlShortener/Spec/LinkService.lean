import UrlShortener.Spec.Storage
import UrlShortener.Calls.Program

/-!
# Redirect resolution through repository and cache

`core/link_service.cpp`. The service is a program that calls its ports (`PortCall`), so that it runs
against any cache, and so that two services can take turns on shared stores, one call at a time.
-/

namespace UrlShortener.Storage

open Calls

/-- What is told to the analytics. -/
structure LinkAccessEvent where
  shortCode : Str
  occurredAt : TimePoint
  statusCode : UInt16 := 0
  cacheHit : Bool := false
  clientId : Option Str := none
  deriving DecidableEq

/-- How a look-up ends. -/
inductive ResolveStatus
  | redirect
  | notFound
  | inactive
  | expired
  deriving DecidableEq, Repr

/-- What `Resolve` returns. -/
structure ResolveResult where
  status : ResolveStatus := .notFound
  targetUrl : Option Str := none
  cacheHit : Bool := false
  deriving DecidableEq

/-! ## Port calls -/

/-- The calls of the service. -/
inductive PortCall
  | cacheGet (key : Str)
  | cacheSet (key : Str) (value : CacheValue) (ttl : Option Int64)
  | cacheDelete (key : Str)
  | getByShortCode (shortCode : Str)
  | updateLink (record : LinkRecord)
  | deleteLink (shortCode : Str)
  | now
  | emit (event : LinkAccessEvent)
  deriving DecidableEq

/-- What each call returns. -/
def PortCall.Answer : PortCall → Type
  | cacheGet _ => Option CacheValue × CacheError
  | cacheSet _ _ _ => Bool
  | cacheDelete _ => Bool
  | getByShortCode _ => Option LinkRecord
  | updateLink _ => Except RepoError Unit
  | deleteLink _ => Except RepoError Unit
  | now => TimePoint
  | emit _ => Bool

/-- The service, call by call. -/
abbrev Service := Prog PortCall PortCall.Answer

namespace Service

/-- `Get` of the cache. -/
abbrev cacheGet (key : Str) : Service (Option CacheValue × CacheError) := Prog.perform (PortCall.cacheGet key)

/-- `Set` of the cache. -/
abbrev cacheSet (key : Str) (value : CacheValue) (ttl : Option Int64) : Service Bool :=
  Prog.perform (PortCall.cacheSet key value ttl)

/-- `Delete` of the cache. -/
abbrev cacheDelete (key : Str) : Service Bool := Prog.perform (PortCall.cacheDelete key)

/-- `GetByShortCode`. -/
abbrev getByShortCode (code : Str) : Service (Option LinkRecord) := Prog.perform (PortCall.getByShortCode code)

/-- `UpdateLink`. -/
abbrev updateLink (record : LinkRecord) : Service (Except RepoError Unit) :=
  Prog.perform (PortCall.updateLink record)

/-- `DeleteLink`. -/
abbrev deleteLink (code : Str) : Service (Except RepoError Unit) :=
  Prog.perform (PortCall.deleteLink code)

/-- `now` of the clock. -/
abbrev now : Service TimePoint := Prog.perform PortCall.now

/-- `Emit` of the analytics. -/
abbrev emit (event : LinkAccessEvent) : Service Bool := Prog.perform (PortCall.emit event)

end Service

/-- The adapters behind the ports, and how many calls they have served. -/
structure Ports (Cache : Type) where
  repo : InMemoryMetadataRepository
  cache : Cache
  events : List LinkAccessEvent := []
  calls : ℕ := 0

/-- A repository write that fails leaves the repository as it is. -/
def committed (repo : InMemoryMetadataRepository) (r : Except RepoError InMemoryMetadataRepository) :
    Except RepoError Unit × InMemoryMetadataRepository :=
  match r with
  | .ok repo => (.ok (), repo)
  | .error e => (.error e, repo)

variable {Cache : Type}

/-- The adapters' part of a call at moment `m`. -/
def serve (store : ICacheStore Cache) (m : Moment) (c : PortCall) (s : Ports Cache) : c.Answer × Ports Cache :=
  match c with
  | .cacheGet key => let (a, cache) := store.get m key s.cache; (a, { s with cache })
  | .cacheSet key value ttl => let (a, cache) := store.set m key value ttl s.cache; (a, { s with cache })
  | .cacheDelete key => let (a, cache) := store.delete m key s.cache; (a, { s with cache })
  | .getByShortCode code => (s.repo.getByShortCode code, s)
  | .updateLink record => let (a, repo) := committed s.repo (s.repo.updateLink record); (a, { s with repo })
  | .deleteLink code => (.ok (), { s with repo := s.repo.deleteLink code })
  | .now => (m.now, s)
  | .emit event => (true, { s with events := s.events ++ [event] })

/-- The `n`-th call of a run happens at moment `weather n`. -/
def handle (store : ICacheStore Cache) (weather : ℕ → Moment) (c : PortCall) (s : Ports Cache) :
    c.Answer × Ports Cache :=
  let (a, s') := serve store (weather s.calls) c s
  (a, { s' with calls := s.calls + 1 })

/-! ## The service -/

namespace LinkService

/-- `expires_at.has_value() && expires_at.value() <= clock_.now()`: the clock is read only if there is an
expiry. -/
def hasPassed : Option TimePoint → Service Bool
  | none => pure false
  | some expiresAt => do
    let now ← Service.now
    pure (expiresAt ≤ now)

/-- The status told to the analytics. -/
def statusCode : ResolveStatus → UInt16
  | .redirect => 302
  | .notFound => 404
  | .inactive => 410
  | .expired => 410

/-- `EmitAnalytics`, and the result it is about. -/
def emitAnalytics (shortCode : Str) (result : ResolveResult) : Service ResolveResult := do
  let now ← Service.now
  let _ ← Service.emit ⟨shortCode, now, statusCode result.status, result.cacheHit, none⟩
  pure result

/-- Whole seconds until the expiry, rounded down; none when the expiry has come meanwhile. -/
def timeToLive : Option TimePoint → Service (Option Int64)
  | none => pure none
  | some expiresAt => do
    let now ← Service.now
    let duration := expiresAt - now
    pure (if duration > 0 then some (duration / nanosecondsPerSecond) else none)

/-- The copy that is cached. -/
def cacheValue (record : LinkRecord) : CacheValue :=
  ⟨record.targetUrl, record.expiresAt, record.isActive, some record.version⟩

/-- What `Resolve` does once the repository has answered. -/
def answerRecord (shortCode : Str) : Option LinkRecord → Service ResolveResult
  | none => emitAnalytics shortCode ⟨.notFound, none, false⟩
  | some record =>
    if !record.isActive then emitAnalytics shortCode ⟨.inactive, none, false⟩
    else do
      let expired ← hasPassed record.expiresAt
      if expired then emitAnalytics shortCode ⟨.expired, none, false⟩
      else do
        let ttl ← timeToLive record.expiresAt
        let _ ← Service.cacheSet shortCode (cacheValue record) ttl
        emitAnalytics shortCode ⟨.redirect, some record.targetUrl, false⟩

/-- A miss: the repository decides. -/
def resolveFromRepository (shortCode : Str) : Service ResolveResult := do
  let record ← Service.getByShortCode shortCode
  answerRecord shortCode record

/-- A cached value that is inactive or expired is deleted, and the repository decides. -/
def answerCached (shortCode : Str) (cached : CacheValue) : Service ResolveResult := do
  let expired ← hasPassed cached.expiresAt
  if cached.isActive && !expired then emitAnalytics shortCode ⟨.redirect, some cached.targetUrl, true⟩
  else do
    let _ ← Service.cacheDelete shortCode
    resolveFromRepository shortCode

/-- A value counts only if the cache reported no error. -/
def answerGet (shortCode : Str) : Option CacheValue × CacheError → Service ResolveResult
  | (some cached, .none) => answerCached shortCode cached
  | _ => resolveFromRepository shortCode

/-- `Resolve`: the cache first. -/
def resolve (shortCode : Str) : Service ResolveResult := do
  let got ← Service.cacheGet shortCode
  answerGet shortCode got

/-- The cache is invalidated whether or not the repository accepted the record. -/
def update (record : LinkRecord) : Service (Except RepoError Unit) := do
  let updated ← Service.updateLink record
  let _ ← Service.cacheDelete record.shortCode
  pure updated

/-- `Delete`: the cache is invalidated in any case. -/
def delete (shortCode : Str) : Service (Except RepoError Unit) := do
  let deleted ← Service.deleteLink shortCode
  let _ ← Service.cacheDelete shortCode
  pure deleted

end LinkService

/-! ## Runs -/

/-- One operation: a call of the service, or a record put into the repository by another component. -/
inductive ServiceOp
  | resolve (shortCode : Str)
  | update (record : LinkRecord)
  | delete (shortCode : Str)
  | createLink (request : CreateLinkRequest) (id : Str) (now : TimePoint)

/-- What an operation leaves behind. -/
def ServiceOp.step (store : ICacheStore Cache) (weather : ℕ → Moment) (op : ServiceOp) (s : Ports Cache) :
    Ports Cache :=
  match op with
  | .resolve code => ((LinkService.resolve code).run (handle store weather) s).2
  | .update record => ((LinkService.update record).run (handle store weather) s).2
  | .delete code => ((LinkService.delete code).run (handle store weather) s).2
  | .createLink request id now => { s with repo := (committed s.repo (s.repo.createLink request id now)).2 }

/-- The adapters after a run. -/
def portsAfter (store : ICacheStore Cache) (weather : ℕ → Moment) (s : Ports Cache) (ops : List ServiceOp) :
    Ports Cache :=
  Runs.after (ServiceOp.step store weather) s ops

end UrlShortener.Storage

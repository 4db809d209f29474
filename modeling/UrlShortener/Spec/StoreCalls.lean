import UrlShortener.Spec.Commands
import UrlShortener.Calls.Program

/-!
# `CreateLink` as a program of store calls

`chooseSlug` and `CreateLink` of `app/link_command_service.cpp` again, now with every call to the link
store as a step of its own, so that several commands can take turns on one store. A store call locks the
repository or the cache and is atomic.
-/

namespace UrlShortener

open Calls

/-- The calls of `CreateLink` to its store. -/
inductive StoreCall
  | slugExists (slug : Str)
  | create (link : Link)
  | invalidateCache (slug : Str)

/-- What each call returns. -/
def StoreCall.Answer : StoreCall → Type
  | slugExists _ => Bool
  | create _ => Except AppError Unit
  | invalidateCache _ => Unit

/-- `LegacyLinkStore`'s part of a call. -/
def StoreCall.handle (c : StoreCall) (st : LinkStore) : c.Answer × LinkStore :=
  match c with
  | .slugExists slug => (LegacyLinkStore.slugExists slug st, st)
  | .create link =>
    match LegacyLinkStore.create link st with
    | .ok st => (.ok (), st)
    | .error e => (.error e, st)
  | .invalidateCache slug => ((), LegacyLinkStore.invalidateCache slug st)

/-- A service, call by call. -/
abbrev StoreProg := Prog StoreCall StoreCall.Answer

namespace StoreProg

/-- `slugExists` of the store. -/
abbrev slugExists (slug : Str) : StoreProg Bool := Prog.perform (StoreCall.slugExists slug)

/-- `create` of the store. -/
abbrev create (link : Link) : StoreProg (Except AppError Unit) := Prog.perform (StoreCall.create link)

/-- `invalidateCache` of the store. -/
abbrev invalidateCache (slug : Str) : StoreProg Unit := Prog.perform (StoreCall.invalidateCache slug)

/-- The loop over generated slugs. -/
def tryGenerated : List Str → StoreProg (Result Str)
  | [] => return .error ⟨.internal, "unable to generate a unique slug"⟩
  | slug :: slugs => do
    let taken ← slugExists slug
    if !taken && !isReservedSlug slug then return .ok slug
    else tryGenerated slugs

/-- As `UrlShortener.chooseSlug`, call by call. -/
def chooseSlug (config : ServerConfig) (env : Env) (command : CreateLinkCommand) : StoreProg (Result Str) :=
  match command.slug with
  | some slug =>
    if !isValidSlug slug then return .error ⟨.invalidSlug, "slug format is invalid"⟩
    else if isReservedSlug slug then return .error ⟨.reservedSlug, "slug is reserved"⟩
    else do
      let taken ← slugExists slug
      if taken then return .error ⟨.slugConflict, "slug already in use"⟩
      else return .ok slug
  | none =>
    tryGenerated ((List.range 10).map fun attempt =>
      generateSlug config.shortenerGeneratedSlugLength.toNat (env.draws attempt))

/-- The write, and the rest of the command. -/
def storeLink (config : ServerConfig) (env : Env) (link : Link) : StoreProg (Result LinkView) := do
  match ← create link with
  | .error e => return .error (if e.code = .none then ⟨.slugConflict, "slug already in use"⟩ else e)
  | .ok () =>
    invalidateCache link.slug
    return .ok (toView config link (env.clock 2))

/-- As `UrlShortener.createLink`, call by call. -/
def createLink (config : ServerConfig) (env : Env) (command : CreateLinkCommand) :
    StoreProg (Result LinkView) :=
  match normalizeTargetUrl command.targetUrl config with
  | none => return .error ⟨.invalidUrl, "url must be an absolute http/https URL"⟩
  | some url => do
    match ← chooseSlug config env command with
    | .error e => return .error e
    | .ok slug =>
      match newLink config env command url slug with
      | .error e => return .error e
      | .ok link => storeLink config env link

end StoreProg

end UrlShortener

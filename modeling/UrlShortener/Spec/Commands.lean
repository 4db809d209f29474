import UrlShortener.Spec.Repository
import UrlShortener.Spec.Fields

/-!
# Link commands

`LinkCommandService` of `app/link_command_service.cpp` over `LegacyLinkStore`. What a call reads from
outside (clock, random draws, ...) is an `Env`; a command maps the store to its result and the new
store.

`createLink` is cut in two: `buildLink` makes every check that does not write and assembles the record.
The four commands that load, change and write back a record share `modifyLink`.
-/

namespace UrlShortener

/-- `analytics::ClickEvent`. -/
structure ClickEvent where
  eventId : Str
  occurredAt : TimePoint
  slug : Str
  linkId : Str
  domain : Str
  statusCode : ℕ
  referrer : Str
  userAgent : Str
  clientIdHash : Str
  deriving DecidableEq

/-- The texts of a `stats` query. -/
structure GetLinkStatsQuery where
  slug : Str
  from_ : Str
  to_ : Str
  bucket : Str

/-- The clicks with a status. -/
structure StatusCodeCountView where
  statusCode : ℕ
  count : UInt64

/-- The clicks on a domain. -/
structure DomainCountView where
  domain : Str
  count : UInt64

/-- The clicks of a bucket. -/
structure TimeBucketView where
  bucketStartEpoch : Int
  count : UInt64

/-- The answer to a `stats` query. -/
structure LinkStatsView where
  slug : Str
  totalAttempts : UInt64
  successfulRedirects : UInt64
  statusCodeCounts : List StatusCodeCountView
  domainCounts : List DomainCountView
  timeBuckets : List TimeBucketView
  from_ : Str
  to_ : Str
  bucket : Str

/-- **What one operation reads from outside**: successive readings of the clock, the random draws of
each call of the generator, a generated request identifier, the text of the metrics registry, the
keyed hash of the analytics and the statistics reader (an `ILinkStatsReader`). -/
structure Env where
  clock : ℕ → TimePoint
  draws : ℕ → Draws
  requestId : Str := []
  metrics : Str := []
  hmac : (salt client : Str) → Str := fun _ _ => []
  readStats : List ClickEvent → GetLinkStatsQuery → Result LinkStatsView :=
    fun _ _ => .error ⟨.notFound, "Link not found"⟩

/-- An environment where the clock stands at the epoch and every draw is the first one. -/
def Env.still : Env where
  clock _ := 0
  draws _ _ := ⟨0, by decide⟩

/-- `shortUrlFor`: the base domain without trailing slashes. -/
def shortUrlFor (config : ServerConfig) (slug : Str) : Str :=
  config.shortenerBaseDomain.rdropWhile (· == '/') ++ ['/'] ++ slug

/-- The view of a link at `now`. -/
def toView (config : ServerConfig) (link : Link) (now : TimePoint) : LinkView where
  id := link.id
  slug := link.slug
  targetUrl := link.targetUrl
  shortUrl := shortUrlFor config link.slug
  createdAt := link.createdAt
  updatedAt := link.updatedAt
  expiresAt := link.expiresAt
  deletedAt := link.deletedAt
  enabled := link.enabled
  tags := link.tags
  metadata := link.metadata
  campaign := link.campaign
  stats := link.stats
  redirectType := link.redirectType
  status := resolveLinkStatus link now

/-- The error of an unknown link. -/
def notFoundError : AppError := ⟨.notFound, "Link not found"⟩

/-! ## Creating -/

/-- The ten attempts of `chooseSlug`: the first generated slug that is neither taken nor reserved. -/
def generateFreeSlug (config : ServerConfig) (env : Env) (st : LinkStore) : Option Str :=
  ((List.range 10).map fun attempt =>
    generateSlug config.shortenerGeneratedSlugLength.toNat (env.draws attempt)).find? fun slug =>
      !LegacyLinkStore.slugExists slug st && !isReservedSlug slug

/-- The slug asked for, or a generated one. -/
def chooseSlug (config : ServerConfig) (env : Env) (command : CreateLinkCommand) (st : LinkStore) : Result Str :=
  match command.slug with
  | some slug =>
    if !isValidSlug slug then .error ⟨.invalidSlug, "slug format is invalid"⟩
    else if isReservedSlug slug then .error ⟨.reservedSlug, "slug is reserved"⟩
    else if LegacyLinkStore.slugExists slug st then .error ⟨.slugConflict, "slug already in use"⟩
    else .ok slug
  | none =>
    match generateFreeSlug config env st with
    | some slug => .ok slug
    | none => .error ⟨.internal, "unable to generate a unique slug"⟩

/-- The redirect type of a new link: the command's, else the configured default, else temporary. -/
def createRedirectType (config : ServerConfig) (command : CreateLinkCommand) : RedirectType :=
  match command.redirectType with
  | some t => t
  | none => (parseRedirectType config.shortenerDefaultRedirectType).getD .temporary

/-- The expiry of a new link: the command's if it parses, else the configured default. -/
def createExpiry (config : ServerConfig) (now : TimePoint) (command : CreateLinkCommand) :
    Result (Option Str) :=
  match command.expiresAt with
  | some value =>
    if (parseRfc3339Zulu value).isNone then .error ⟨.invalidField, "expires_at must be RFC3339 UTC"⟩
    else .ok (some value)
  | none =>
    match config.shortenerDefaultExpirySeconds with
    | some s => .ok (some (formatTimestamp (TimePoint.addSeconds now s.toNat)))
    | none => .ok none

/-- The checks between `chooseSlug` and the write, and the record they lead to. -/
def newLink (config : ServerConfig) (env : Env) (command : CreateLinkCommand) (url slug : Str) : Result Link :=
  match createExpiry config (env.clock 0) command with
  | .error e => .error e
  | .ok expiresAt =>
    match validateTags command.tags with
    | none => .error ⟨.invalidField, "tags violate constraints"⟩
    | some tags =>
      if !validateMetadata command.metadata then
        .error ⟨.invalidField, "metadata must be flat object with limits"⟩
      else if !validateCampaign command.campaign then
        .error ⟨.invalidField, "campaign must be valid object"⟩
      else
        .ok { id := generateId (env.draws 10)
              slug := slug
              targetUrl := url
              createdAt := currentTimestamp (env.clock 1)
              updatedAt := currentTimestamp (env.clock 1)
              expiresAt := expiresAt
              enabled := command.enabled.getD true
              tags := tags
              metadata := command.metadata
              campaign := command.campaign
              redirectType := createRedirectType config command }

/-- Everything `CreateLink` does before it writes. -/
def buildLink (config : ServerConfig) (env : Env) (command : CreateLinkCommand) (st : LinkStore) :
    Result Link :=
  match normalizeTargetUrl command.targetUrl config with
  | none => .error ⟨.invalidUrl, "url must be an absolute http/https URL"⟩
  | some url =>
    match chooseSlug config env command st with
    | .error e => .error e
    | .ok slug => newLink config env command url slug

/-- `CreateLink`: the record, stored under a free slug. -/
def createLink (config : ServerConfig) (env : Env) (command : CreateLinkCommand) (st : LinkStore) :
    Result LinkView × LinkStore :=
  match buildLink config env command st with
  | .error e => (.error e, st)
  | .ok link =>
    match LegacyLinkStore.create link st with
    | .error e =>
      (.error (if e.code = .none then ⟨.slugConflict, "slug already in use"⟩ else e), st)
    | .ok st => (.ok (toView config link (env.clock 2)), LegacyLinkStore.invalidateCache link.slug st)

/-! ## Reading -/

/-- `GetLink`, by slug or by identifier. -/
def getLink (config : ServerConfig) (env : Env) (query : GetLinkQuery) (st : LinkStore) :
    Result LinkView × LinkStore :=
  let (link, st) :=
    match query.by_ with
    | .id => (LegacyLinkStore.findById query.value st, st)
    | .slug => LegacyLinkStore.findBySlug query.value st
  match link with
  | none => (.error notFoundError, st)
  | some link => (.ok (toView config link (env.clock 0)), st)

/-- `PreviewLink` reads as `GetLink` does. -/
def previewLink (config : ServerConfig) (env : Env) (query : GetLinkQuery) (st : LinkStore) :
    Result LinkView × LinkStore := getLink config env query st

/-! ## Changing -/

/-- Load a link, change it, write it back and show it. -/
def modifyLink (config : ServerConfig) (env : Env) (slug : Str) (change : (now : Str) → Link → Result Link)
    (st : LinkStore) : Result LinkView × LinkStore :=
  match LegacyLinkStore.findBySlug slug st with
  | (none, st) => (.error notFoundError, st)
  | (some link, st) =>
    let now := currentTimestamp (env.clock 0)
    match change now link with
    | .error e => (.error e, st)
    | .ok link =>
      let link := { link with updatedAt := now }
      match LegacyLinkStore.update link st with
      | .error e =>
        (.error (if e.code = .none then ⟨.storageFailure, "failed to persist link update"⟩ else e), st)
      | .ok st => (.ok (toView config link (env.clock 1)), st)

/-- The new expiry, if there is one. -/
def applyExpiry (command : UpdateLinkCommand) (link : Link) : Result Link :=
  match command.expiresAt with
  | none => .ok link
  | some none => .ok { link with expiresAt := none }
  | some (some value) =>
    if (parseRfc3339Zulu value).isSome then .ok { link with expiresAt := some value }
    else .error ⟨.invalidField, "expires_at must be RFC3339 UTC or null"⟩

/-- The new tags, if there are any. -/
def applyTags (command : UpdateLinkCommand) (link : Link) : Result Link :=
  match command.tags with
  | none => .ok link
  | some tags =>
    match validateTags tags with
    | none => .error ⟨.invalidField, "tags violate constraints"⟩
    | some normalized => .ok { link with tags := normalized }

/-- The new metadata, if there is any. -/
def applyMetadata (command : UpdateLinkCommand) (link : Link) : Result Link :=
  match command.metadata with
  | none => .ok link
  | some metadata =>
    if validateMetadata metadata then .ok { link with metadata := metadata }
    else .error ⟨.invalidField, "metadata must be flat object with string values"⟩

/-- The new campaign, if there is one. -/
def applyCampaign (command : UpdateLinkCommand) (link : Link) : Result Link :=
  match command.campaign with
  | none => .ok link
  | some none => .ok { link with campaign := none }
  | some (some campaign) =>
    if validateCampaign (some campaign) then .ok { link with campaign := some campaign }
    else .error ⟨.invalidField, "campaign fields exceed limits"⟩

/-- The fields of `UpdateLink`, in the order the source applies them. -/
def applyUpdate (command : UpdateLinkCommand) (link : Link) : Result Link := do
  let link := { link with enabled := command.enabled.getD link.enabled }
  let link ← applyExpiry command link
  let link ← applyTags command link
  let link ← applyMetadata command link
  applyCampaign command link

/-- `UpdateLink`. -/
def updateLink (config : ServerConfig) (env : Env) (command : UpdateLinkCommand) (st : LinkStore) :
    Result LinkView × LinkStore :=
  modifyLink config env command.slug (fun _ link => applyUpdate command link) st

/-- `DeleteLink`: the link is marked, not removed. -/
def deleteLink (config : ServerConfig) (env : Env) (command : DeleteLinkCommand) (st : LinkStore) :
    Result LinkView × LinkStore :=
  modifyLink config env command.slug (fun now link => .ok { link with deletedAt := some now }) st

/-- `SetLinkEnabled`. -/
def setLinkEnabled (config : ServerConfig) (env : Env) (command : SetLinkEnabledCommand) (st : LinkStore) :
    Result LinkView × LinkStore :=
  modifyLink config env command.slug (fun _ link => .ok { link with enabled := command.enabled }) st

/-- `RestoreLink`. -/
def restoreLink (config : ServerConfig) (env : Env) (command : RestoreLinkCommand) (st : LinkStore) :
    Result LinkView × LinkStore :=
  modifyLink config env command.slug (fun _ link => .ok { link with deletedAt := none }) st

end UrlShortener

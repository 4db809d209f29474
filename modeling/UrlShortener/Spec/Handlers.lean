import UrlShortener.Spec.Http

/-!
# Request handlers

The handlers of `http/handlers/` and the application router of `http/router_builder.cpp`.

* `serveLink` is the common tail of the two redirect handlers.
* `parseCreateBody` and `parsePatchBody` are the parts of `createLinkFromRequest` and
  `handlePatchLink` that read the body; their errors are answered with status 400.
* `handleShortenerRequest` dispatches a request and runs the handler it selects.
-/

namespace UrlShortener

open Text

/-! ## Redirects -/

/-- A click event, if the analytics are on. -/
def emitClickEvent (call : Call) (slug : Str) (link : Option Link) (statusCode : ℕ) (now : TimePoint)
    (w : World) : World :=
  if !call.config.analyticsEnabled then w
  else
    let host := call.req.host.getD []
    let host := match cut [':'] host with
      | none => host
      | some (h, _) => h
    let client := match call.req.forwardedFor with
      | some (c :: s) => clampString (c :: s) 128
      | _ => "unknown"
    { w with clicks := w.clicks ++
      [{ eventId := generateId (call.env.draws 11)
         occurredAt := now
         slug := slug
         linkId := (link.map Link.id).getD []
         domain := clampString host 255
         statusCode := statusCode
         referrer := (call.req.referer.map fun s => clampString s 512).getD []
         userAgent := (call.req.userAgent.map fun s => clampString s 512).getD []
         clientIdHash := call.env.hmac call.config.analyticsClientHashSalt client }] }

/-- The redirect to the target. -/
def redirectResponse (call : Call) (link : Link) (redirectStatus : ℕ) : Response where
  status := redirectStatus
  headers :=
    [("Server", "simple-http"), ("Location", link.targetUrl),
     ("X-Request-Id", requestIdFromRequest call)]

/-- The link with its counters one up. -/
def countRedirect (link : Link) (now : TimePoint) : Link :=
  { link with
    stats :=
      { totalRedirects := link.stats.totalRedirects + 1
        redirects24h := link.stats.redirects24h + 1
        redirects7d := link.stats.redirects7d + 1
        lastAccessedAt := some (currentTimestamp now) } }

/-- The result of the write is ignored. -/
def incrementRedirectStats (link : Link) (now : TimePoint) (st : LinkStore) : LinkStore :=
  match updateLinkAndInvalidateCache (countRedirect link now) st with
  | .ok st => st
  | .error _ => st

/-- The answer for a link that does not redirect. The status is resolved a second time. -/
def linkStateError (call : Call) (slug : Str) (link : Option Link) (w : World) : Response × World :=
  let answer (status : ℕ) (code message : String) : Response × World :=
    (makeApiErrorResponse call status code.toList message.toList,
      emitClickEvent call slug link status (call.env.clock 2) w)
  match link.map fun l => resolveLinkStatus l (call.env.clock 1) with
  | some .deleted => answer 404 "link_deleted" "Link not found"
  | some .disabled => answer 410 "link_disabled" "Link is disabled"
  | some .expired => answer 410 "link_expired" "Link has expired"
  | _ => answer 404 "not_found" "Link not found"

/-- A hook that lets every request through. -/
def passwordGuardCheck (_ : Link) (_ : Request) : Bool := true

/-- A hook that lets every request through. -/
def rateLimitGuardAllow (_ : Link) (_ : Request) : Bool := true

/-- Look the slug up and redirect if the link is active. -/
def serveLink (call : Call) (slug : Str) (w : World) : Response × World :=
  match getLinkForRead slug w.links with
  | (none, st) => linkStateError call slug none { w with links := st }
  | (some link, st) =>
    if resolveLinkStatus link (call.env.clock 0) ≠ .active then
      linkStateError call slug (some link) { w with links := st }
    else if !passwordGuardCheck link call.req || !rateLimitGuardAllow link call.req then
      (makeApiErrorResponse call 429 "feature_not_enabled" "Request blocked by policy hook",
        { w with links := st })
    else
      (redirectResponse call link (redirectStatusFor link),
        emitClickEvent call slug (some link) (redirectStatusFor link) (call.env.clock 2)
          { w with links := incrementRedirectStats link (call.env.clock 1) st })

/-- `/r/{slug}`. -/
def handlePrefixedRedirect (call : Call) (context : RouteContext) (w : World) : Response × World :=
  let slug := pathValue context "slug"
  if !isValidSlug slug then
    (makeApiErrorResponse call 404 "not_found" "Short code not found",
      emitClickEvent call slug none 404 (call.env.clock 0) w)
  else serveLink call slug w

/-- `/{slug}`. -/
def handleRootRedirect (call : Call) (context : RouteContext) (w : World) : Response × World :=
  if call.req.method ≠ .get then handleApplicationRequest call w
  else
    let slug := pathValue context "slug"
    if context.queryString ≠ [] then handleApplicationRequest call w
    else if !isValidSlug slug then handleApplicationRequest call w
    else serveLink call slug w

/-! ## Link management -/

/-- The value of the first parameter text `key=`, up to the next ampersand. -/
def getQueryParam (queryString key : Str) : Str :=
  match cut (key ++ ['=']) queryString with
  | none => []
  | some (_, rest) => rest.takeWhile (· != '&')

/-- The `campaign` of a body; `null` counts as an empty one. -/
def extractCampaign (body : Str) : Option Campaign :=
  match extractJsonValueToken body "campaign" with
  | none => none
  | some raw =>
    if raw = "null" then some {}
    else if raw.length < 2 ∨ raw.head? ≠ some '{' ∨ raw.getLast? ≠ some '}' then none
    else
      some { name := extractJsonStringField raw "name"
             source := extractJsonStringField raw "source"
             medium := extractJsonStringField raw "medium"
             term := extractJsonStringField raw "term"
             content := extractJsonStringField raw "content"
             id := extractJsonStringField raw "id" }

/-- The status of an error. -/
def statusForAppError (code : AppErrorCode) : ℕ :=
  match code with
  | .reservedSlug => 409
  | .slugConflict => 409
  | .notFound => 404
  | .storageFailure => 500
  | .internal => 500
  | .invalidUrl => 400
  | .invalidSlug => 400
  | .invalidField => 400
  | .none => 400

/-- The code of an error in the body. -/
def codeForAppError (error : AppError) : Str :=
  if error.detail = "invalid_timestamp" ∨ error.detail = "invalid_bucket" then error.detail
  else
    match error.code with
    | .invalidUrl => "invalid_url"
    | .invalidSlug => "invalid_slug"
    | .reservedSlug => "reserved_slug"
    | .slugConflict => "slug_conflict"
    | .notFound => "not_found"
    | .storageFailure => "repository"
    | .invalidField => "invalid_request"
    | .internal => "internal_error"
    | .none => "internal_error"

/-- The response to an error. -/
def appErrorResponse (call : Call) (error : AppError) : Response :=
  makeApiErrorResponse call (statusForAppError error.code) (codeForAppError error) error.detail

/-- The response to an unknown link. -/
def linkNotFound (call : Call) : Response :=
  makeApiErrorResponse call 404 "not_found" "Link not found"

/-- Answer with the view a command returned, or with its error. -/
def answerView (call : Call) (status : ℕ) (show_ : LinkView → Str) (w : World)
    (r : Result LinkView × LinkStore) : Response × World :=
  (match r.1 with
    | .error e => appErrorResponse call e
    | .ok view => makeResponse call status (show_ view) "application/json",
   { w with links := r.2 })

/-- Whether `code` may stand for `slug`. -/
inductive CreateSlugFieldMode
  | slugOnly
  | slugOrCode
  deriving DecidableEq

/-- The code and the message of a body that is refused. -/
structure BodyError where
  code : Str
  message : Str
  deriving DecidableEq

/-- A refusal with literals. -/
def bodyError (code message : String) : BodyError := ⟨code.toList, message.toList⟩

/-! ### The fields of a `POST` body, in the order they are read -/

/-- `url`, or else `target_url`. -/
def readUrl (body : Str) : Except BodyError Str :=
  match (extractJsonStringField body "url").or (extractJsonStringField body "target_url") with
  | none => .error (bodyError "invalid_url" "url is required")
  | some url => .ok url

/-- `slug`, or else `code` where that is allowed. -/
def readSlug (slugMode : CreateSlugFieldMode) (body : Str) : Option Str :=
  match slugMode with
  | .slugOnly => extractJsonStringField body "slug"
  | .slugOrCode => (extractJsonStringField body "slug").or (extractJsonStringField body "code")

/-- `redirect_type`. -/
def readRedirectType (body : Str) : Except BodyError (Option RedirectType) :=
  match extractJsonStringField body "redirect_type" with
  | none => .ok none
  | some raw =>
    match parseRedirectType raw with
    | none => .error (bodyError "invalid_redirect_type" "redirect_type must be temporary or permanent")
    | some parsed => .ok (some parsed)

/-- `expires_at`. -/
def readExpiry (body : Str) : Except BodyError (Option Str) :=
  match extractJsonStringField body "expires_at" with
  | none => .ok none
  | some raw =>
    if (parseRfc3339Zulu raw).isNone then
      .error (bodyError "invalid_expires_at" "expires_at must be RFC3339 UTC")
    else .ok (some raw)

/-- `POST` and `PATCH` read `enabled` in the same way. -/
def readEnabled (body : Str) : Except BodyError (Option Bool) :=
  if hasJsonField body "enabled" then
    match extractJsonBoolField body "enabled" with
    | none => .error (bodyError "invalid_enabled" "enabled must be boolean")
    | some enabled => .ok (some enabled)
  else .ok none

/-- `tags`. -/
def readTags (body : Str) : Except BodyError (List Str) :=
  if hasJsonField body "tags" then
    match extractJsonStringArrayField body "tags" with
    | none => .error (bodyError "invalid_tags" "tags must be string array")
    | some tags => .ok tags
  else .ok []

/-- `metadata`. -/
def readMetadata (body : Str) : Except BodyError (UnorderedMap Str Str) :=
  if hasJsonField body "metadata" then
    match extractJsonFlatObjectStringField body "metadata" with
    | none => .error (bodyError "invalid_metadata" "metadata must be flat object with limits")
    | some metadata => .ok metadata
  else .ok ∅

/-- `campaign`. -/
def readCampaign (body : Str) : Except BodyError (Option Campaign) :=
  if hasJsonField body "campaign".toList then
    if extractJsonValueToken body "campaign".toList = some "null".toList then .ok none
    else
      match extractCampaign body with
      | none => .error (bodyError "invalid_campaign" "campaign must be valid object")
      | some campaign => .ok (some campaign)
  else .ok none

/-- A `deleted_at` is refused. -/
def refuseDeletedAt (body : Str) : Except BodyError Unit :=
  if hasJsonField body "deleted_at" then
    .error (bodyError "invalid_request" "deleted_at is server-managed")
  else .ok ()

/-- **The command that `POST` reads from a body.** -/
def parseCreateBody (slugMode : CreateSlugFieldMode) (body : Str) : Except BodyError CreateLinkCommand := do
  let targetUrl ← readUrl body
  let redirectType ← readRedirectType body
  let expiresAt ← readExpiry body
  let enabled ← readEnabled body
  let tags ← readTags body
  let metadata ← readMetadata body
  let campaign ← readCampaign body
  refuseDeletedAt body
  return { targetUrl := targetUrl, slug := readSlug slugMode body, redirectType := redirectType,
           expiresAt := expiresAt, enabled := enabled, tags := tags, metadata := metadata,
           campaign := campaign }

/-- A `POST`: body, command, view. -/
def createLinkFromRequest (call : Call) (slugMode : CreateSlugFieldMode) (w : World) : Response × World :=
  match parseCreateBody slugMode call.req.body with
  | .error e => (makeApiErrorResponse call 400 e.code e.message, w)
  | .ok command => answerView call 201 serializeLinkViewJson w (createLink call.config call.env command w.links)

/-- `POST /api/v1/links`. -/
def handleCreateLink (call : Call) (w : World) : Response × World := createLinkFromRequest call .slugOnly w

/-- `POST /api/v1/short-urls`. -/
def handleCompatCreateLink (call : Call) (w : World) : Response × World :=
  createLinkFromRequest call .slugOrCode w

/-- `GET` by identifier. -/
def handleGetLinkById (call : Call) (context : RouteContext) (w : World) : Response × World :=
  answerView call 200 serializeLinkViewJson w
    (getLink call.config call.env ⟨.id, pathValue context "id"⟩ w.links)

/-- `GET` by slug. -/
def handleGetLinkBySlug (call : Call) (context : RouteContext) (w : World) : Response × World :=
  answerView call 200 serializeLinkViewJson w
    (getLink call.config call.env ⟨.slug, pathValue context "slug"⟩ w.links)

/-- The same, for older clients. -/
def handleCompatGetLinkBySlug (call : Call) (context : RouteContext) (w : World) : Response × World :=
  handleGetLinkBySlug call context w

/-! ### The fields of a `PATCH` body, in the order they are read -/

/-- `expires_at`; `null` takes the expiry away. -/
def readPatchExpiry (body : Str) : Except BodyError (Option (Option Str)) :=
  if hasJsonField body "expires_at" then
    match extractJsonValueToken body "expires_at" with
    | none => .error (bodyError "invalid_expires_at" "expires_at must be RFC3339 UTC or null")
    | some token =>
      if token = "null" then .ok (some none)
      else
        match extractJsonStringField body "expires_at" with
        | none => .error (bodyError "invalid_expires_at" "expires_at must be RFC3339 UTC or null")
        | some parsed =>
          if (parseRfc3339Zulu parsed).isSome then .ok (some (some parsed))
          else .error (bodyError "invalid_expires_at" "expires_at must be RFC3339 UTC or null")
  else .ok none

/-- `tags`. -/
def readPatchTags (body : Str) : Except BodyError (Option (List Str)) :=
  if hasJsonField body "tags" then
    match extractJsonStringArrayField body "tags" with
    | none => .error (bodyError "invalid_tags" "tags must be string array")
    | some tags =>
      match validateTags tags with
      | none => .error (bodyError "invalid_tags" "tags violate constraints")
      | some normalized => .ok (some normalized)
  else .ok none

/-- `metadata`. -/
def readPatchMetadata (body : Str) : Except BodyError (Option (UnorderedMap Str Str)) :=
  if hasJsonField body "metadata" then
    match extractJsonFlatObjectStringField body "metadata" with
    | none => .error (bodyError "invalid_metadata" "metadata must be flat object with string values")
    | some metadata =>
      if validateMetadata metadata then .ok (some metadata)
      else .error (bodyError "invalid_metadata" "metadata must be flat object with string values")
  else .ok none

/-- `campaign`; `null` takes it away. -/
def readPatchCampaign (body : Str) : Except BodyError (Option (Option Campaign)) :=
  if hasJsonField body "campaign".toList then
    if extractJsonValueToken body "campaign".toList = some "null".toList then .ok (some none)
    else
      match extractCampaign body with
      | none => .error (bodyError "invalid_campaign" "campaign must be object or null")
      | some campaign =>
        if validateCampaign (some campaign) then .ok (some (some campaign))
        else .error (bodyError "invalid_campaign" "campaign fields exceed limits")
  else .ok none

/-- **The command that `PATCH` reads from a body.** -/
def parsePatchBody (slug body : Str) : Except BodyError UpdateLinkCommand := do
  let enabled ← readEnabled body
  let expiresAt ← readPatchExpiry body
  let tags ← readPatchTags body
  let metadata ← readPatchMetadata body
  let campaign ← readPatchCampaign body
  return { slug := slug, enabled := enabled, expiresAt := expiresAt, tags := tags, metadata := metadata,
           campaign := campaign }

/-- Existence is checked before the body is read. -/
def handlePatchLink (call : Call) (context : RouteContext) (w : World) : Response × World :=
  let slug := pathValue context "slug"
  match getLink call.config call.env ⟨.slug, slug⟩ w.links with
  | (.error e, st) => (appErrorResponse call e, { w with links := st })
  | (.ok _, st) =>
    match parsePatchBody slug call.req.body with
    | .error e => (makeApiErrorResponse call 400 e.code e.message, { w with links := st })
    | .ok command =>
      answerView call 200 serializeLinkViewJson w (updateLink call.config call.env command st)

/-- `DELETE`. -/
def handleDeleteLink (call : Call) (context : RouteContext) (w : World) : Response × World :=
  answerView call 200 serializeLinkViewJson w
    (deleteLink call.config call.env ⟨pathValue context "slug"⟩ w.links)

/-- The preview of a link. -/
def handlePreviewLink (call : Call) (context : RouteContext) (w : World) : Response × World :=
  answerView call 200 serializeLinkPreviewJson w
    (previewLink call.config call.env ⟨.slug, pathValue context "slug"⟩ w.links)

/-- `qr` and `routing`, which are not there yet. -/
def handlePlaceholderFeature (call : Call) (context : RouteContext) (w : World) : Response × World :=
  match getLinkForRead (pathValue context "slug") w.links with
  | (none, st) => (linkNotFound call, { w with links := st })
  | (some _, st) =>
    (makeApiErrorResponse call 501 "feature_not_enabled"
      "Feature placeholder only; implementation deferred", { w with links := st })

/-- The lifecycle routes: `restore`, or `enable` and `disable` as one command. -/
def handleLifecycleAction (call : Call) (context : RouteContext) (action : Str) (w : World) :
    Response × World :=
  let slug := pathValue context "slug"
  answerView call 200 serializeLinkViewJson w
    (if action = "restore" then restoreLink call.config call.env ⟨slug⟩ w.links
      else setLinkEnabled call.config call.env ⟨slug, action == "enable"⟩ w.links)

/-- `POST …/enable`. -/
def handleEnableLink (call : Call) (context : RouteContext) (w : World) : Response × World :=
  handleLifecycleAction call context "enable" w

/-- `POST …/disable`. -/
def handleDisableLink (call : Call) (context : RouteContext) (w : World) : Response × World :=
  handleLifecycleAction call context "disable" w

/-- `POST …/restore`. -/
def handleRestoreLink (call : Call) (context : RouteContext) (w : World) : Response × World :=
  handleLifecycleAction call context "restore" w

/-- The statistics as JSON. -/
def serializeLinkStatsJson (stats : LinkStatsView) : Str :=
  "\x7b\"slug\":" ++ jsonString stats.slug ++
  ",\"total_attempts\":" ++ decimal stats.totalAttempts.toNat ++
  ",\"successful_redirects\":" ++ decimal stats.successfulRedirects.toNat ++
  ",\"attempts_by_status_code\":\x7b" ++
  commaSep (stats.statusCodeCounts.map fun i =>
    ['"'] ++ decimal i.statusCode ++ "\":" ++ decimal i.count.toNat) ++
  "\x7d,\"attempts_by_domain\":\x7b" ++
  commaSep (stats.domainCounts.map fun i => jsonString i.domain ++ [':'] ++ decimal i.count.toNat) ++
  "\x7d,\"time_buckets\":[" ++
  commaSep (stats.timeBuckets.map fun i =>
    "\x7b\"bucket_start\":" ++ (toString i.bucketStartEpoch).toList ++
      ",\"count\":" ++ decimal i.count.toNat ++ "\x7d") ++
  "],\"from\":" ++ stats.from_ ++ ",\"to\":" ++ stats.to_ ++
  ",\"bucket\":" ++ jsonString stats.bucket ++ "\x7d"

/-- The counts of a window, or the counters of the link. -/
def handleLinkStats (call : Call) (context : RouteContext) (w : World) : Response × World :=
  let slug := pathValue context "slug"
  let fromParam := getQueryParam context.queryString "from"
  let toParam := getQueryParam context.queryString "to"
  let bucketParam := getQueryParam context.queryString "bucket"
  if fromParam ≠ [] ∧ toParam ≠ [] ∧ bucketParam ≠ [] then
    match call.env.readStats w.clicks ⟨slug, fromParam, toParam, bucketParam⟩ with
    | .error e => (appErrorResponse call e, w)
    | .ok stats => (makeResponse call 200 (serializeLinkStatsJson stats) "application/json", w)
  else
    match getLinkForRead slug w.links with
    | (none, st) => (linkNotFound call, { w with links := st })
    | (some link, st) =>
      (makeResponse call 200
        ("\x7b\"slug\":" ++ jsonString link.slug ++
          ",\"total_redirects\":" ++ decimal link.stats.totalRedirects.toNat ++
          ",\"redirects_24h\":" ++ decimal link.stats.redirects24h.toNat ++
          ",\"redirects_7d\":" ++ decimal link.stats.redirects7d.toNat ++
          ",\"last_accessed_at\":" ++ jsonOptional link.stats.lastAccessedAt ++
          ",\"created_at\":" ++ jsonString link.createdAt ++ "\x7d")
        "application/json", { w with links := st })

/-! ## Application router -/

/-- The handlers of the table. -/
inductive Handler
  | healthz
  | readyz
  | metrics
  | getLinkById
  | previewLink
  | placeholderFeature
  | linkStats
  | enableLink
  | disableLink
  | restoreLink
  | getLinkBySlug
  | patchLink
  | deleteLink
  | createLink
  | compatCreateLink
  | compatGetLinkBySlug
  | prefixedRedirect
  | rootRedirect
  | fallbackUriStore
  deriving DecidableEq

/-- A line of the table. -/
def route (method : Verb) (pathPattern routeLabel : String) (handler : Handler) : RouteEntry Handler :=
  ⟨method, pathPattern.toList, routeLabel.toList, handler⟩

/-- `RouterBuilder::buildApplicationRouter`, in the order of registration. -/
def applicationRoutes : List (RouteEntry Handler) :=
  [ route .get "/healthz" "healthz" .healthz,
    route .get "/readyz" "readyz" .readyz,
    route .get "/metrics" "metrics" .metrics,
    route .get "/api/v1/links/id/\x7bid\x7d" "api_links" .getLinkById,
    route .get "/api/v1/links/\x7bslug\x7d/preview" "api_links" .previewLink,
    route .get "/api/v1/links/\x7bslug\x7d/qr" "api_links" .placeholderFeature,
    route .get "/api/v1/links/\x7bslug\x7d/routing" "api_links" .placeholderFeature,
    route .get "/api/v1/links/\x7bslug\x7d/stats" "api_links" .linkStats,
    route .post "/api/v1/links/\x7bslug\x7d/enable" "api_links" .enableLink,
    route .post "/api/v1/links/\x7bslug\x7d/disable" "api_links" .disableLink,
    route .post "/api/v1/links/\x7bslug\x7d/restore" "api_links" .restoreLink,
    route .get "/api/v1/links/\x7bslug\x7d" "api_links" .getLinkBySlug,
    route .patch "/api/v1/links/\x7bslug\x7d" "api_links" .patchLink,
    route .delete "/api/v1/links/\x7bslug\x7d" "api_links" .deleteLink,
    route .post "/api/v1/links" "api_links" .createLink,
    route .post "/api/v1/short-urls" "api_links" .compatCreateLink,
    route .get "/api/v1/short-urls/\x7bslug\x7d" "api_links" .compatGetLinkBySlug,
    route .get "/r/\x7bslug\x7d" "redirect_prefixed" .prefixedRedirect,
    route .get "/\x7bslug\x7d" "redirect_root" .rootRedirect,
    route .get "/\x7bpath\x7d" "redirect_root" .fallbackUriStore,
    route .post "/\x7bpath\x7d" "redirect_root" .fallbackUriStore,
    route .delete "/\x7bpath\x7d" "redirect_root" .fallbackUriStore,
    route .get "/" "app" .fallbackUriStore,
    route .post "/" "app" .fallbackUriStore,
    route .delete "/" "app" .fallbackUriStore ]

/-- The handler of that name. -/
def Handler.run (handler : Handler) (call : Call) (context : RouteContext) (w : World) : Response × World :=
  match handler with
  | .healthz => handleHealthz call w
  | .readyz => handleReadyz call w
  | .metrics => handleMetrics call w
  | .getLinkById => handleGetLinkById call context w
  | .previewLink => handlePreviewLink call context w
  | .placeholderFeature => handlePlaceholderFeature call context w
  | .linkStats => handleLinkStats call context w
  | .enableLink => handleEnableLink call context w
  | .disableLink => handleDisableLink call context w
  | .restoreLink => handleRestoreLink call context w
  | .getLinkBySlug => handleGetLinkBySlug call context w
  | .patchLink => handlePatchLink call context w
  | .deleteLink => handleDeleteLink call context w
  | .createLink => handleCreateLink call w
  | .compatCreateLink => handleCompatCreateLink call w
  | .compatGetLinkBySlug => handleCompatGetLinkBySlug call context w
  | .prefixedRedirect => handlePrefixedRedirect call context w
  | .rootRedirect => handleRootRedirect call context w
  | .fallbackUriStore => handleFallbackUriStore call w

/-- **A request through the application router.** -/
def handleShortenerRequest (call : Call) (w : World) : Response × World :=
  match dispatch applicationRoutes call.req.method call.req.target with
  | .invoke handler context => handler.run call context w
  | .error status code message => (makeApiErrorResponse call status code message, w)

end UrlShortener

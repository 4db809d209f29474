import UrlShortener.Spec.Handlers

/-!
# The redirect to HTTPS and the analytics hook

Besides `emitClickEvent`, two functions cut the port off a `Host` header: `makeRedirectResponse` of
`http/request_handlers.cpp`, which answers plain requests when TLS is on, and `OnRedirectOutcome` of
`http/redirect_analytics_hook.cpp`.
-/

namespace UrlShortener

open Text

/-- The field of `TlsConfig` that is read here. -/
structure TlsConfig where
  port : UInt16 := 443

/-- What stands before the first colon. -/
def stripPort (host : Str) : Str :=
  match cut [':'] host with
  | none => host
  | some (h, _) => h

/-- `tls` is the block of that name in the configuration. -/
def makeRedirectResponse (call : Call) (tls : TlsConfig) : Response :=
  let host := match call.req.host with
    | some (c :: h) => c :: h
    | _ => "localhost"
  let host := stripPort host
  let location := "https://" ++ host ++
    (if tls.port ≠ 443 then ':' :: decimal tls.port.toNat else []) ++ call.req.target
  { status := 308
    headers :=
      [("Location", location), ("Content-Type", "text/plain"),
       ("X-Request-Id", requestIdFromRequest call)]
    body := "Use HTTPS\n" }

/-- What the redirect hands to the analytics. -/
structure RedirectAnalyticsInput where
  slug : Str := []
  linkId : Str := []
  host : Str := []
  referrer : Str := []
  userAgent : Str := []
  clientNetworkIdentifier : Str := []
  statusCode : UInt16 := 0

/-- What the event is built from. -/
structure RedirectEventContext where
  slug : Str
  linkId : Str
  domain : Str
  finalStatusCode : UInt16
  referrer : Str
  userAgent : Str
  clientNetworkIdentifier : Str
  occurredAt : TimePoint

/-- `h.rfind(c)` and the `substr` before it: the search is from the end. -/
def beforeLast (c : Char) (h : Str) : Str :=
  match cut [c] h.reverse with
  | none => h
  | some (_, rest) => rest.reverse

/-- What `OnRedirectOutcome` hands to `RecordRedirectAttempt`. -/
def onRedirectOutcome (input : RedirectAnalyticsInput) (now : TimePoint) : RedirectEventContext where
  slug := input.slug
  linkId := input.linkId
  domain :=
    -- in `[::1]:8080` the bracket is closed before the port
    if input.host ≠ [] ∧ input.host.getLast? ≠ some ']' then beforeLast ':' input.host else input.host
  referrer := input.referrer
  userAgent := input.userAgent
  clientNetworkIdentifier := input.clientNetworkIdentifier
  finalStatusCode := input.statusCode
  occurredAt := now

end UrlShortener

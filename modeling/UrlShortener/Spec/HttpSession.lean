import UrlShortener.Spec.HostHeader
import UrlShortener.Spec.System
import UrlShortener.Calls.Program

/-!
# HTTP sessions and the metrics registry

`PlainSession` and `TlsSession` of `http/http_session.cpp`, with `resolveRequestId`, `recordHttpMetric` and
`renderMetrics` of `http/request_handlers.cpp`, and `HttpServer::reloadTlsContext`.

* A session is a program of calls on the server: every update of an atomic counter, the locked update of the
  request counters and the handling of the request are one call each. `Session.run` is the program from the
  connection to the response.
* `Server.step` is one session, or one reload of the TLS context, with nothing in between, as on the single
  thread of `main`.

The reading of the request and the TLS handshake are Beast's and OpenSSL's; what they deliver is part of the
session. Log lines are left out.
-/

namespace UrlShortener

open Text Calls

/-- The part of `ServerConfig` that the sessions read, over the one that the handlers read. -/
structure SessionConfig extends ServerConfig where
  httpRedirectToHttps : Bool := false
  tlsEnabled : Bool := false
  tls : TlsConfig := {}
  requestIdMaxLength : UInt32 := 64
  maxRequestBodyBytes : UInt32 := 65536
  maxRequestTargetLength : UInt32 := 2048

/-! ## Requests as they are read -/

/-- The characters of a method name; Beast's parser accepts no others. -/
def isTokenChar (c : Char) : Bool := c.isAlphanum || "!#$%&'*+-.^_`|~".toList.contains c

/-- Beast's names of the methods that the router does not tell apart. -/
def otherMethods : List String :=
  ["HEAD", "PUT", "CONNECT", "OPTIONS", "TRACE", "COPY", "LOCK", "MKCOL", "MOVE", "PROPFIND", "PROPPATCH", "SEARCH",
   "UNLOCK", "BIND", "REBIND", "UNBIND", "ACL", "REPORT", "MKACTIVITY", "CHECKOUT", "MERGE", "M-SEARCH", "NOTIFY",
   "SUBSCRIBE", "UNSUBSCRIBE", "PURGE", "MKCALENDAR", "LINK", "UNLINK"]

/-- `string_to_verb`. -/
def stringToVerb (name : Str) : Verb :=
  if name = "GET" then .get
  else if name = "POST" then .post
  else if name = "PATCH" then .patch
  else if name = "DELETE" then .delete
  else if otherMethods.any fun m => m.toList == name then .other name
  else .unknown

/-- A request as `async_read` delivers it, with the header fields that anything reads. -/
structure Incoming where
  methodString : Str
  methodToken : methodString.all isTokenChar = true
  target : Str
  host : Option Str := none
  contentType : Option Str := none
  referer : Option Str := none
  userAgent : Option Str := none
  forwardedFor : Option Str := none
  requestId : Option Str := none
  internalRequestId : Option Str := none
  body : Str := []

/-- The request after `req_.set(internal_request_id_header, requestId)`, which replaces the client's field. -/
def Incoming.request (incoming : Incoming) (requestId : Str) : Request where
  method := stringToVerb incoming.methodString
  target := incoming.target
  host := incoming.host
  contentType := incoming.contentType
  referer := incoming.referer
  userAgent := incoming.userAgent
  forwardedFor := incoming.forwardedFor
  internalRequestId := some requestId
  body := incoming.body

/-! ## Request identifiers -/

/-- `[A-Za-z0-9._-]`. -/
def isRequestIdChar (c : Char) : Bool := c.isAlphanum || c == '-' || c == '_' || c == '.'

/-- Neither empty nor too long. -/
def isValidRequestId (value : Str) (maxLen : UInt32) : Bool :=
  if value = [] ∨ maxLen.toNat < value.length then false else value.all isRequestIdChar

/-- `std::hex << std::setw(16) << std::setfill('0')` of a 64-bit number. -/
def hex16 (n : UInt64) : Str :=
  let digits := Nat.toDigits 16 n.toNat
  List.replicate (16 - digits.length) '0' ++ digits

/-- Two draws in hexadecimal. -/
def generateRequestId (hi lo : UInt64) : Str := hex16 hi ++ hex16 lo

/-- `hi` and `lo` are the draws of the generator, if one is needed. -/
def resolveRequestId (incoming : Incoming) (config : SessionConfig) (hi lo : UInt64) : Str :=
  let value := incoming.requestId.getD []
  if isValidRequestId value config.requestIdMaxLength then value else generateRequestId hi lo

/-! ## Metrics -/

/-- `MetricsRegistry`. -/
@[ext]
structure MetricsRegistry where
  inflightRequests : UInt64 := 0
  parseErrorsTotal : UInt64 := 0
  malformedRequestsTotal : UInt64 := 0
  tlsReloadSuccessTotal : UInt64 := 0
  tlsReloadFailureTotal : UInt64 := 0
  httpRequestsTotal : UnorderedMap Str UInt64 := ∅

/-- `2xx` and so on. -/
def statusClass (status : ℕ) : Str := decimal (status / 100) ++ "xx"

/-- The key under which a request is counted. -/
def metricKey (method routeLabel : Str) (status : ℕ) : Str :=
  "method=" ++ method ++ ",route=" ++ routeLabel ++ ",status_class=" ++ statusClass status

/-- `recordHttpMetric`: `http_requests_total[key] += 1`. -/
def MetricsRegistry.record (metrics : MetricsRegistry) (key : Str) : MetricsRegistry :=
  { metrics with
    httpRequestsTotal := metrics.httpRequestsTotal.insert key ((metrics.httpRequestsTotal.lookup key).getD 0 + 1) }

/-- The entries of the `std::map` in the order of their keys. -/
def sortedCounts (counts : UnorderedMap Str UInt64) : List (Str × ℕ) :=
  ((counts.entries.map fun e => toLex (e.1, e.2.toNat)).sort (· ≤ ·)).map ofLex

/-- The text of `/metrics`. -/
def renderMetrics (metrics : MetricsRegistry) : Str :=
  "http_inflight_requests ".toList ++ decimal metrics.inflightRequests.toNat ++ ['\n'] ++
  "http_parse_errors_total ".toList ++ decimal metrics.parseErrorsTotal.toNat ++ ['\n'] ++
  "http_malformed_requests_total ".toList ++ decimal metrics.malformedRequestsTotal.toNat ++ ['\n'] ++
  "tls_reload_success_total ".toList ++ decimal metrics.tlsReloadSuccessTotal.toNat ++ ['\n'] ++
  "tls_reload_failure_total ".toList ++ decimal metrics.tlsReloadFailureTotal.toNat ++ ['\n'] ++
  (sortedCounts metrics.httpRequestsTotal).flatMap fun p =>
    "http_requests_total\x7b".toList ++ p.1 ++ "\x7d ".toList ++ decimal p.2 ++ ['\n']

/-! ## The server and the calls of its sessions -/

/-- The stores, the registry and the two handshake counters of `HttpServer`. -/
structure Server where
  world : World := {}
  metrics : MetricsRegistry := {}
  tlsHandshakeSuccessCount : UInt64 := 0
  tlsHandshakeFailureCount : UInt64 := 0

/-- What a session does to the server. -/
inductive ServerCall
  | handshakeSucceeded
  | handshakeFailed
  | parseError
  | enter
  | malformed
  | handle (call : Call)
  | leave
  | record (key : Str)

/-- What each call returns. -/
def ServerCall.Answer : ServerCall → Type
  | .handle _ => Response
  | _ => Unit

/-- What a call does to the server. `/metrics` reads the registry as it is at that moment. -/
def ServerCall.handler (c : ServerCall) (s : Server) : c.Answer × Server :=
  match c with
  | .handshakeSucceeded => ((), { s with tlsHandshakeSuccessCount := s.tlsHandshakeSuccessCount + 1 })
  | .handshakeFailed => ((), { s with tlsHandshakeFailureCount := s.tlsHandshakeFailureCount + 1 })
  | .parseError => ((), { s with metrics.parseErrorsTotal := s.metrics.parseErrorsTotal + 1 })
  | .enter => ((), { s with metrics.inflightRequests := s.metrics.inflightRequests + 1 })
  | .malformed => ((), { s with metrics.malformedRequestsTotal := s.metrics.malformedRequestsTotal + 1 })
  | .handle call =>
    let (res, w) := handleShortenerRequest { call with env.metrics := renderMetrics s.metrics } s.world
    (res, { s with world := w })
  | .leave => ((), { s with metrics.inflightRequests := s.metrics.inflightRequests - 1 })
  | .record key => ((), { s with metrics := s.metrics.record key })

/-- A session, call by call. -/
abbrev ServerProg := Prog ServerCall ServerCall.Answer

/-! ## Sessions -/

/-- **One connection**: the listener that accepted it, how the handshake and the reading went, and what is read from
outside meanwhile. -/
structure Session where
  isTls : Bool
  handshake : Bool := true
  incoming : Option Incoming
  env : Env
  hi : UInt64
  lo : UInt64

/-- How a session ends. -/
inductive Outcome
  | handshakeFailed
  | parseError
  | answered (res : Response)

/-- The call that the handlers are given, with the request identifier the session has chosen. -/
def Session.call (config : SessionConfig) (s : Session) (incoming : Incoming) : Call where
  config := config.toServerConfig
  env := s.env
  isTls := s.isTls
  req := incoming.request (resolveRequestId incoming config s.hi s.lo)

/-- What a request is met with before the router: a limit it exceeds, or the redirect to HTTPS. -/
inductive Gate
  | targetTooLarge
  | payloadTooLarge
  | redirect
  | pass
  deriving DecidableEq

/-- The limits are checked in this order. -/
def Session.gate (config : SessionConfig) (s : Session) (incoming : Incoming) : Gate :=
  if config.maxRequestTargetLength.toNat < incoming.target.length then .targetTooLarge
  else if config.maxRequestBodyBytes.toNat < incoming.body.length then .payloadTooLarge
  -- the branch of `PlainSession` that `TlsSession` lacks
  else if !s.isTls && config.httpRedirectToHttps && config.tlsEnabled then .redirect
  else .pass

/-- The response of a session, and the calls it takes. -/
def Session.respond (config : SessionConfig) (s : Session) (incoming : Incoming) : ServerProg Response :=
  let call := s.call config incoming
  match s.gate config incoming with
  | .targetTooLarge => do
    Prog.perform ServerCall.malformed
    return makeApiErrorResponse call 414 "target_too_large" "request target too large"
  | .payloadTooLarge => do
    Prog.perform ServerCall.malformed
    return makeApiErrorResponse call 413 "payload_too_large" "request body too large"
  | .redirect => return makeRedirectResponse call config.tls
  | .pass => Prog.perform (ServerCall.handle call)

/-- The key under which the session's request is counted. -/
def metricKeyFor (incoming : Incoming) (res : Response) : Str :=
  metricKey incoming.methodString (routeLabelForTarget incoming.target) res.status

/-- `onRead`: parse, answer, count. -/
def Session.onRead (config : SessionConfig) (s : Session) : ServerProg Outcome :=
  match s.incoming with
  | none => do
    Prog.perform ServerCall.parseError
    return .parseError
  | some incoming => do
    Prog.perform ServerCall.enter
    let res ← s.respond config incoming
    Prog.perform ServerCall.leave
    Prog.perform (ServerCall.record (metricKeyFor incoming res))
    return .answered res

/-- `run`, and for TLS `onHandshake` before `onRead`. -/
def Session.run (config : SessionConfig) (s : Session) : ServerProg Outcome :=
  if s.isTls then
    if s.handshake then do
      Prog.perform ServerCall.handshakeSucceeded
      s.onRead config
    else do
      Prog.perform ServerCall.handshakeFailed
      return .handshakeFailed
  else s.onRead config

/-! ## Runs of the server -/

/-- What happens to the server: a connection, or a signal to reload the TLS context, which can be built or not. -/
inductive ServerOp
  | session (s : Session)
  | reloadTlsContext (built : Bool)

/-- Success and failure are counted. -/
def Server.reloadTlsContext (config : SessionConfig) (built : Bool) (s : Server) : Server :=
  if !config.tlsEnabled then s
  else if built then { s with metrics.tlsReloadSuccessTotal := s.metrics.tlsReloadSuccessTotal + 1 }
  else { s with metrics.tlsReloadFailureTotal := s.metrics.tlsReloadFailureTotal + 1 }

/-- One session or one reload. -/
def Server.step (config : SessionConfig) (op : ServerOp) (s : Server) : Server :=
  match op with
  | .session session => ((session.run config).run ServerCall.handler s).2
  | .reloadTlsContext built => s.reloadTlsContext config built

/-- **The server after a run** from its start, with the entries that `main` has loaded from `uri.txt`. -/
def serverAfter (config : SessionConfig) (uris : UriMap) (ops : List ServerOp) : Server :=
  Runs.after (Server.step config) { world := { uris := uris } } ops

end UrlShortener

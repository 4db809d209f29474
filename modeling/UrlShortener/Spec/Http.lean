import UrlShortener.Spec.Json
import UrlShortener.Spec.Commands
import UrlShortener.Spec.Router
import UrlShortener.Spec.UriStore

/-!
# Requests, responses and process state

The parts of a Beast request and response that the handlers of `http/` use, the response helpers of
`http/request_handlers.cpp`, and the state of the process.
-/

namespace UrlShortener

open Text

/-- A request: method, target, body and the header fields that are read. -/
structure Request where
  method : Verb
  target : Str
  host : Option Str := none
  contentType : Option Str := none
  referer : Option Str := none
  userAgent : Option Str := none
  forwardedFor : Option Str := none
  internalRequestId : Option Str := none
  body : Str := []

/-- A response. -/
structure Response where
  status : ℕ
  headers : List (Str × Str)
  body : Str := []
  deriving DecidableEq

/-- The value of the `Location` header. -/
def Response.location (res : Response) : Option Str := res.headers.lookup "Location".toList

/-- **The state of the process**: links and their cache, the URI store, the click events. -/
structure World where
  links : LinkStore := {}
  uris : UriMap := ∅
  clicks : List ClickEvent := []

/-- What one request is handled with. -/
structure Call where
  config : ServerConfig
  env : Env
  isTls : Bool := false
  req : Request

/-- The identifier of the session, or a generated one. -/
def requestIdFromRequest (call : Call) : Str :=
  match call.req.internalRequestId with
  | some (c :: id) => c :: id
  | _ => call.env.requestId

/-- A response with the headers that all have. -/
def makeResponse (call : Call) (status : ℕ) (body contentType : Str) : Response where
  status := status
  headers :=
    [("Server".toList, "simple-http".toList)] ++
    (if contentType = [] then [] else [("Content-Type".toList, contentType)]) ++
    (match call.isTls, call.config.hstsMaxAge with
      | true, some age =>
        [("Strict-Transport-Security".toList,
          "max-age=".toList ++ decimal age.toNat ++ "; includeSubDomains".toList)]
      | _, _ => []) ++
    (if call.isTls then [("X-Content-Type-Options".toList, "nosniff".toList)] else []) ++
    [("X-Request-Id".toList, requestIdFromRequest call)]
  body := body

/-- An error as JSON. -/
def makeApiErrorResponse (call : Call) (status : ℕ) (code message : Str) : Response :=
  makeResponse call status
    ("\x7b\"error\":\x7b\"code\":" ++ jsonString code ++ ",\"message\":" ++ jsonString message ++
      ",\"request_id\":" ++ jsonString (requestIdFromRequest call) ++ "\x7d\x7d")
    "application/json"

/-- At most `maxLen` bytes. -/
def clampString (value : Str) (maxLen : ℕ) : Str := value.take maxLen

/-! ## URI store fallback -/

/-- `handleApplicationRequest`: the whole target, query included, is the key. -/
def handleApplicationRequest (call : Call) (w : World) : Response × World :=
  let uri := call.req.target
  match call.req.method with
  | .get =>
    match w.uris.getData uri with
    | some (data, contentType) => (makeResponse call 200 (data ++ ['\n']) contentType, w)
    | none => (makeResponse call 404 "URI not found\n" "text/plain", w)
  | .post =>
    let contentType := match call.req.contentType with
      | some (c :: t) => c :: t
      | _ => "application/octet-stream"
    (makeResponse call 200 "URI saved\n" "text/plain",
      { w with uris := w.uris.saveData uri call.req.body contentType })
  | .delete =>
    match w.uris.deleteData uri with
    | (true, uris) =>
      (makeResponse call 200 "Data deleted\n" "text/plain", { w with uris := uris })
    | (false, _) => (makeResponse call 404 "URI not found\n" "text/plain", w)
  | _ => (makeResponse call 400 "Invalid method\n" "text/plain", w)

/-- `/api/` and `/r/` are not looked up. -/
def isReservedFallbackPath (target : Str) : Bool :=
  let path := (splitQuery target).1
  startsWith path "/api/" || startsWith path "/r/"

/-- What the URI store has for the target. -/
def handleFallbackUriStore (call : Call) (w : World) : Response × World :=
  if isReservedFallbackPath call.req.target then
    (makeApiErrorResponse call 404 "not_found" "Route not found", w)
  else handleApplicationRequest call w

/-! ## Observability -/

/-- `/healthz`. -/
def handleHealthz (call : Call) (w : World) : Response × World :=
  (makeResponse call 200 "ok\n" "text/plain", w)

/-- `/readyz`. -/
def handleReadyz (call : Call) (w : World) : Response × World :=
  (makeResponse call 200 "ok\n" "text/plain", w)

/-- `renderMetrics` prints counters that nothing else here reads; its text is part of the
environment. -/
def handleMetrics (call : Call) (w : World) : Response × World :=
  (makeResponse call 200 call.env.metrics "text/plain", w)

end UrlShortener

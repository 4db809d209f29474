import UrlShortener.Spec.Url

/-!
# Router

`http/router.cpp`: path segments, pattern matching and dispatch. A route names its handler by a value
of a type `H`, and `dispatch` says which handler it invokes with which context, or which error it
answers. The label under which a request is counted comes from `http/route_registry.cpp`.
-/

namespace UrlShortener

open Text

/-- The methods the router tells apart; any other verb goes by its name. -/
inductive Verb
  | get
  | post
  | patch
  | delete
  | unknown
  | other (name : Str)
  deriving DecidableEq

/-- The name of a method. -/
def methodToString (method : Verb) : Str :=
  match method with
  | .get => "GET"
  | .post => "POST"
  | .patch => "PATCH"
  | .delete => "DELETE"
  | .unknown => "<unknown>"
  | .other name => name

/-- The segments between slashes, leading slashes dropped; none for an empty path. -/
def splitPath (path : Str) : List Str :=
  let segments := (path.dropWhile (· == '/')).splitOn '/'
  if segments = [[]] then [] else segments

/-- The first character of a name. -/
def isCaptureStart (c : Char) : Bool := c.isAlpha || c == '_'

/-- The others. -/
def isCaptureChar (c : Char) : Bool := c.isAlphanum || c == '_'

/-- `{name}` with a name of letters, digits and underscores that does not start with a digit. -/
def isCaptureSegment (segment : Str) : Bool :=
  if segment.length < 3 ∨ segment.head? ≠ some '{' ∨ segment.getLast? ≠ some '}' then false
  else
    match (segment.drop 1).dropLast with
    | [] => false
    | c :: name => isCaptureStart c && name.all isCaptureChar

/-- The name between the braces. -/
def captureName (segment : Str) : Str := (segment.drop 1).dropLast

/-- The number of segments of a pattern that are not captures. -/
def pathSpecificity (pathPattern : Str) : ℕ := (splitPath pathPattern).countP fun s => !isCaptureSegment s

/-- What was captured. -/
structure RouteContext where
  pathParams : UnorderedMap Str Str := ∅
  queryString : Str := []
  routeLabel : Str := []

/-- The value of a capture. -/
def pathParam (context : RouteContext) (name : Str) : Option Str := context.pathParams.lookup name

/-- The value, or an empty text. -/
def pathValue (context : RouteContext) (name : Str) : Str := (pathParam context name).getD []

/-- The path and the query of a target. -/
def splitQuery (target : Str) : Str × Str :=
  match cut ['?'] target with
  | none => (target, [])
  | some (path, query) => (path, query)

/-- The segment loop of `matchPath`: captured values, or no match. -/
def matchSegments : List Str → List Str → UnorderedMap Str Str → Option (UnorderedMap Str Str)
  | pattern :: ps, actual :: as, params =>
    if isCaptureSegment pattern then
      if actual = [] then none else matchSegments ps as (params.insert (captureName pattern) actual)
    else if pattern = actual then matchSegments ps as params
    else none
  | _, _, params => some params

/-- Segment by segment; none if the path is another. -/
def matchPath (pathPattern target : Str) : Option RouteContext :=
  let (path, query) := splitQuery target
  let patternSegments := splitPath pathPattern
  let pathSegments := splitPath path
  if patternSegments.length ≠ pathSegments.length then
    match patternSegments with
    | [segment] =>
      -- `{path}` alone also takes paths of several segments
      if isCaptureSegment segment ∧ captureName segment = "path" ∧ path ≠ [] ∧ path ≠ ['/'] then
        let value := if path.head? = some '/' then path.drop 1 else path
        some { pathParams := (∅ : UnorderedMap Str Str).insert "path" value, queryString := query }
      else none
    | _ => none
  else
    (matchSegments patternSegments pathSegments ∅).map fun params =>
      { pathParams := params, queryString := query }

/-- A line of a routing table. -/
structure RouteEntry (H : Type) where
  method : Verb
  pathPattern : Str
  routeLabel : Str
  handler : H

/-- What `dispatch` does with a request. -/
inductive Dispatched (H : Type)
  | invoke (handler : H) (context : RouteContext)
  | error (status : ℕ) (code message : Str)

variable {H : Type}

/-- The first loop: the largest specificity among the routes that match the path. -/
def bestSpecificity (routes : List (RouteEntry H)) (target : Str) : Option ℕ :=
  routes.foldl (fun best route =>
    if (matchPath route.pathPattern target).isNone then best
    else
      match best with
      | none => some (pathSpecificity route.pathPattern)
      | some b => if b < pathSpecificity route.pathPattern then some (pathSpecificity route.pathPattern)
        else some b) none

/-- The second loop: the first route of that specificity with the method of the request. -/
def selectRoute (method : Verb) (target : Str) (best : ℕ) :
    List (RouteEntry H) → (onlyAllowed : Verb) → (multiple : Bool) → Dispatched H ⊕ Verb × Bool
  | [], onlyAllowed, multiple => .inr (onlyAllowed, multiple)
  | route :: routes, onlyAllowed, multiple =>
    match matchPath route.pathPattern target with
    | none => selectRoute method target best routes onlyAllowed multiple
    | some context =>
      if pathSpecificity route.pathPattern ≠ best then
        selectRoute method target best routes onlyAllowed multiple
      else
        let only := if onlyAllowed = .unknown then route.method else onlyAllowed
        let multiple := multiple || (onlyAllowed ≠ .unknown && onlyAllowed ≠ route.method)
        if route.method ≠ method then selectRoute method target best routes only multiple
        else .inl (.invoke route.handler { context with routeLabel := route.routeLabel })

/-- The first of the most specific routes, or an error. -/
def dispatch (routes : List (RouteEntry H)) (method : Verb) (target : Str) : Dispatched H :=
  let best := bestSpecificity routes target
  match selectRoute method target (best.getD 0) routes .unknown false with
  | .inl d => d
  | .inr (onlyAllowed, multiple) =>
    if best.isSome then
      .error 400 "invalid_method"
        (if multiple then "Unsupported operation"
          else "Only " ++ methodToString onlyAllowed ++ " is supported")
    else .error 404 "not_found" "Route not found"

/-! ## Metric labels -/

/-- The label in the metrics. -/
def routeLabelForTarget (target : Str) : Str :=
  if target = "/metrics" then "metrics"
  else if target = "/healthz" then "healthz"
  else if target = "/readyz" then "readyz"
  else if startsWith target "/r/" then "redirect_prefixed"
  else if startsWith target "/api/v1/links" || startsWith target "/api/v1/short-urls" then
    "api_links"
  else if 1 < target.length ∧ target.head? = some '/' then "redirect_root"
  else "app"

end UrlShortener

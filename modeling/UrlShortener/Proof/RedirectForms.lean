import UrlShortener.Proof.Filling
import UrlShortener.Proof.Reachability

/-!
# The two forms of a redirect

`GET /{slug}` and `GET /r/{slug}` take different routes and different handlers.

* `dispatch_prefixed`, `handle_prefixed`: the second goes to the prefixed redirect for every slug, as `handle_slug`
  says of the first.
* `serveLink_same`: both serve the link the same way, up to the random values of a request.
* `redirect_forms_agree`: **the two forms answer alike and leave the same state**, but for the identifier of the
  click event.
-/

namespace UrlShortener

open Text

variable {slug : Str}

/-! ## The route of the prefixed form -/

/-- **`GET` of a slug behind `/r/` goes to the prefixed redirect.** -/
theorem dispatch_prefixed (hslug : IsValue slug) :
    ∃ context, dispatch applicationRoutes .get ("/r/" ++ slug) = .invoke .prefixedRedirect context ∧
      pathValue context "slug" = slug := by
  have hvalues : ∀ n ∈ redirectPattern.names, IsValue ((fun _ => slug) n) := fun _ _ => hslug
  have htarget : redirectPattern.fill (fun _ => slug) ++ (none : Option Str).elim [] ('?' :: ·)
      = "/r/" ++ slug := by
    simp [PathPattern.fill, join, redirectPattern, Segment.fill]
  obtain ⟨context, hmatch, hparams, -⟩ := matchPath_filled hvalues none
  have hsegments := pathSegments_fill hvalues none
  rw [htarget] at hmatch hsegments
  have hlength : (pathSegments ("/r/" ++ slug)).length = 2 := by
    rw [hsegments]
    rfl
  have hroutes : applicationRoutes = applicationRoutes.take 17 ++
      route .get "/r/\x7bslug\x7d" "redirect_prefixed" .prefixedRedirect :: applicationRoutes.drop 18 := rfl
  -- the routes before it have more segments or are one literal; those after it are captures or the root
  have hpre : ∀ r ∈ applicationRoutes.take 17, 3 ≤ (splitPath r.pathPattern).length ∨
      ∃ name ∈ serviceNames, splitPath r.pathPattern = [name] ∧ isCaptureSegment name = false := by
    decide +kernel
  have hpost : ∀ r ∈ applicationRoutes.drop 18, pathSpecificity r.pathPattern = 0 := by decide +kernel
  have hpre' : ∀ r ∈ applicationRoutes.take 17, matchPath r.pathPattern ("/r/" ++ slug) = none := by
    intro r hr
    by_contra hne
    obtain ⟨c, hc⟩ := Option.ne_none_iff_exists'.1 hne
    rcases hpre r hr with hlen | ⟨name, -, hsplit, hlit⟩
    · have := matchPath_length hc
      omega
    · have hone := congrArg List.length (matchPath_literal hsplit hlit hc)
      rw [hlength] at hone
      exact absurd hone (by decide : 2 ≠ 1)
  have hvalue : pathValue context "slug" = slug := by
    rw [pathValue, pathParam, hparams]
    rfl
  refine ⟨{ context with routeLabel := "redirect_prefixed" }, ?_, hvalue⟩
  rw [hroutes]
  exact dispatch_first hpre' hmatch rfl fun r hr => Or.inr ((hpost r hr).trans_le (Nat.zero_le _))

theorem isValue_of_isValidSlug (h : isValidSlug slug = true) : IsValue slug := by
  have hchars := isValidSlug_chars h
  refine ⟨?_, fun hc => absurd (hchars _ hc) (by decide), fun hc => absurd (hchars _ hc) (by decide)⟩
  rintro rfl
  exact absurd h Bool.false_ne_true

theorem handle_prefixed {call : Call} {w : World} (hmethod : call.req.method = .get)
    (htarget : call.req.target = "/r/" ++ slug) (hslug : isValidSlug slug = true) :
    handleShortenerRequest call w = serveLink call slug w := by
  obtain ⟨context, hd, hvalue⟩ := dispatch_prefixed (isValue_of_isValidSlug hslug)
  unfold handleShortenerRequest
  rw [hmethod, htarget, hd]
  simp only [Handler.run, handlePrefixedRedirect, hvalue, hslug, Bool.not_true, Bool.false_eq_true, if_false]

/-! ## Two requests at the same time -/

/-- The event without its random identifier. -/
def ClickEvent.forgetId (e : ClickEvent) : ClickEvent := { e with eventId := [] }

/-- The same repository, cache and URI store, and the same events recorded after `clicks`, up to their identifiers. -/
structure SameState (clicks : List ClickEvent) (w w' : World) : Prop where
  links : w.links = w'.links
  uris : w.uris = w'.uris
  recorded : ∃ events events', w.clicks = clicks ++ events ∧ w'.clicks = clicks ++ events' ∧
    events.map ClickEvent.forgetId = events'.map ClickEvent.forgetId

/-- Both redirect to the link, or both are the same API error. -/
inductive SameAnswer (call call' : Call) : Response → Response → Prop
  | redirect (link : Link) (status : ℕ) :
    SameAnswer call call' (redirectResponse call link status) (redirectResponse call' link status)
  | error (status : ℕ) (code message : Str) :
    SameAnswer call call' (makeApiErrorResponse call status code message)
      (makeApiErrorResponse call' status code message)

/-- Two requests from one client at the same time. The targets may differ, and so may what is drawn at random. -/
structure SameTime (call call' : Call) : Prop where
  config : call.config = call'.config
  clock : call.env.clock = call'.env.clock
  hmac : call.env.hmac = call'.env.hmac
  host : call.req.host = call'.req.host
  referer : call.req.referer = call'.req.referer
  userAgent : call.req.userAgent = call'.req.userAgent
  forwardedFor : call.req.forwardedFor = call'.req.forwardedFor

variable {call call' : Call} {w : World}

theorem emitClickEvent_same (h : SameTime call call') (link : Option Link) (status : ℕ) (now : TimePoint) :
    SameState w.clicks (emitClickEvent call slug link status now w) (emitClickEvent call' slug link status now w) := by
  unfold emitClickEvent
  simp only [h.config, h.hmac, h.host, h.referer, h.userAgent, h.forwardedFor]
  split
  · exact ⟨rfl, rfl, [], [], (List.append_nil _).symm, (List.append_nil _).symm, rfl⟩
  · exact ⟨rfl, rfl, [_], [_], rfl, rfl, rfl⟩

theorem linkStateError_same (h : SameTime call call') (link : Option Link) :
    SameAnswer call call' (linkStateError call slug link w).1 (linkStateError call' slug link w).1 ∧
      SameState w.clicks (linkStateError call slug link w).2 (linkStateError call' slug link w).2 := by
  unfold linkStateError
  simp only [h.clock]
  split <;> exact ⟨SameAnswer.error _ _ _, emitClickEvent_same h _ _ _⟩

/-- **A link is served alike to both.** -/
theorem serveLink_same (h : SameTime call call') (slug : Str) (w : World) :
    SameAnswer call call' (serveLink call slug w).1 (serveLink call' slug w).1 ∧
      SameState w.clicks (serveLink call slug w).2 (serveLink call' slug w).2 := by
  unfold serveLink
  rcases getLinkForRead slug w.links with ⟨_ | link, st⟩
  · exact linkStateError_same (w := { w with links := st }) h none
  · simp only [h.clock, passwordGuardCheck, rateLimitGuardAllow]
    split
    · exact linkStateError_same (w := { w with links := st }) h (some link)
    · refine ⟨SameAnswer.redirect _ _, ?_⟩
      exact emitClickEvent_same (w := { w with links := incrementRedirectStats link (call'.env.clock 1) st }) h _ _ _

theorem SameAnswer.status {res res' : Response} (h : SameAnswer call call' res res') : res.status = res'.status := by
  cases h <;> rfl

theorem makeApiErrorResponse_location (call : Call) (status : ℕ) (code message : Str) :
    (makeApiErrorResponse call status code message).location = none := by
  unfold makeApiErrorResponse makeResponse Response.location
  rcases call.isTls with _ | _ <;> rcases call.config.hstsMaxAge with _ | age <;> rfl

theorem SameAnswer.location {res res' : Response} (h : SameAnswer call call' res res') :
    res.location = res'.location := by
  cases h with
  | redirect => rfl
  | error => rw [makeApiErrorResponse_location, makeApiErrorResponse_location]

/-- **The two forms of a redirect agree.** For every state and every valid slug but the names of the service
endpoints, `GET /{slug}` and `GET /r/{slug}` at the same time, with any random values of their own, have the same status
and `Location`, are redirects to the same link or the same error, and leave the same links, cache and URI store; they
record the same click event, up to its random identifier. -/
theorem redirect_forms_agree (w : World) (slug : Str) (call : Call) (draws : ℕ → Draws) (requestId : Str)
    (hmethod : call.req.method = .get) (hslug : isValidSlug slug = true) (hservice : slug ∉ serviceNames) :
    let root : Call := { call with req.target := '/' :: slug }
    let prefixed : Call := { call with
      req.target := "/r/" ++ slug, env.draws := draws, env.requestId := requestId }
    let answer := handleShortenerRequest root w
    let answer' := handleShortenerRequest prefixed w
    answer.1.status = answer'.1.status ∧ answer.1.location = answer'.1.location ∧
      SameAnswer root prefixed answer.1 answer'.1 ∧ SameState w.clicks answer.2 answer'.2 := by
  intro root prefixed answer answer'
  have hroot : answer = serveLink root slug w := by
    have h : answer = if isValidSlug slug then serveLink root slug w else _ :=
      handle_slug hmethod rfl (isValidSlug_chars hslug) (isValue_of_isValidSlug hslug).1 hservice
    rwa [if_pos hslug] at h
  have hprefixed : answer' = serveLink prefixed slug w := handle_prefixed hmethod rfl hslug
  have htime : SameTime root prefixed := ⟨rfl, rfl, rfl, rfl, rfl, rfl, rfl⟩
  obtain ⟨hsame, hstate⟩ := serveLink_same htime slug w
  rw [hroot, hprefixed]
  exact ⟨hsame.status, hsame.location, hsame, hstate⟩

theorem redirect_forms_agree_sample :
    (handleShortenerRequest { sampleGet with req.target := "/abc" } (worldAfter sampleRun)).1.status = 302 ∧
      (handleShortenerRequest { sampleGet with req.target := "/abc" } (worldAfter sampleRun)).1.status
        = (handleShortenerRequest { sampleGet with req.target := "/r/abc" } (worldAfter sampleRun)).1.status :=
  ⟨by decide +kernel, (redirect_forms_agree (worldAfter sampleRun) "abc" sampleGet Env.still.draws [] rfl
    (by decide) (by decide)).1⟩

end UrlShortener

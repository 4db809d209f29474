import UrlShortener.Proof.Commands
import UrlShortener.Proof.Routing

/-!
# What an operation does

* `run_of_command`: an API handler that issues a command answers with the outcome of that command and
  of nothing else. For `PATCH` this includes the preceding existence check.
* `run_links_only`: the handlers of the API touch the links only.
* `step_effect`: **every operation has one of the effects listed in `Effect`** on the catalog.
* `run_represents`: after every run the store represents a catalog.
-/

namespace UrlShortener

open Runs

variable {call : Call} {context : RouteContext} {w : World} {cat : Catalog}

/-- The answer is a redirect. -/
def Response.Redirects (res : Response) : Prop := res.status = 301 ∨ res.status = 302

@[simp] theorem makeResponse_status (call : Call) (status : ℕ) (body contentType : Str) :
    (makeResponse call status body contentType).status = status := rfl

@[simp] theorem makeApiErrorResponse_status (call : Call) (status : ℕ) (code message : Str) :
    (makeApiErrorResponse call status code message).status = status := rfl

@[simp] theorem redirectResponse_status (call : Call) (link : Link) (status : ℕ) :
    (redirectResponse call link status).status = status := rfl

theorem redirectStatusFor_eq (l : Link) : redirectStatusFor l = 301 ∨ redirectStatusFor l = 302 := by
  unfold redirectStatusFor
  cases l.redirectType <;> simp

theorem redirectResponse_redirects (call : Call) (l : Link) :
    (redirectResponse call l (redirectStatusFor l)).Redirects :=
  redirectStatusFor_eq l

@[simp] theorem emitClickEvent_links (call : Call) (slug : Str) (link : Option Link) (status : ℕ)
    (now : TimePoint) (w : World) : (emitClickEvent call slug link status now w).links = w.links := by
  unfold emitClickEvent
  split <;> rfl

theorem appErrorResponse_not_redirects (call : Call) (e : AppError) :
    ¬ (appErrorResponse call e).Redirects := by
  unfold appErrorResponse Response.Redirects
  rw [makeApiErrorResponse_status]
  cases e.code <;> simp [statusForAppError]

theorem handleApplicationRequest_links (call : Call) (w : World) :
    (handleApplicationRequest call w).2.links = w.links := by
  unfold handleApplicationRequest
  simp only
  split
  · split <;> rfl
  · rfl
  · split <;> rfl
  · rfl

theorem handleApplicationRequest_not_redirects (call : Call) (w : World) :
    ¬ (handleApplicationRequest call w).1.Redirects := by
  unfold handleApplicationRequest Response.Redirects
  simp only
  split
  · split <;> simp
  · simp
  · split <;> simp
  · simp

theorem handle_invoke {handler : Handler}
    (hd : dispatch applicationRoutes call.req.method call.req.target = .invoke handler context) :
    handleShortenerRequest call w = handler.run call context w := by
  simp only [handleShortenerRequest, hd]

theorem handle_error {status : ℕ} {code message : Str}
    (hd : dispatch applicationRoutes call.req.method call.req.target = .error status code message) :
    handleShortenerRequest call w = (makeApiErrorResponse call status code message, w) := by
  simp only [handleShortenerRequest, hd]

/-! ## Handlers that issue a command -/

/-- Reading a slug twice is reading it once. -/
theorem getLinkForRead_idem (slug : Str) (st : LinkStore) :
    getLinkForRead slug (getLinkForRead slug st).2 = getLinkForRead slug st := by
  cases hc : st.cache.lookup slug with
  | some l => simp [getLinkForRead, hc]
  | none =>
    cases hr : st.repository.getBySlug slug with
    | none => simp [getLinkForRead, hc, hr]
    | some l => simp [getLinkForRead, hc, hr]

theorem parsePatchBody_slug {slug body : Str} {command : UpdateLinkCommand}
    (h : parsePatchBody slug body = .ok command) : command.slug = slug := by
  unfold parsePatchBody at h
  obtain ⟨_, -, h⟩ := bind_eq_ok h
  obtain ⟨_, -, h⟩ := bind_eq_ok h
  obtain ⟨_, -, h⟩ := bind_eq_ok h
  obtain ⟨_, -, h⟩ := bind_eq_ok h
  obtain ⟨_, -, h⟩ := bind_eq_ok h
  cases h
  rfl

theorem toOption_eq_some {ε α : Type} {x : Except ε α} {a : α} (h : x.toOption = some a) : x = .ok a := by
  cases x with
  | error e => cases h
  | ok b =>
    cases h
    rfl

theorem toOption_eq_none {ε α : Type} {x : Except ε α} (h : x.toOption = none) : ∃ e, x = .error e := by
  cases x with
  | error e => exact ⟨e, rfl⟩
  | ok a => cases h

theorem createLinkFromRequest_eq {slugMode : CreateSlugFieldMode} {command : CreateLinkCommand}
    (h : parseCreateBody slugMode call.req.body = .ok command) :
    createLinkFromRequest call slugMode w =
      answerView call 201 serializeLinkViewJson w (createLink call.config call.env command w.links) := by
  simp only [createLinkFromRequest, h]

/-- The existence check of `PATCH` does not show when the body is well formed. -/
theorem handlePatchLink_eq {command : UpdateLinkCommand}
    (h : parsePatchBody (pathValue context "slug") call.req.body = .ok command) :
    handlePatchLink call context w =
      answerView call 200 serializeLinkViewJson w (updateLink call.config call.env command w.links) := by
  have hslug := parsePatchBody_slug h
  have hidem := getLinkForRead_idem command.slug w.links
  rw [hslug] at hidem
  unfold handlePatchLink getLink updateLink modifyLink LegacyLinkStore.findBySlug
  simp only [h, hslug]
  cases hget : getLinkForRead (pathValue context "slug") w.links with
  | mk found st =>
    rw [hget] at hidem
    cases found with
    | none => rfl
    | some l => simp only [hidem]

/-- **The API handlers answer with the outcome of their command.** -/
theorem run_of_command {handler : Handler} {c : Command} (h : handler.command call context = some c) :
    ∃ status show_, (status = 200 ∨ status = 201) ∧ ∀ w,
      handler.run call context w = answerView call status show_ w (c.exec call.config call.env w.links) := by
  cases handler with
  | patchLink =>
    obtain ⟨command, hbody, rfl⟩ := Option.map_eq_some_iff.1 h
    exact ⟨200, serializeLinkViewJson, .inl rfl, fun _ => handlePatchLink_eq (toOption_eq_some hbody)⟩
  | createLink =>
    obtain ⟨command, hbody, rfl⟩ := Option.map_eq_some_iff.1 h
    exact ⟨201, serializeLinkViewJson, .inr rfl, fun _ => createLinkFromRequest_eq (toOption_eq_some hbody)⟩
  | compatCreateLink =>
    obtain ⟨command, hbody, rfl⟩ := Option.map_eq_some_iff.1 h
    exact ⟨201, serializeLinkViewJson, .inr rfl, fun _ => createLinkFromRequest_eq (toOption_eq_some hbody)⟩
  | previewLink => cases h; exact ⟨200, serializeLinkPreviewJson, .inl rfl, fun _ => rfl⟩
  | getLinkById => cases h; exact ⟨200, serializeLinkViewJson, .inl rfl, fun _ => rfl⟩
  | getLinkBySlug => cases h; exact ⟨200, serializeLinkViewJson, .inl rfl, fun _ => rfl⟩
  | compatGetLinkBySlug => cases h; exact ⟨200, serializeLinkViewJson, .inl rfl, fun _ => rfl⟩
  | enableLink => cases h; exact ⟨200, serializeLinkViewJson, .inl rfl, fun _ => rfl⟩
  | disableLink => cases h; exact ⟨200, serializeLinkViewJson, .inl rfl, fun _ => rfl⟩
  | restoreLink => cases h; exact ⟨200, serializeLinkViewJson, .inl rfl, fun _ => rfl⟩
  | deleteLink => cases h; exact ⟨200, serializeLinkViewJson, .inl rfl, fun _ => rfl⟩
  | healthz => cases h
  | readyz => cases h
  | metrics => cases h
  | placeholderFeature => cases h
  | linkStats => cases h
  | prefixedRedirect => cases h
  | rootRedirect => cases h
  | fallbackUriStore => cases h

theorem answerView_not_redirects {status : ℕ} {show_ : LinkView → Str} {r : Result LinkView × LinkStore}
    (hs : status = 200 ∨ status = 201) : ¬ (answerView call status show_ w r).1.Redirects := by
  unfold answerView
  simp only
  split
  · exact appErrorResponse_not_redirects call _
  · unfold Response.Redirects
    rw [makeResponse_status]
    omega

/-! ## Handlers that issue none -/

/-- A handler without a command, other than the two redirect handlers, leaves the catalog alone. -/
theorem run_quiet (h : Represents w.links cat) {handler : Handler} (hc : handler.command call context = none)
    (hroot : handler ≠ .rootRedirect) (hpre : handler ≠ .prefixedRedirect) :
    Represents (handler.run call context w).2.links cat ∧ ¬ (handler.run call context w).1.Redirects := by
  have hread := fun slug => (h.getLinkForRead slug).2
  cases handler with
  | healthz => exact ⟨h, by simp [Handler.run, handleHealthz, Response.Redirects]⟩
  | readyz => exact ⟨h, by simp [Handler.run, handleReadyz, Response.Redirects]⟩
  | metrics => exact ⟨h, by simp [Handler.run, handleMetrics, Response.Redirects]⟩
  | rootRedirect => exact absurd rfl hroot
  | prefixedRedirect => exact absurd rfl hpre
  | fallbackUriStore =>
    simp only [Handler.run, handleFallbackUriStore]
    split
    · exact ⟨h, by simp [Response.Redirects]⟩
    · rw [handleApplicationRequest_links]
      exact ⟨h, handleApplicationRequest_not_redirects call w⟩
  | placeholderFeature =>
    simp only [Handler.run, handlePlaceholderFeature]
    have hr := hread (pathValue context "slug")
    split <;> (rename_i heq; rw [heq] at hr; exact ⟨hr, by simp [linkNotFound, Response.Redirects]⟩)
  | linkStats =>
    simp only [Handler.run, handleLinkStats]
    split
    · split
      · exact ⟨h, appErrorResponse_not_redirects call _⟩
      · exact ⟨h, by simp [Response.Redirects]⟩
    · have hr := hread (pathValue context "slug")
      split <;> (rename_i heq; rw [heq] at hr; exact ⟨hr, by simp [linkNotFound, Response.Redirects]⟩)
  | createLink =>
    obtain ⟨e, hbody⟩ := toOption_eq_none (Option.map_eq_none_iff.1 hc)
    simp only [Handler.run, handleCreateLink, createLinkFromRequest, hbody]
    exact ⟨h, by simp [Response.Redirects]⟩
  | compatCreateLink =>
    obtain ⟨e, hbody⟩ := toOption_eq_none (Option.map_eq_none_iff.1 hc)
    simp only [Handler.run, handleCompatCreateLink, createLinkFromRequest, hbody]
    exact ⟨h, by simp [Response.Redirects]⟩
  | patchLink =>
    obtain ⟨e, hbody⟩ := toOption_eq_none (Option.map_eq_none_iff.1 hc)
    -- the link is looked up before the body is parsed
    have hr : Represents
        (getLink call.config call.env ⟨.slug, pathValue context "slug"⟩ w.links).2 cat :=
      (getLink_effect h (.inl rfl)).2
    simp only [Handler.run, handlePatchLink, hbody]
    split
    · rename_i heq
      rw [heq] at hr
      exact ⟨hr, appErrorResponse_not_redirects call _⟩
    · rename_i heq
      rw [heq] at hr
      exact ⟨hr, by simp [Response.Redirects]⟩
  | previewLink => cases hc
  | getLinkById => cases hc
  | getLinkBySlug => cases hc
  | compatGetLinkBySlug => cases hc
  | enableLink => cases hc
  | disableLink => cases hc
  | restoreLink => cases hc
  | deleteLink => cases hc

/-- Only the two redirect handlers redirect. -/
theorem run_not_redirects (h : Represents w.links cat) {handler : Handler} (hroot : handler ≠ .rootRedirect)
    (hpre : handler ≠ .prefixedRedirect) : ¬ (handler.run call context w).1.Redirects := by
  cases hc : handler.command call context with
  | none => exact (run_quiet h hc hroot hpre).2
  | some c =>
    obtain ⟨status, show_, hs, hrun⟩ := run_of_command hc
    rw [hrun]
    exact answerView_not_redirects hs

/-- **The handlers of the API touch the links only**: whatever the URI store is, the answer and the links are the
same, and the rest stays. -/
theorem run_links_only {handler : Handler} (hroot : handler ≠ .rootRedirect) (hpre : handler ≠ .prefixedRedirect)
    (hfallback : handler ≠ .fallbackUriStore) (w : World) (m : UriMap) :
    handler.run call context { w with uris := m } =
      ((handler.run call context w).1, { w with uris := m, links := (handler.run call context w).2.links }) := by
  cases hc : handler.command call context with
  | some c =>
    obtain ⟨status, show_, -, hrun⟩ := run_of_command hc
    rw [hrun, hrun]
    rfl
  | none =>
    cases handler with
    | rootRedirect => exact absurd rfl hroot
    | prefixedRedirect => exact absurd rfl hpre
    | fallbackUriStore => exact absurd rfl hfallback
    | placeholderFeature =>
      simp only [Handler.run, handlePlaceholderFeature]
      split <;> rfl
    | linkStats =>
      simp only [Handler.run, handleLinkStats]
      split <;> split <;> rfl
    | patchLink =>
      simp only [Handler.run, handlePatchLink]
      split
      · rfl
      · split <;> rfl
    | createLink =>
      simp only [Handler.run, handleCreateLink, createLinkFromRequest]
      split <;> rfl
    | compatCreateLink =>
      simp only [Handler.run, handleCompatCreateLink, createLinkFromRequest]
      split <;> rfl
    | _ => rfl

/-! ## Redirects -/

/-- `GET /{slug}` without a query, or `GET /r/{slug}`. -/
def RedirectRequest (call : Call) (slug : Str) : Prop :=
  call.req.method = .get ∧
    ((pathSegments call.req.target = [slug] ∧ queryOf call.req.target = []) ∨
      pathSegments call.req.target = ["r".toList, slug])

/-- A request determines the slug it asks for. -/
theorem RedirectRequest.slug_unique {s s' : Str} (h : RedirectRequest call s) (h' : RedirectRequest call s') :
    s = s' := by
  obtain ⟨-, ⟨h, -⟩ | h⟩ := h <;> obtain ⟨-, ⟨h', -⟩ | h'⟩ := h' <;> simp_all

theorem countRedirect_version (l : Link) (now : TimePoint) : Version l (countRedirect l now) :=
  ⟨rfl, rfl, rfl, rfl, rfl⟩

theorem linkStateError_links (slug : Str) (link : Option Link) :
    (linkStateError call slug link w).2.links = w.links := by
  unfold linkStateError
  simp only
  split <;> simp

theorem linkStateError_not_redirects (slug : Str) (link : Option Link) :
    ¬ (linkStateError call slug link w).1.Redirects := by
  unfold linkStateError Response.Redirects
  simp only
  split <;> simp

/-- **Serving the slug of an active link** redirects to its target and counts the redirect. -/
theorem serveLink_active (h : Represents w.links cat) {l : Link} (hl : cat.link l.slug = some l)
    (hactive : resolveLinkStatus l (call.env.clock 0) = .active) :
    (serveLink call l.slug w).1 = redirectResponse call l (redirectStatusFor l) ∧
      Represents (serveLink call l.slug w).2.links
        (cat.replace l (countRedirect l (call.env.clock 1)) hl (countRedirect_version l _).id
          (countRedirect_version l _).slug) := by
  obtain ⟨hread, hst⟩ := h.getLinkForRead l.slug
  unfold serveLink
  cases hget : getLinkForRead l.slug w.links with
  | mk found st =>
    rw [hget] at hread hst
    obtain rfl : found = some l := hread.trans hl
    have hv := countRedirect_version l (call.env.clock 1)
    obtain ⟨st', hup, hst'⟩ := hst.update hl hv.id hv.slug
    simpa [hactive, passwordGuardCheck, rateLimitGuardAllow, incrementRedirectStats, hup] using hst'

/-- Serving any other slug is an error and changes nothing. -/
theorem serveLink_inactive (h : Represents w.links cat) {slug : Str}
    (hinactive : ∀ l, cat.link slug = some l → resolveLinkStatus l (call.env.clock 0) ≠ .active) :
    ¬ (serveLink call slug w).1.Redirects ∧ Represents (serveLink call slug w).2.links cat := by
  obtain ⟨hread, hst⟩ := h.getLinkForRead slug
  unfold serveLink
  cases hget : getLinkForRead slug w.links with
  | mk found st =>
    rw [hget] at hread hst
    cases found with
    | none =>
      simp only [linkStateError_links]
      exact ⟨linkStateError_not_redirects _ _, hst⟩
    | some l =>
      simp only [if_pos (hinactive l hread.symm), linkStateError_links]
      exact ⟨linkStateError_not_redirects _ _, hst⟩

/-! ## Operations -/

/-- The answer is a redirect. -/
def Answer.Redirects : Answer → Prop
  | .result _ => False
  | .response res => res.Redirects

/-- **Everything an operation can do** to the catalog, with the answer it gives. -/
inductive Effect (op : Op) (w : World) (cat : Catalog) : Answer → Catalog → Prop
  | quiet (a : Answer) (hcommand : op.command? = none) (ha : ¬ a.Redirects) : Effect op w cat a cat
  | command (a : Answer) (config : ServerConfig) (env : Env) (c : Command) (cat' : Catalog)
      (hcommand : op.command? = some (config, env, c)) (ha : ¬ a.Redirects)
      (he : c.Effect config env w.links cat (c.exec config env w.links).1 cat') : Effect op w cat a cat'
  | redirect (call : Call) (l : Link) (hop : op = .request call) (hcommand : op.command? = none)
      (hreq : RedirectRequest call l.slug) (hl : cat.link l.slug = some l)
      (hactive : resolveLinkStatus l (call.env.clock 0) = .active) :
      Effect op w cat (.response (redirectResponse call l (redirectStatusFor l)))
        (cat.replace l (countRedirect l (call.env.clock 1)) hl (countRedirect_version l _).id
          (countRedirect_version l _).slug)

theorem command_of_dispatch {handler : Handler}
    (hd : dispatch applicationRoutes call.req.method call.req.target = .invoke handler context) :
    (Op.request call).command? = (handler.command call context).map fun c => (call.config, call.env, c) := by
  simp only [Op.command?, hd]

/-- A request that executes a command is answered with the outcome of it. -/
theorem request_of_command {config : ServerConfig} {env : Env} {c : Command}
    (h : (Op.request call).command? = some (config, env, c)) :
    ∃ status show_, (status = 200 ∨ status = 201) ∧ ∀ w,
      handleShortenerRequest call w = answerView call status show_ w (c.exec config env w.links) := by
  cases hd : dispatch applicationRoutes call.req.method call.req.target with
  | error status code message =>
    simp only [Op.command?, hd] at h
    cases h
  | invoke handler context =>
    rw [command_of_dispatch hd, Option.map_eq_some_iff] at h
    obtain ⟨c', hc, heq⟩ := h
    cases heq
    obtain ⟨status, show_, hs, hrun⟩ := run_of_command hc
    exact ⟨status, show_, hs, fun w => (handle_invoke hd).trans (hrun w)⟩

/-- The handlers that issue commands have patterns of three segments or more. -/
theorem command_route_length : ∀ r ∈ applicationRoutes, 3 ≤ (splitPath r.pathPattern).length ∨
    r.handler = .healthz ∨ r.handler = .readyz ∨ r.handler = .metrics ∨ r.handler = .prefixedRedirect ∨
      r.handler = .rootRedirect ∨ r.handler = .fallbackUriStore := by
  decide +kernel

/-- A redirect request executes no command. -/
theorem RedirectRequest.command_eq_none {slug : Str} (h : RedirectRequest call slug) :
    (Op.request call).command? = none := by
  cases hd : dispatch applicationRoutes call.req.method call.req.target with
  | error status code message => simp only [Op.command?, hd]
  | invoke handler context =>
    rw [command_of_dispatch hd]
    obtain ⟨r, hr, rfl, -, -, matched, hm, -⟩ := dispatch_invoke hd
    have hsegments : (pathSegments call.req.target).length ≤ 2 := by
      rcases h.2 with ⟨hseg, -⟩ | hseg <;> simp [hseg]
    have hlen := matchPath_length hm
    rcases command_route_length r hr with hlong | hh | hh | hh | hh | hh | hh
    · omega
    all_goals rw [hh]; rfl

/-- Serving a slug redirects to its link if that is active, and changes nothing otherwise. -/
theorem serveLink_effect (h : Represents w.links cat) {slug : Str}
    (hcommand : (Op.request call).command? = none) (hreq : RedirectRequest call slug) :
    ∃ cat', Effect (.request call) w cat (.response (serveLink call slug w).1) cat' ∧
      Represents (serveLink call slug w).2.links cat' := by
  by_cases hex : ∃ l, cat.link slug = some l ∧ resolveLinkStatus l (call.env.clock 0) = .active
  · obtain ⟨l, hl, hactive⟩ := hex
    have hslug := cat.slug_eq hl
    rw [← hslug] at hl hreq ⊢
    obtain ⟨hres, hst⟩ := serveLink_active h hl hactive
    rw [hres]
    exact ⟨_, .redirect call l rfl hcommand hreq hl hactive, hst⟩
  · obtain ⟨hres, hst⟩ := serveLink_inactive h fun l hl hactive => hex ⟨l, hl, hactive⟩
    exact ⟨cat, .quiet _ hcommand hres, hst⟩

/-- The two redirect handlers serve the slug of a redirect request or change nothing. -/
theorem run_redirect (h : Represents w.links cat) {handler : Handler}
    (hd : dispatch applicationRoutes call.req.method call.req.target = .invoke handler context)
    (hh : handler = .rootRedirect ∨ handler = .prefixedRedirect) :
    ∃ cat', Effect (.request call) w cat (.response (handler.run call context w).1) cat' ∧
      Represents (handler.run call context w).2.links cat' := by
  have hcommand : (Op.request call).command? = none := by
    rw [command_of_dispatch hd]
    rcases hh with rfl | rfl <;> rfl
  rcases hh with rfl | rfl
  · obtain ⟨hmethod, hseg, hquery⟩ := rootRedirect_invoke hd
    -- a path that is no slug, or has a query, is left to the application
    have hfall : Effect (.request call) w cat (.response (handleApplicationRequest call w).1) cat ∧
        Represents (handleApplicationRequest call w).2.links cat := by
      rw [handleApplicationRequest_links]
      exact ⟨.quiet _ hcommand (handleApplicationRequest_not_redirects call w), h⟩
    simp only [Handler.run, handleRootRedirect]
    split
    · exact ⟨cat, hfall⟩
    · split
      · exact ⟨cat, hfall⟩
      · rename_i hq
        split
        · exact ⟨cat, hfall⟩
        · exact serveLink_effect h hcommand ⟨hmethod, .inl ⟨hseg, hquery.trans (not_not.1 hq)⟩⟩
  · obtain ⟨hmethod, hseg⟩ := prefixedRedirect_invoke hd
    simp only [Handler.run, handlePrefixedRedirect]
    split
    · refine ⟨cat, .quiet _ hcommand ?_, ?_⟩
      · simp [Answer.Redirects, Response.Redirects]
      · simpa using h
    · exact serveLink_effect h hcommand ⟨hmethod, .inr hseg⟩

theorem request_effect (h : Represents w.links cat) (call : Call) :
    ∃ cat', Effect (.request call) w cat (.response (handleShortenerRequest call w).1) cat' ∧
      Represents (handleShortenerRequest call w).2.links cat' := by
  unfold handleShortenerRequest
  split
  · rename_i handler context hd
    by_cases hh : handler = .rootRedirect ∨ handler = .prefixedRedirect
    · exact run_redirect h hd hh
    rw [not_or] at hh
    have hcmd := command_of_dispatch hd
    cases hc : handler.command call context with
    | none =>
      rw [hc] at hcmd
      obtain ⟨hst, hres⟩ := run_quiet h hc hh.1 hh.2
      exact ⟨cat, .quiet _ hcmd hres, hst⟩
    | some c =>
      rw [hc] at hcmd
      obtain ⟨status, show_, hs, hrun⟩ := run_of_command hc
      obtain ⟨cat', he, hst⟩ := exec_effect h c
      rw [hrun]
      exact ⟨cat', .command _ _ _ c cat' hcmd (answerView_not_redirects hs) he, hst⟩
  · rename_i status code message hd
    refine ⟨cat, .quiet _ ?_ ?_, h⟩
    · simp only [Op.command?, hd]
    · rcases dispatch_error hd with rfl | rfl <;> simp [Answer.Redirects, Response.Redirects]

/-- **Every operation has one of the listed effects**, and the new store represents the new catalog. -/
theorem step_effect (h : Represents w.links cat) (op : Op) :
    ∃ cat', Effect op w cat (step op w).1 cat' ∧ Represents (step op w).2.links cat' := by
  cases op with
  | command config env c =>
    obtain ⟨cat', he, hst⟩ := exec_effect h c
    exact ⟨cat', .command _ config env c cat' rfl not_false he, hst⟩
  | request call => exact request_effect h call

/-- **Everything an operation can do to one slug**: nothing, create its link, change it by a command, or
count a redirect. -/
theorem Effect.at_slug {op : Op} {a : Answer} {cat' : Catalog} (he : Effect op w cat a cat') (s : Str) :
    cat'.link s = cat.link s ∨
    (∃ config env command l, op.command? = some (config, env, .createLink command) ∧
      (createLink config env command w.links).1 = .ok (toView config l (env.clock 2)) ∧
      Built config env command w.links l ∧ l.slug = s ∧ cat.link s = none ∧ cat'.link s = some l) ∨
    (∃ c f now l l' view, c.change = some (s, f) ∧ Succeeds op w c view ∧ cat.link s = some l ∧
      f now l = .ok l' ∧ Edit l { l' with updatedAt := now } ∧
      cat'.link s = some { l' with updatedAt := now }) ∨
    (∃ call l, op = .request call ∧ op.command? = none ∧ RedirectRequest call s ∧
      a = .response (redirectResponse call l (redirectStatusFor l)) ∧ cat.link s = some l ∧
      cat'.link s = some (countRedirect l (call.env.clock 1))) := by
  cases he with
  | quiet _ _ _ => exact .inl rfl
  | command _ config env c cat' hcommand _ he =>
    cases hr : (c.exec config env w.links).1 with
    | error e =>
      rw [hr] at he
      cases he
      exact .inl rfl
    | ok view =>
      have hsucc : Succeeds op w c view := ⟨config, env, hcommand, hr⟩
      rw [hr] at he
      cases he with
      | read _ query l hc hl hq => exact .inl rfl
      | created command l hbuild hslug hid =>
        rw [Catalog.link_add]
        by_cases hs : s = l.slug
        · subst hs
          refine .inr (.inl ⟨config, env, command, l, hcommand, hr, buildLink_ok hbuild, rfl, hslug, ?_⟩)
          exact if_pos rfl
        · exact .inl (if_neg hs)
      | changed _ slug f l l' hc hl hslug hf he =>
        rw [Catalog.link_replace]
        by_cases hs : s = l.slug
        · subst hs
          subst hslug
          exact .inr (.inr (.inl ⟨c, f, _, l, l', _, hc, hsucc, hl, hf, he, if_pos rfl⟩))
        · exact .inl (if_neg hs)
  | redirect call l hop hcommand hreq hl _ =>
    rw [Catalog.link_replace]
    by_cases hs : s = l.slug
    · subst hs
      exact .inr (.inr (.inr ⟨call, l, hop, hcommand, hreq, rfl, hl, if_pos rfl⟩))
    · exact .inl (if_neg hs)

theorem worldAfter_concat (ops : List Op) (op : Op) : worldAfter (ops ++ [op]) = (step op (worldAfter ops)).2 :=
  after_append _ _ _

/-- **After every run the store represents a catalog.** -/
theorem run_represents (ops : List Op) : ∃ cat, Represents (worldAfter ops).links cat := by
  refine after_invariant (P := fun w : World => ∃ cat, Represents w.links cat) ?_ ⟨_, Represents.empty⟩ ops
  rintro op w ⟨cat, h⟩
  obtain ⟨cat', -, h'⟩ := step_effect h op
  exact ⟨cat', h'⟩

end UrlShortener

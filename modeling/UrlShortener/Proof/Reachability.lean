import UrlShortener.Proof.Validity

/-!
# Reaching a new link

* `dispatch_slug`: `GET` of a slug goes to the root redirect unless the slug is the name of a service
  endpoint.
* `created_reachable_iff`: **a new link is served at its short URL exactly when its slug is not `healthz`
  or `readyz` and, if it was generated, has 3 to 64 characters.**
-/

namespace UrlShortener

open Text

variable {config : ServerConfig} {env : Env} {command : CreateLinkCommand} {st : LinkStore} {slug : Str}

/-! ## Accepted slugs -/

theorem slugChars_alphanum : ∀ c ∈ slugChars, c.isAlphanum = true :=
  List.all_eq_true.1 (by decide)

theorem length_generateSlug (n : ℕ) (draws : Draws) : (generateSlug n draws).length = n := by
  simp [generateSlug]

theorem generateSlug_alphanum (n : ℕ) (draws : Draws) : ∀ c ∈ generateSlug n draws, c.isAlphanum = true := by
  intro c hc
  obtain ⟨i, -, rfl⟩ := List.mem_map.1 hc
  exact slugChars_alphanum _ (List.get_mem _ _)

/-- An explicit slug is valid; a generated one is made of letters and digits and has the configured
length. -/
theorem chooseSlug_ok (h : chooseSlug config env command st = .ok slug) :
    (command.slug = some slug ∧ isValidSlug slug = true) ∨
    (command.slug = none ∧ slug.length = config.shortenerGeneratedSlugLength.toNat ∧
      ∀ c ∈ slug, c.isAlphanum = true) := by
  unfold chooseSlug at h
  split at h
  · rename_i s hs
    split at h
    · cases h
    rename_i hv
    split at h
    · cases h
    split at h
    · cases h
    cases h
    exact .inl ⟨hs, by simpa using hv⟩
  · rename_i hnone
    split at h
    · rename_i s hgen
      cases h
      obtain ⟨attempt, -, rfl⟩ := List.mem_map.1 (List.mem_of_find?_eq_some hgen)
      exact .inr ⟨hnone, length_generateSlug _ _, generateSlug_alphanum _ _⟩
    · cases h

theorem isValidSlug_chars (h : isValidSlug slug = true) : ∀ c ∈ slug, isSlugChar c = true := by
  cases slug with
  | nil => simp
  | cons c rest =>
    simp only [isValidSlug, Bool.and_eq_true, List.all_eq_true] at h
    obtain ⟨⟨⟨hc, hrest⟩, -⟩, -⟩ := h
    intro d hd
    rcases List.mem_cons.1 hd with rfl | hd
    · simp [isSlugChar, hc]
    · exact hrest d hd

theorem isValidSlug_of_alphanum (h : ∀ c ∈ slug, c.isAlphanum = true) :
    isValidSlug slug = true ↔ 3 ≤ slug.length ∧ slug.length ≤ 64 := by
  cases slug with
  | nil => simp [isValidSlug]
  | cons c rest =>
    have hrest : rest.all isSlugChar = true := by
      rw [List.all_eq_true]
      intro d hd
      simp [isSlugChar, h d (List.mem_cons_of_mem _ hd)]
    simp only [isValidSlug, h c List.mem_cons_self, hrest, Bool.true_and, Bool.and_eq_true, decide_eq_true_eq,
      List.length_cons]
    omega

/-- Whether an accepted slug passes the check of the redirect handler. -/
theorem chooseSlug_isValidSlug (h : chooseSlug config env command st = .ok slug) :
    isValidSlug slug = true ↔ (command.slug = none → 3 ≤ config.shortenerGeneratedSlugLength.toNat ∧
      config.shortenerGeneratedSlugLength.toNat ≤ 64) := by
  rcases chooseSlug_ok h with ⟨hs, hv⟩ | ⟨hs, hlen, halnum⟩
  · simp [hs, hv]
  · rw [isValidSlug_of_alphanum halnum, hlen]
    simp [hs]

theorem chooseSlug_chars (h : chooseSlug config env command st = .ok slug) :
    ∀ c ∈ slug, isSlugChar c = true := by
  rcases chooseSlug_ok h with ⟨-, hv⟩ | ⟨-, -, halnum⟩
  · exact isValidSlug_chars hv
  · intro c hc
    simp [isSlugChar, halnum c hc]

/-! ## Routing -/

theorem target_of_slug (hchars : ∀ c ∈ slug, isSlugChar c = true) (hne : slug ≠ []) :
    pathSegments ('/' :: slug) = [slug] ∧ queryOf ('/' :: slug) = [] := by
  have hslash : '/' ∉ slug := fun hc => absurd (hchars _ hc) (by decide)
  have hquery : '?' ∉ '/' :: slug := by
    intro hc
    rcases List.mem_cons.1 hc with hc | hc
    · cases hc
    · exact absurd (hchars _ hc) (by decide)
  have hsplit : splitQuery ('/' :: slug) = ('/' :: slug, []) := by
    simp [splitQuery, cut_singleton_none.2 hquery]
  have hdrop : ('/' :: slug).dropWhile (· == '/') = slug := by
    obtain ⟨c, rest, rfl⟩ := List.exists_cons_of_ne_nil hne
    have hc : c ≠ '/' := fun he => hslash (he ▸ List.mem_cons_self)
    simp [hc]
  refine ⟨?_, by simp [queryOf, hsplit]⟩
  simp [pathSegments, hsplit, splitPath, hdrop, List.splitOn_eq_singleton hslash, hne]

/-- The names of the service endpoints, which are single literal segments. -/
def serviceNames : List Str := ["healthz", "readyz", "metrics"]

/-- **`GET` of a slug goes to the root redirect**, unless the slug is the name of a service endpoint. -/
theorem dispatch_slug (hchars : ∀ c ∈ slug, isSlugChar c = true) (hne : slug ≠ [])
    (hservice : slug ∉ serviceNames) :
    ∃ context, dispatch applicationRoutes .get ('/' :: slug) = .invoke .rootRedirect context ∧
      pathValue context "slug" = slug ∧ context.queryString = [] := by
  obtain ⟨hseg, hquery⟩ := target_of_slug hchars hne
  have hmatch := matchPath_single hseg hne
  have hroutes : applicationRoutes = applicationRoutes.take 18 ++
      route .get "/\x7bslug\x7d" "redirect_root" .rootRedirect :: applicationRoutes.drop 19 := rfl
  -- the routes before it have several segments or are service names; those after it are captures
  have hpre : ∀ r ∈ applicationRoutes.take 18, 2 ≤ (splitPath r.pathPattern).length ∨
      ∃ name ∈ serviceNames, splitPath r.pathPattern = [name] ∧ isCaptureSegment name = false := by
    decide +kernel
  have hpost : ∀ r ∈ applicationRoutes.drop 19, splitPath r.pathPattern = [] ∨
      pathSpecificity r.pathPattern = 0 := by
    decide +kernel
  have hslug : splitPath "/\x7bslug\x7d" = ["\x7bslug\x7d"] := by decide
  have hroot : matchPath "/\x7bslug\x7d" ('/' :: slug) =
      some { pathParams := (∅ : UnorderedMap Str Str).insert "slug" slug } := by
    rw [hmatch, hslug, hquery]
    rfl
  have hpre' : ∀ r ∈ applicationRoutes.take 18, matchPath r.pathPattern ('/' :: slug) = none := by
    intro r hr
    rw [hmatch]
    rcases hpre r hr with hlen | ⟨name, hname, hsplit, hlit⟩
    · match splitPath r.pathPattern, hlen with
      | p :: q :: ps, _ => rfl
    · have hdiff : name ≠ slug := fun he => hservice (he ▸ hname)
      simp [hsplit, hlit, hdiff]
  have hpost' : ∀ r ∈ applicationRoutes.drop 19, matchPath r.pathPattern ('/' :: slug) = none ∨
      pathSpecificity r.pathPattern ≤ 0 := by
    intro r hr
    rcases hpost r hr with hnil | hzero
    · exact .inl (by rw [hmatch, hnil])
    · exact .inr hzero.le
  refine ⟨_, hroutes ▸ dispatch_first (r := route .get "/\x7bslug\x7d" "redirect_root" .rootRedirect)
    hpre' hroot rfl hpost', by simp [pathValue, pathParam], rfl⟩

/-! ## New links -/

/-- What a request for a slug does, when the slug is not the name of a service endpoint. -/
theorem handle_slug {call : Call} {w : World} (hmethod : call.req.method = .get)
    (htarget : call.req.target = '/' :: slug) (hchars : ∀ c ∈ slug, isSlugChar c = true) (hne : slug ≠ [])
    (hservice : slug ∉ serviceNames) :
    handleShortenerRequest call w =
      if isValidSlug slug then serveLink call slug w else handleApplicationRequest call w := by
  obtain ⟨context, hd, hvalue, hquery⟩ := dispatch_slug hchars hne hservice
  unfold handleShortenerRequest
  rw [hmethod, htarget, hd]
  simp only [Handler.run, handleRootRedirect, hmethod, hvalue, hquery]
  cases isValidSlug slug <;> simp

/-- The service endpoints and the root do not redirect. -/
theorem service_not_redirects {call : Call} {w : World} {cat : Catalog} (h : Represents w.links cat)
    (hmethod : call.req.method = .get) (htarget : call.req.target = '/' :: slug)
    (hslug : slug = [] ∨ slug ∈ serviceNames) : ¬ (handleShortenerRequest call w).1.Redirects := by
  have hroute : ∀ s ∈ [] :: serviceNames, ∃ handler context,
      dispatch applicationRoutes .get ('/' :: s) = .invoke handler context ∧
        handler ≠ .rootRedirect ∧ handler ≠ .prefixedRedirect := by
    simp only [serviceNames, List.mem_cons, List.not_mem_nil, or_false]
    rintro s (rfl | rfl | rfl | rfl) <;> exact ⟨_, _, rfl, by decide, by decide⟩
  obtain ⟨handler, context, hd, hroot, hpre⟩ := hroute slug (List.mem_cons.2 hslug)
  unfold handleShortenerRequest
  rw [hmethod, htarget, hd]
  exact run_not_redirects h hroot hpre

/-- The link that a successful `CreateLink` adds. -/
theorem createLink_ok {ops : List Op} {view : LinkView}
    (hok : (createLink config env command (worldAfter ops).links).1 = .ok view) :
    ∃ cat l, Represents (createLink config env command (worldAfter ops).links).2 cat ∧
      cat.link l.slug = some l ∧ Built config env command (worldAfter ops).links l ∧
      view = toView config l (env.clock 2) := by
  obtain ⟨cat, h⟩ := run_represents ops
  obtain ⟨cat', he, h'⟩ : ∃ cat', Command.Effect config env _ cat (.createLink command) _ cat' ∧ _ :=
    createLink_effect h command
  rw [hok] at he
  generalize hview : (Except.ok view : Result LinkView) = r at he
  cases he with
  | refused _ _ => cases hview
  | read _ query l hc _ _ => rcases hc with hc | hc <;> cases hc
  | changed _ _ _ _ _ hc _ _ _ _ => cases hc
  | created _ l hbuild hslug hid =>
    refine ⟨_, l, h', ?_, buildLink_ok hbuild, by cases hview; rfl⟩
    rw [Catalog.link_add, if_pos rfl]

/-- **When a new link is served at its short URL.** -/
theorem created_reachable_iff (ops : List Op) (config : ServerConfig) (env : Env)
    (command : CreateLinkCommand) (view : LinkView) (call : Call)
    (hok : (createLink config env command (worldAfter ops).links).1 = .ok view)
    (henabled : view.enabled = true) (hexpired : isExpired view.expiresAt (call.env.clock 0) = false)
    (hmethod : call.req.method = .get) (htarget : call.req.target = '/' :: view.slug) :
    ((handleShortenerRequest call
        (step (.command config env (.createLink command)) (worldAfter ops)).2).1.Redirects ∧
      (handleShortenerRequest call
        (step (.command config env (.createLink command)) (worldAfter ops)).2).1.location =
          some view.targetUrl) ↔
    (call.req.target ≠ "/healthz" ∧ call.req.target ≠ "/readyz" ∧
      (command.slug = none → 3 ≤ config.shortenerGeneratedSlugLength.toNat ∧
        config.shortenerGeneratedSlugLength.toNat ≤ 64)) := by
  obtain ⟨cat, l, h, hl, hbuilt, rfl⟩ := createLink_ok hok
  set w := (step (.command config env (.createLink command)) (worldAfter ops)).2
  have hw : Represents w.links cat := h
  have hslug : (toView config l (env.clock 2)).slug = l.slug := rfl
  rw [hslug] at htarget
  have hchars := chooseSlug_chars hbuilt.slug
  have hactive : resolveLinkStatus l (call.env.clock 0) = .active := by
    have hen : l.enabled = true := henabled
    have hex : isExpired l.expiresAt (call.env.clock 0) = false := hexpired
    simp [resolveLinkStatus, hbuilt.deletedAt, hen, hex]
  -- of the three service names only this one is reserved
  have hmetrics : l.slug ≠ "metrics" := by
    intro he
    have := chooseSlug_not_reserved hbuilt.slug
    rw [he] at this
    revert this
    decide
  rw [← chooseSlug_isValidSlug hbuilt.slug, htarget]
  constructor
  · rintro ⟨hred, -⟩
    by_cases hservice : l.slug = [] ∨ l.slug ∈ serviceNames
    · exact absurd hred (service_not_redirects hw hmethod htarget hservice)
    · rw [not_or] at hservice
      rw [handle_slug hmethod htarget hchars hservice.1 hservice.2] at hred
      refine ⟨?_, ?_, ?_⟩
      · intro he
        exact hservice.2 (by rw [List.cons.inj he |>.2]; decide)
      · intro he
        exact hservice.2 (by rw [List.cons.inj he |>.2]; decide)
      · by_contra hinvalid
        rw [if_neg hinvalid] at hred
        exact handleApplicationRequest_not_redirects call w hred
  · rintro ⟨hhealth, hready, hvalid⟩
    have hne : l.slug ≠ [] := by
      intro he
      rw [he] at hvalid
      cases hvalid
    have hservice : l.slug ∉ serviceNames := by
      simp only [serviceNames, List.mem_cons, List.not_mem_nil, or_false, not_or]
      exact ⟨fun he => hhealth (he ▸ rfl), fun he => hready (he ▸ rfl), hmetrics⟩
    rw [handle_slug hmethod htarget hchars hne hservice, if_pos hvalid, (serveLink_active hw hl hactive).1]
    exact ⟨redirectResponse_redirects call l, redirectResponse_location _ _ _⟩

/-- Ask for a link with an explicit slug. -/
def sampleCreate (slug : String) : CreateLinkCommand :=
  { targetUrl := "http://example.com", slug := some slug.toList }

theorem created_reachable_iff_sample :
    ∃ view, (createLink {} .still (sampleCreate "abc") (worldAfter []).links).1 = .ok view ∧
      (handleShortenerRequest sampleGet
        (step (.command {} .still (.createLink (sampleCreate "abc"))) (worldAfter [])).2).1.Redirects :=
  ⟨_, rfl, ((created_reachable_iff [] {} .still (sampleCreate "abc") _ sampleGet rfl rfl rfl rfl rfl).2
    ⟨by decide, by decide, by decide⟩).1⟩

/-- The slug `healthz` is accepted, but a request for it reaches the health check. -/
theorem healthz_not_reachable :
    ∃ view, (createLink {} .still (sampleCreate "healthz") (worldAfter []).links).1 = .ok view ∧
      view.enabled = true ∧ isExpired view.expiresAt 0 = false ∧ view.slug = "healthz" ∧
      (handleShortenerRequest
        { config := {}, env := .still, req := { method := .get, target := '/' :: view.slug } }
        (step (.command {} .still (.createLink (sampleCreate "healthz"))) (worldAfter [])).2).1.status = 200 :=
  ⟨_, rfl, rfl, rfl, rfl, rfl⟩

end UrlShortener

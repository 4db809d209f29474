import UrlShortener.Proof.Requests

/-!
# The URI store and the reserved paths

The router works on segments and drops leading slashes, and the guard of the fallback handler compares
the text of the path. `isReserved_iff` says where the two agree.

* `run_uris`: only the fallback and the root redirect look at the URI store.
* `reserved_untouched_iff`: **a request for two or more segments under `api` or `r` leaves the URI store
  alone exactly if** its path begins with one slash, or a route with a literal segment matches it, or its
  method is none that the fallback has.
* `slashes_reach_uris`: `GET //api/x` is answered from the URI store.
-/

namespace UrlShortener

variable {call : Call} {context : RouteContext} {w : World} {target : Str}

/-- The request neither reads nor changes the URI store: whatever the store is, the answer and the rest of
the state are the same, and the store stays. -/
def UrisUntouched (call : Call) : Prop :=
  ∀ (w : World) (m : UriMap), handleShortenerRequest call { w with uris := m } =
    ((handleShortenerRequest call w).1, { (handleShortenerRequest call w).2 with uris := m })

/-! ## Handlers -/

theorem emitClickEvent_uris (slug : Str) (link : Option Link) (status : ℕ) (now : TimePoint) (m : UriMap) :
    emitClickEvent call slug link status now { w with uris := m } =
      { emitClickEvent call slug link status now w with uris := m } := by
  unfold emitClickEvent
  split <;> rfl

theorem linkStateError_uris (slug : Str) (link : Option Link) (m : UriMap) :
    linkStateError call slug link { w with uris := m } =
      ((linkStateError call slug link w).1, { (linkStateError call slug link w).2 with uris := m }) := by
  unfold linkStateError
  simp only [emitClickEvent_uris]
  split <;> rfl

theorem serveLink_uris (slug : Str) (m : UriMap) : serveLink call slug { w with uris := m } =
    ((serveLink call slug w).1, { (serveLink call slug w).2 with uris := m }) := by
  unfold serveLink
  simp only
  cases getLinkForRead slug w.links with
  | mk found st =>
    cases found with
    | none => exact linkStateError_uris (w := { w with links := st }) slug none m
    | some l =>
      simp only
      split
      · exact linkStateError_uris (w := { w with links := st }) slug (some l) m
      · split
        · rfl
        · exact Prod.ext rfl (emitClickEvent_uris
            (w := { w with links := incrementRedirectStats l (call.env.clock 1) st }) slug (some l) _ _ m)

/-- **Only two handlers look at the URI store.** -/
theorem run_uris {handler : Handler} (hroot : handler ≠ .rootRedirect) (hfallback : handler ≠ .fallbackUriStore)
    (w : World) (m : UriMap) : handler.run call context { w with uris := m } =
      ((handler.run call context w).1, { (handler.run call context w).2 with uris := m }) := by
  by_cases hpre : handler = .prefixedRedirect
  · subst hpre
    simp only [Handler.run, handlePrefixedRedirect]
    split
    · exact Prod.ext rfl (emitClickEvent_uris _ _ _ _ m)
    · exact serveLink_uris _ m
  · rw [run_links_only hroot hpre hfallback w m]
    have hself : handler.run call context w = _ := run_links_only hroot hpre hfallback w w.uris
    rw [hself]

/-! ## The text of a path and its segments -/

/-- The slashes a path begins with. -/
def leadingSlashes (path : Str) : ℕ := (path.takeWhile (· == '/')).length

/-- The path is in API or redirect space: two segments or more, the first of them `api` or `r`. -/
def InReservedSpace (target : Str) : Prop :=
  2 ≤ (pathSegments target).length ∧
    ((pathSegments target).head? = some "api".toList ∨ (pathSegments target).head? = some "r".toList)

/-- After its slashes, a path of two segments or more goes on with the first segment and a slash. -/
theorem path_eq_of_segments {path first second : Str} {rest : List Str}
    (h : splitPath path = first :: second :: rest) :
    ∃ tail, path = path.takeWhile (· == '/') ++ (first ++ '/' :: tail) := by
  unfold splitPath at h
  simp only at h
  split at h
  · cases h
  · refine ⟨List.intercalate ['/'] (second :: rest), ?_⟩
    have hjoin : ['/'].intercalate ((path.dropWhile (· == '/')).splitOn '/') = path.dropWhile (· == '/') :=
      List.intercalate_splitOn '/'
    rw [h] at hjoin
    calc path = path.takeWhile (· == '/') ++ path.dropWhile (· == '/') := (List.takeWhile_append_dropWhile).symm
      _ = _ := by rw [← hjoin]; simp [List.intercalate]

/-- **The guard of the fallback sees a reserved path** only if it begins with exactly one slash. -/
theorem isReserved_iff (h : InReservedSpace target) :
    isReservedFallbackPath target = true ↔ leadingSlashes (splitQuery target).1 = 1 := by
  obtain ⟨hlen, hhead⟩ := h
  unfold pathSegments at hlen hhead
  unfold isReservedFallbackPath leadingSlashes
  generalize (splitQuery target).1 = path at hlen hhead ⊢
  match hseg : splitPath path with
  | [] => simp [hseg] at hlen
  | [_] => simp [hseg] at hlen
  | first :: second :: rest =>
    obtain ⟨tail, hpath⟩ := path_eq_of_segments hseg
    have hfirst : first = "api" ∨ first = "r" := by simpa [hseg] using hhead
    have hslashes : path.takeWhile (· == '/') = List.replicate (path.takeWhile (· == '/')).length '/' :=
      List.eq_replicate_of_mem fun c hc => by simpa using List.mem_takeWhile_imp hc
    generalize (path.takeWhile (· == '/')).length = n at hslashes ⊢
    rw [hslashes] at hpath
    -- none, one, or more slashes before the first segment
    match n with
    | 0 => rcases hfirst with rfl | rfl <;> simp [hpath, startsWith]
    | 1 => rcases hfirst with rfl | rfl <;> simp [hpath, startsWith]
    | n + 2 => rcases hfirst with rfl | rfl <;> simp [hpath, startsWith, List.replicate_succ]

/-! ## Requests for reserved space -/

theorem fallback_routes : ∀ r ∈ applicationRoutes, r.handler = .fallbackUriStore →
    (r.method = .get ∨ r.method = .post ∨ r.method = .delete) ∧ pathSpecificity r.pathPattern = 0 := by
  decide +kernel

/-- A pattern without a literal segment leads to one of the two handlers that use the URI store. -/
theorem handler_of_captures : ∀ r ∈ applicationRoutes, pathSpecificity r.pathPattern = 0 →
    r.handler = .rootRedirect ∨ r.handler = .fallbackUriStore := by
  decide +kernel

/-- **Without a more specific route the fallback is invoked.** -/
theorem dispatch_fallback (hlen : 2 ≤ (pathSegments call.req.target).length)
    (hroutes : ∀ r ∈ applicationRoutes, (matchPath r.pathPattern call.req.target).isSome →
      pathSpecificity r.pathPattern = 0)
    (hmethod : call.req.method = .get ∨ call.req.method = .post ∨ call.req.method = .delete) :
    ∃ context, dispatch applicationRoutes call.req.method call.req.target =
      .invoke .fallbackUriStore context := by
  have hroute : route call.req.method "/\x7bpath\x7d" "redirect_root" .fallbackUriStore ∈ applicationRoutes := by
    rcases hmethod with h | h | h <;> simp [h, applicationRoutes]
  have hpath : (splitQuery call.req.target).1 ≠ [] ∧ (splitQuery call.req.target).1 ≠ ['/'] := by
    constructor <;> (intro h; rw [pathSegments, h] at hlen; revert hlen; decide)
  obtain ⟨handler, context, hd⟩ := dispatch_complete hroute rfl (matchPath_path (by omega) hpath.1 hpath.2)
    fun r hr hm => (hroutes r hr hm).trans_le (Nat.zero_le _)
  obtain ⟨r, hr, rfl, -, -, matched, hm, -⟩ := dispatch_invoke hd
  rcases handler_of_captures r hr (hroutes r hr (by rw [hm]; rfl)) with hh | hh
  · rw [hh] at hd
    obtain ⟨-, hseg, -⟩ := rootRedirect_invoke hd
    rw [hseg] at hlen
    simp at hlen
  · rw [hh] at hd
    exact ⟨context, hd⟩

/-- Two segments or more never reach the root redirect. -/
theorem not_rootRedirect {handler : Handler} (hlen : 2 ≤ (pathSegments call.req.target).length)
    (hd : dispatch applicationRoutes call.req.method call.req.target = .invoke handler context) :
    handler ≠ .rootRedirect := by
  rintro rfl
  obtain ⟨-, hseg, -⟩ := rootRedirect_invoke hd
  rw [hseg] at hlen
  simp at hlen

/-- What `handleApplicationRequest` does depends on the URI store, or changes it. -/
theorem handleApplicationRequest_touches
    (hmethod : call.req.method = .get ∨ call.req.method = .post ∨ call.req.method = .delete) :
    ∃ m, handleApplicationRequest call { uris := m } ≠
      ((handleApplicationRequest call {}).1, { (handleApplicationRequest call {}).2 with uris := m }) := by
  rcases hmethod with h | h | h
  · refine ⟨(∅ : UriMap).insert call.req.target ([], []), fun heq => ?_⟩
    have hstatus := congrArg (fun x : Response × World => x.1.status) heq
    simp [handleApplicationRequest, h, UriMap.getData] at hstatus
  · refine ⟨∅, fun heq => ?_⟩
    have huris := congrArg (fun x : Response × World => x.2.uris.lookup call.req.target) heq
    simp [handleApplicationRequest, h, UriMap.saveData] at huris
  · refine ⟨(∅ : UriMap).insert call.req.target ([], []), fun heq => ?_⟩
    have hstatus := congrArg (fun x : Response × World => x.1.status) heq
    simp [handleApplicationRequest, h, UriMap.deleteData] at hstatus

/-- **The URI store and reserved space.** A request for two or more segments under `api` or `r` neither
reads nor changes the URI store if and only if its path begins with exactly one slash, or a route with a
literal segment matches it, or its method is not `GET`, `POST` or `DELETE`. -/
theorem reserved_untouched_iff (call : Call) (h : InReservedSpace call.req.target) :
    UrisUntouched call ↔
      leadingSlashes (splitQuery call.req.target).1 = 1 ∨
      (∃ r ∈ applicationRoutes, 0 < pathSpecificity r.pathPattern ∧
        (matchPath r.pathPattern call.req.target).isSome) ∨
      (call.req.method ≠ .get ∧ call.req.method ≠ .post ∧ call.req.method ≠ .delete) := by
  rw [← isReserved_iff h]
  constructor
  · -- otherwise the fallback hands the request to the URI store
    intro huntouched
    by_contra hcond
    simp only [not_or, not_exists, not_and, Bool.not_eq_true] at hcond
    obtain ⟨hguard, hroutes, hmethod⟩ := hcond
    have hmethod : call.req.method = .get ∨ call.req.method = .post ∨ call.req.method = .delete := by
      by_contra hno
      simp only [not_or] at hno
      exact hmethod hno.1 hno.2.1 hno.2.2
    have hcaptures : ∀ r ∈ applicationRoutes, (matchPath r.pathPattern call.req.target).isSome →
        pathSpecificity r.pathPattern = 0 := by
      intro r hr hm
      by_contra hne
      rw [hroutes r hr (Nat.pos_of_ne_zero hne)] at hm
      cases hm
    obtain ⟨context, hd⟩ := dispatch_fallback h.1 hcaptures hmethod
    have hrun : ∀ w, handleShortenerRequest call w = handleApplicationRequest call w := by
      intro w
      rw [handle_invoke hd]
      simp only [Handler.run, handleFallbackUriStore, hguard, Bool.false_eq_true, if_false]
    obtain ⟨m, hm⟩ := handleApplicationRequest_touches hmethod
    have := huntouched {} m
    rw [hrun, hrun] at this
    exact hm this
  · intro hcond w m
    cases hd : dispatch applicationRoutes call.req.method call.req.target with
    | error status code message => rw [handle_error hd, handle_error hd]
    | invoke handler context =>
      rw [handle_invoke hd, handle_invoke hd]
      by_cases hfallback : handler = .fallbackUriStore
      · subst hfallback
        obtain ⟨r, hr, hh, hm, hbest, -⟩ := dispatch_invoke hd
        obtain ⟨hmethods, hspec⟩ := fallback_routes r hr hh
        rcases hcond with hguard | ⟨r', hr', hpos, hm'⟩ | ⟨hget, hpost, hdelete⟩
        · simp only [Handler.run, handleFallbackUriStore, hguard, if_true]
        · have := hbest r' hr' hm'
          omega
        · rw [hm] at hmethods
          exact (hmethods.elim hget fun h => h.elim hpost hdelete).elim
      · exact run_uris (not_rootRedirect h.1 hd) hfallback w m

/-- A `GET` with nothing but a target. -/
def getCall (target : String) : Call where
  config := {}
  env := .still
  req := { method := .get, target := target.toList }

theorem reserved_untouched_iff_sample : UrisUntouched (getCall "/api/x") :=
  (reserved_untouched_iff (getCall "/api/x") ⟨by decide, by decide⟩).2 (.inl (by decide))

/-- **`GET //api/x` is answered from the URI store**: with an entry under that target, and without one. -/
theorem slashes_reach_uris :
    InReservedSpace "//api/x" ∧
    (handleShortenerRequest (getCall "//api/x")
      { uris := (∅ : UriMap).insert "//api/x" ("body", "text/plain") }).1.body =
        "body\n" ∧
    (handleShortenerRequest (getCall "//api/x") {}).1.body = "URI not found\n" ∧
    ¬ UrisUntouched (getCall "//api/x") := by
  have hhit : (handleShortenerRequest (getCall "//api/x")
      { uris := (∅ : UriMap).insert "//api/x" ("body", "text/plain") }).1.body =
        "body\n" := by
    decide +kernel
  have hmiss : (handleShortenerRequest (getCall "//api/x") {}).1.body = "URI not found\n" := by
    decide +kernel
  refine ⟨⟨by decide, by decide⟩, hhit, hmiss, fun huntouched => ?_⟩
  have hsame := congrArg (fun x : Response × World => x.1.body)
    (huntouched {} ((∅ : UriMap).insert "//api/x" ("body", "text/plain")))
  simp only [hhit, hmiss] at hsame
  revert hsame
  decide +kernel

end UrlShortener

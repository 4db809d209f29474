import UrlShortener.Spec.Handlers

/-!
# Routing

* `dispatch_invoke`: a handler is invoked only through a route with the method of the request whose
  pattern matches, and no pattern that matches is more specific. `dispatch_complete` is the converse.
* `rootRedirect_invoke` and `prefixedRedirect_invoke`: which targets reach the redirect handlers, and
  with which slug.
-/

namespace UrlShortener

variable {H : Type} {routes : List (RouteEntry H)} {method : Verb} {target : Str}

theorem selectRoute_invoke {best : ℕ} {only : Verb} {multiple : Bool} {handler : H} {context : RouteContext}
    (h : selectRoute method target best routes only multiple = .inl (.invoke handler context)) :
    ∃ route ∈ routes, route.handler = handler ∧ route.method = method ∧
      pathSpecificity route.pathPattern = best ∧
      ∃ matched, matchPath route.pathPattern target = some matched ∧
        context = { matched with routeLabel := route.routeLabel } := by
  induction routes generalizing only multiple with
  | nil => simp [selectRoute] at h
  | cons route routes ih =>
    have hrest : ∀ {only multiple},
        selectRoute method target best routes only multiple = .inl (.invoke handler context) →
        ∃ r ∈ route :: routes, r.handler = handler ∧ r.method = method ∧
          pathSpecificity r.pathPattern = best ∧
          ∃ matched, matchPath r.pathPattern target = some matched ∧
            context = { matched with routeLabel := r.routeLabel } := by
      intro only multiple h
      obtain ⟨r, hr, h⟩ := ih h
      exact ⟨r, List.mem_cons_of_mem _ hr, h⟩
    unfold selectRoute at h
    split at h
    · exact hrest h
    · rename_i matched hm
      split at h
      · exact hrest h
      · rename_i hbest
        simp only at h
        split at h
        · exact hrest h
        · rename_i hmethod
          cases h
          exact ⟨route, List.mem_cons_self, rfl, not_not.1 hmethod, not_not.1 hbest, matched, hm, rfl⟩

theorem selectRoute_not_error {best : ℕ} {only : Verb} {multiple : Bool} {status : ℕ} {code message : Str} :
    selectRoute method target best routes only multiple ≠ .inl (.error status code message) := by
  induction routes generalizing only multiple with
  | nil => simp [selectRoute]
  | cons route routes ih =>
    unfold selectRoute
    split
    · exact ih
    · split
      · exact ih
      · simp only
        split
        · exact ih
        · simp

/-- A matching route with the method and the best specificity is found. -/
theorem selectRoute_complete {best : ℕ} {only : Verb} {multiple : Bool}
    (h : ∃ route ∈ routes, route.method = method ∧ pathSpecificity route.pathPattern = best ∧
      (matchPath route.pathPattern target).isSome) :
    ∃ handler context, selectRoute method target best routes only multiple = .inl (.invoke handler context) := by
  induction routes generalizing only multiple with
  | nil =>
    obtain ⟨r, hr, -⟩ := h
    cases hr
  | cons route routes ih =>
    obtain ⟨r, hr, hmethod, hbest, hm⟩ := h
    unfold selectRoute
    rcases List.mem_cons.1 hr with rfl | hr
    · obtain ⟨matched, hm⟩ := Option.isSome_iff_exists.1 hm
      simp only [hm, hbest, hmethod, ne_eq, not_true, if_false]
      exact ⟨_, _, rfl⟩
    · have hrest : ∀ {only multiple}, ∃ handler context,
          selectRoute method target best routes only multiple = .inl (.invoke handler context) :=
        ih ⟨r, hr, hmethod, hbest, hm⟩
      split
      · exact hrest
      · split
        · exact hrest
        · simp only
          split
          · exact hrest
          · exact ⟨_, _, rfl⟩

theorem bestSpecificity_concat (r : RouteEntry H) :
    bestSpecificity (routes ++ [r]) target =
      if (matchPath r.pathPattern target).isNone then bestSpecificity routes target
      else
        match bestSpecificity routes target with
        | none => some (pathSpecificity r.pathPattern)
        | some b => if b < pathSpecificity r.pathPattern then some (pathSpecificity r.pathPattern) else some b := by
  unfold bestSpecificity
  rw [List.foldl_append]
  rfl

/-- **The first loop finds the maximum** over the routes that match. -/
theorem bestSpecificity_max {r : RouteEntry H} (hr : r ∈ routes) (hm : (matchPath r.pathPattern target).isSome) :
    ∃ b, bestSpecificity routes target = some b ∧ pathSpecificity r.pathPattern ≤ b := by
  induction routes using List.reverseRecOn with
  | nil => cases hr
  | append_singleton routes last ih =>
    rw [bestSpecificity_concat]
    rcases List.mem_append.1 hr with hr | hr
    · obtain ⟨b, hb, hle⟩ := ih hr
      rw [hb]
      split
      · exact ⟨b, rfl, hle⟩
      · simp only
        split
        · exact ⟨_, rfl, by omega⟩
        · exact ⟨b, rfl, hle⟩
    · obtain rfl := List.mem_singleton.1 hr
      rw [if_neg (by simpa [Option.isSome_iff_ne_none] using hm)]
      split
      · exact ⟨_, rfl, le_rfl⟩
      · split
        · exact ⟨_, rfl, le_rfl⟩
        · exact ⟨_, rfl, by omega⟩

theorem bestSpecificity_attained {b : ℕ} (h : bestSpecificity routes target = some b) :
    ∃ r ∈ routes, (matchPath r.pathPattern target).isSome ∧ pathSpecificity r.pathPattern = b := by
  induction routes using List.reverseRecOn generalizing b with
  | nil => cases h
  | append_singleton routes last ih =>
    have hrest : ∀ b, bestSpecificity routes target = some b → ∃ r ∈ routes ++ [last],
        (matchPath r.pathPattern target).isSome ∧ pathSpecificity r.pathPattern = b := by
      intro b hb
      obtain ⟨r, hr, h⟩ := ih hb
      exact ⟨r, List.mem_append_left _ hr, h⟩
    have hlast : last ∈ routes ++ [last] := List.mem_append_right _ List.mem_cons_self
    rw [bestSpecificity_concat] at h
    split at h
    · exact hrest b h
    · rename_i hm
      have hm : (matchPath last.pathPattern target).isSome := by simpa [Option.isSome_iff_ne_none] using hm
      split at h
      · cases h
        exact ⟨last, hlast, hm, rfl⟩
      · rename_i b' hb'
        split at h
        · cases h
          exact ⟨last, hlast, hm, rfl⟩
        · cases h
          exact hrest _ hb'

/-- A route that matches and than which no other one that matches is more specific sets the maximum. -/
theorem bestSpecificity_eq {route : RouteEntry H} (hroute : route ∈ routes)
    (hm : (matchPath route.pathPattern target).isSome)
    (hbest : ∀ r ∈ routes, (matchPath r.pathPattern target).isSome →
      pathSpecificity r.pathPattern ≤ pathSpecificity route.pathPattern) :
    bestSpecificity routes target = some (pathSpecificity route.pathPattern) := by
  obtain ⟨b, hb, hle⟩ := bestSpecificity_max hroute hm
  obtain ⟨r, hr, hr', hspec⟩ := bestSpecificity_attained hb
  have hge := hbest r hr hr'
  have heq : b = pathSpecificity route.pathPattern := by omega
  rw [hb, heq]

/-- **A handler is invoked through one of its routes**, and no route that matches is more specific. -/
theorem dispatch_invoke {handler : H} {context : RouteContext}
    (h : dispatch routes method target = .invoke handler context) :
    ∃ route ∈ routes, route.handler = handler ∧ route.method = method ∧
      (∀ r ∈ routes, (matchPath r.pathPattern target).isSome →
        pathSpecificity r.pathPattern ≤ pathSpecificity route.pathPattern) ∧
      ∃ matched, matchPath route.pathPattern target = some matched ∧
        context = { matched with routeLabel := route.routeLabel } := by
  unfold dispatch at h
  simp only at h
  split at h
  · rename_i d hd
    subst h
    obtain ⟨route, hroute, hhandler, hmethod, hbest, hmatch⟩ := selectRoute_invoke hd
    refine ⟨route, hroute, hhandler, hmethod, fun r hr hm => ?_, hmatch⟩
    obtain ⟨b, hb, hle⟩ := bestSpecificity_max hr hm
    rw [hbest, hb]
    exact hle
  · split at h <;> cases h

/-- Some handler is invoked if a route with the method matches and no route that matches is more specific. -/
theorem dispatch_complete {route : RouteEntry H} (hroute : route ∈ routes) (hmethod : route.method = method)
    (hm : (matchPath route.pathPattern target).isSome)
    (hbest : ∀ r ∈ routes, (matchPath r.pathPattern target).isSome →
      pathSpecificity r.pathPattern ≤ pathSpecificity route.pathPattern) :
    ∃ handler context, dispatch routes method target = .invoke handler context := by
  have hb := bestSpecificity_eq hroute hm hbest
  obtain ⟨handler, context, hs⟩ : ∃ handler context,
      selectRoute method target (pathSpecificity route.pathPattern) routes .unknown false =
        .inl (.invoke handler context) :=
    selectRoute_complete ⟨route, hroute, hmethod, rfl, hm⟩
  exact ⟨handler, context, by simp only [dispatch, hb, Option.getD_some, hs]⟩

/-- A router error has status 400 or 404. -/
theorem dispatch_error {status : ℕ} {code message : Str}
    (h : dispatch routes method target = .error status code message) : status = 400 ∨ status = 404 := by
  unfold dispatch at h
  simp only at h
  split at h
  · rename_i d hd
    subst h
    exact absurd hd selectRoute_not_error
  · split at h <;> cases h <;> simp

/-! ## The route that is chosen -/

/-- Routes that do not match, are less specific or have another method are passed over. -/
theorem selectRoute_skip {pre : List (RouteEntry H)} {best : ℕ} (post : List (RouteEntry H)) (only : Verb)
    (multiple : Bool) (h : ∀ r ∈ pre, (matchPath r.pathPattern target).isSome →
      pathSpecificity r.pathPattern = best → r.method ≠ method) :
    ∃ only' multiple', selectRoute method target best (pre ++ post) only multiple =
      selectRoute method target best post only' multiple' := by
  induction pre generalizing only multiple with
  | nil => exact ⟨only, multiple, rfl⟩
  | cons r pre ih =>
    have hrest := fun o m => ih o m fun r' hr' => h r' (List.mem_cons_of_mem _ hr')
    have hr := h r List.mem_cons_self
    rw [List.cons_append, selectRoute]
    cases hmatch : matchPath r.pathPattern target with
    | none => exact hrest _ _
    | some context =>
      rw [hmatch] at hr
      by_cases hbest : pathSpecificity r.pathPattern = best
      · simp only [hbest, hr rfl hbest, ne_eq, not_true, not_false_iff, if_true, if_false]
        exact hrest _ _
      · simp only [hbest, ne_eq, not_false_iff, if_true]
        exact hrest _ _

/-- **The earliest route is chosen** among those that have the method of the request and than which no route that
matches is more specific. -/
theorem dispatch_earliest {pre post : List (RouteEntry H)} {r : RouteEntry H} {context : RouteContext}
    (hr : matchPath r.pathPattern target = some context) (hmethod : r.method = method)
    (hbest : ∀ r' ∈ pre ++ r :: post, (matchPath r'.pathPattern target).isSome →
      pathSpecificity r'.pathPattern ≤ pathSpecificity r.pathPattern)
    (hpre : ∀ r' ∈ pre, (matchPath r'.pathPattern target).isSome →
      pathSpecificity r'.pathPattern = pathSpecificity r.pathPattern → r'.method ≠ method) :
    dispatch (pre ++ r :: post) method target =
      .invoke r.handler { context with routeLabel := r.routeLabel } := by
  have hmax := bestSpecificity_eq (List.mem_append_right pre List.mem_cons_self) (by simp [hr]) hbest
  obtain ⟨only, multiple, hskip⟩ := selectRoute_skip (r :: post) .unknown false hpre
  unfold dispatch
  simp only [hmax, Option.getD_some, hskip, selectRoute, hr, hmethod, ne_eq, not_true, if_false]

/-- **The first matching route is chosen** if it has the method of the request and no later route that
matches is more specific. -/
theorem dispatch_first {pre post : List (RouteEntry H)} {r : RouteEntry H} {context : RouteContext}
    (hpre : ∀ r' ∈ pre, matchPath r'.pathPattern target = none)
    (hr : matchPath r.pathPattern target = some context) (hmethod : r.method = method)
    (hpost : ∀ r' ∈ post, matchPath r'.pathPattern target = none ∨
      pathSpecificity r'.pathPattern ≤ pathSpecificity r.pathPattern) :
    dispatch (pre ++ r :: post) method target =
      .invoke r.handler { context with routeLabel := r.routeLabel } := by
  have hnot : ∀ r' ∈ pre, ¬ (matchPath r'.pathPattern target).isSome := fun r' hr' => by simp [hpre r' hr']
  refine dispatch_earliest hr hmethod ?_ fun r' hr' hm => absurd hm (hnot r' hr')
  intro r' hr' hm
  rcases List.mem_append.1 hr' with hr' | hr'
  · exact absurd hm (hnot r' hr')
  · rcases List.mem_cons.1 hr' with rfl | hr'
    · exact le_rfl
    · exact (hpost r' hr').resolve_left (Option.isSome_iff_ne_none.1 hm)

/-! ## The redirect routes -/

/-- The path segments of a target. -/
def pathSegments (target : Str) : List Str := splitPath (splitQuery target).1

/-- What follows the `?`. -/
def queryOf (target : Str) : Str := (splitQuery target).2

/-- A target of one segment: a pattern matches if it is one capture or that segment. -/
theorem matchPath_single {segment : Str} (hseg : pathSegments target = [segment]) (hne : segment ≠ [])
    (pattern : Str) :
    matchPath pattern target =
      match splitPath pattern with
      | [p] =>
        if isCaptureSegment p then
          some { pathParams := (∅ : UnorderedMap Str Str).insert (captureName p) segment
                 queryString := queryOf target }
        else if p = segment then some { queryString := queryOf target }
        else none
      | _ => none := by
  unfold pathSegments at hseg
  unfold matchPath queryOf
  simp only [hseg, List.length_singleton]
  rcases splitPath pattern with _ | ⟨p, _ | ⟨q, ps⟩⟩
  · simp
  · simp only [List.length_singleton, ne_eq, not_true, if_false, matchSegments, hne]
    split
    · rfl
    · split <;> rfl
  · simp

/-- A pattern matches targets with as many segments as it has, or is a single segment. -/
theorem matchPath_length {pattern : Str} {context : RouteContext}
    (h : matchPath pattern target = some context) :
    (splitPath pattern).length = (pathSegments target).length ∨ (splitPath pattern).length = 1 := by
  unfold matchPath at h
  simp only at h
  split at h
  · -- the lengths differ, so only the pattern `{path}` is left
    split at h
    · rename_i segment hpat
      rw [hpat]
      exact .inr rfl
    · cases h
  · rename_i hlen
    exact .inl (not_not.1 hlen)

theorem matchSegments_literals {literals patterns actual : List Str} {params params' : UnorderedMap Str Str}
    (hlit : ∀ l ∈ literals, isCaptureSegment l = false) (hlen : (literals ++ patterns).length = actual.length)
    (h : matchSegments (literals ++ patterns) actual params = some params') : ∃ rest, actual = literals ++ rest := by
  induction literals generalizing actual with
  | nil => exact ⟨actual, rfl⟩
  | cons l literals ih =>
    obtain ⟨value, actual, rfl⟩ := List.exists_cons_of_length_eq_add_one hlen.symm
    simp only [List.cons_append, matchSegments, hlit l List.mem_cons_self, Bool.false_eq_true, if_false] at h
    split at h
    · rename_i heq
      obtain ⟨rest, rfl⟩ := ih (fun l' hl' => hlit l' (List.mem_cons_of_mem _ hl')) (Nat.succ.inj hlen) h
      exact ⟨rest, by rw [heq]; rfl⟩
    · cases h

/-- A pattern that begins with literals matches only targets that begin with them. -/
theorem matchPath_literals {pattern : Str} {literals patterns : List Str} {context : RouteContext}
    (hpat : splitPath pattern = literals ++ patterns) (hne : literals ≠ [])
    (hlit : ∀ l ∈ literals, isCaptureSegment l = false) (h : matchPath pattern target = some context) :
    ∃ rest, pathSegments target = literals ++ rest ∧ rest.length = patterns.length := by
  unfold matchPath at h
  simp only [hpat] at h
  split at h
  · -- the lengths differ, so only a pattern of one capture is left
    split at h
    · rename_i segment hone
      obtain ⟨l, literals, rfl⟩ := List.exists_cons_of_ne_nil hne
      obtain rfl : l = segment := (List.cons.inj hone).1
      rw [if_neg (by simp [hlit l List.mem_cons_self])] at h
      cases h
    · cases h
  · rename_i hlen
    rw [not_not] at hlen
    obtain ⟨params, hparams, -⟩ := Option.map_eq_some_iff.1 h
    obtain ⟨rest, hrest⟩ := matchSegments_literals hlit hlen hparams
    refine ⟨rest, hrest, ?_⟩
    rw [hrest, List.length_append, List.length_append] at hlen
    omega

/-- A pattern of one literal matches the targets that are this segment. -/
theorem matchPath_literal {pattern literal : Str} {context : RouteContext} (hpat : splitPath pattern = [literal])
    (hlit : isCaptureSegment literal = false) (h : matchPath pattern target = some context) :
    pathSegments target = [literal] := by
  obtain ⟨rest, hrest, hlen⟩ := matchPath_literals (show splitPath pattern = [literal] ++ [] from hpat) (by simp)
    (by simpa using hlit) h
  rw [List.length_eq_zero_iff.1 hlen] at hrest
  exact hrest

/-- A pattern of one capture, other than `{path}`, matches the targets of one segment. -/
theorem matchPath_capture {pattern segment name : Str} {context : RouteContext}
    (hpat : splitPath pattern = [segment]) (hcap : isCaptureSegment segment = true)
    (hname : captureName segment = name) (hpath : name ≠ "path")
    (h : matchPath pattern target = some context) :
    pathSegments target = [pathValue context name] ∧ queryOf target = context.queryString := by
  unfold matchPath at h
  simp only [hpat, hname] at h
  split at h
  · rw [if_neg fun hc => hpath hc.2.1] at h
    cases h
  · rename_i hlen
    rw [not_not, List.length_singleton] at hlen
    obtain ⟨value, hseg⟩ := List.length_eq_one_iff.1 hlen.symm
    simp only [hseg, matchSegments, hcap, if_true, hname] at h
    split at h
    · cases h
    · cases h
      exact ⟨by simp [pathSegments, hseg, pathValue, pathParam], rfl⟩

/-- `{path}` also takes every path that is not of one segment, but the empty one and the root. -/
theorem matchPath_path (hlen : (pathSegments target).length ≠ 1) (hempty : (splitQuery target).1 ≠ [])
    (hroot : (splitQuery target).1 ≠ ['/']) : (matchPath "/\x7bpath\x7d".toList target).isSome := by
  have hpat : splitPath "/\x7bpath\x7d".toList = ["\x7bpath\x7d".toList] := by decide
  unfold pathSegments at hlen
  unfold matchPath
  simp only [hpat]
  rw [if_pos (by rw [List.length_singleton]; omega), if_pos ⟨by decide, by decide, hempty, hroot⟩]
  rfl

/-- A pattern of a literal and a capture matches the targets of two segments that begin with it. -/
theorem matchPath_literal_capture {pattern literal segment name : Str} {context : RouteContext}
    (hpat : splitPath pattern = [literal, segment]) (hlit : isCaptureSegment literal = false)
    (hcap : isCaptureSegment segment = true) (hname : captureName segment = name)
    (h : matchPath pattern target = some context) :
    pathSegments target = [literal, pathValue context name] := by
  unfold matchPath at h
  simp only [hpat] at h
  split at h
  · cases h
  · rename_i hlen
    rw [not_not] at hlen
    obtain ⟨first, value, hseg⟩ := List.length_eq_two.1 hlen.symm
    simp only [hseg, matchSegments, hcap, hlit, if_true, Bool.false_eq_true, if_false, hname] at h
    split at h
    · rename_i hfirst
      split at h
      · cases h
      · cases h
        simp [pathSegments, hseg, pathValue, pathParam, hfirst]
    · cases h

/-- The only route of a handler, if it has just one. -/
theorem route_unique {routes : List (RouteEntry Handler)} {handler : Handler} {r r' : RouteEntry Handler}
    (hr : r ∈ routes) (hh : r.handler = handler) (hone : routes.filter (·.handler = handler) = [r']) :
    r = r' := by
  rw [← List.mem_singleton, ← hone, List.mem_filter]
  exact ⟨hr, decide_eq_true hh⟩

/-- What `/{slug}` matches. -/
theorem rootRedirect_invoke {context : RouteContext}
    (h : dispatch applicationRoutes method target = .invoke .rootRedirect context) :
    method = .get ∧ pathSegments target = [pathValue context "slug"] ∧
      queryOf target = context.queryString := by
  obtain ⟨r, hr, hhandler, rfl, -, matched, hm, rfl⟩ := dispatch_invoke h
  have hroute : r = route .get "/\x7bslug\x7d" "redirect_root" .rootRedirect := route_unique hr hhandler rfl
  subst hroute
  have hpat : splitPath "/\x7bslug\x7d" = ["\x7bslug\x7d"] := by decide
  have hseg := matchPath_capture hpat (by decide) rfl (by decide) hm
  exact ⟨rfl, hseg⟩

/-- What `/r/{slug}` matches. -/
theorem prefixedRedirect_invoke {context : RouteContext}
    (h : dispatch applicationRoutes method target = .invoke .prefixedRedirect context) :
    method = .get ∧ pathSegments target = ["r".toList, pathValue context "slug".toList] := by
  obtain ⟨r, hr, hhandler, rfl, -, matched, hm, rfl⟩ := dispatch_invoke h
  have hroute : r = route .get "/r/\x7bslug\x7d" "redirect_prefixed" .prefixedRedirect :=
    route_unique hr hhandler rfl
  subst hroute
  have hpat : splitPath "/r/\x7bslug\x7d" = ["r", "\x7bslug\x7d"] := by decide
  have hseg := matchPath_literal_capture hpat (by decide) (by decide) rfl hm
  exact ⟨rfl, hseg⟩

end UrlShortener

import UrlShortener.Proof.Routing
import Mathlib.Data.List.Perm.Basic
import Mathlib.Data.List.Pairwise

/-!
# Dispatch, from any list of routes

* `MostSpecific`: a route matches, and no route that matches is more specific. This does not depend on the order of
  the registrations.
* `dispatch_invalidMethod`, `dispatch_notFound`: the two errors; `dispatch_mostSpecific`, `dispatch_invoke_earliest`:
  the route invoked.
* `dispatch_perm`: **the order of the registrations does not matter** where no two routes of the same method and
  specificity match one target.
* `dispatch_characterization`: all of it in one statement.
-/

namespace UrlShortener

variable {H : Type} {routes routes' : List (RouteEntry H)} {method : Verb} {target : Str}

/-- The pattern of the route matches the target. -/
def RouteEntry.Matches (target : Str) (r : RouteEntry H) : Prop := (matchPath r.pathPattern target).isSome

/-- The route matches, and no route that matches is more specific. -/
def MostSpecific (routes : List (RouteEntry H)) (target : Str) (r : RouteEntry H) : Prop :=
  r.Matches target ∧ ∀ r' ∈ routes, r'.Matches target → pathSpecificity r'.pathPattern ≤ pathSpecificity r.pathPattern

/-- The same handler with the same context, or errors with the same status and code. -/
def Dispatched.SameAs : Dispatched H → Dispatched H → Prop
  | .invoke handler context, .invoke handler' context' => handler = handler' ∧ context = context'
  | .error status code _, .error status' code' _ => status = status' ∧ code = code'
  | _, _ => False

/-- No target is matched by both routes, if they have the same method and the same specificity. -/
def Unambiguous (r r' : RouteEntry H) : Prop :=
  r.method = r'.method → pathSpecificity r.pathPattern = pathSpecificity r'.pathPattern →
    ∀ target, ¬ (r.Matches target ∧ r'.Matches target)

/-! ## The errors -/

theorem selectRoute_error {best : ℕ}
    (h : ∀ r ∈ routes, r.Matches target → pathSpecificity r.pathPattern = best → r.method ≠ method) :
    ∃ only multiple, selectRoute method target best routes .unknown false = .inr (only, multiple) := by
  obtain ⟨only, multiple, hskip⟩ := selectRoute_skip [] .unknown false h
  rw [List.append_nil] at hskip
  exact ⟨only, multiple, hskip⟩

/-- The path is known, but under no such method. -/
theorem dispatch_invalidMethod (hmatch : ∃ r ∈ routes, r.Matches target)
    (h : ∀ r ∈ routes, MostSpecific routes target r → r.method ≠ method) :
    ∃ message, dispatch routes method target = .error 400 "invalid_method" message := by
  obtain ⟨r, hr, hm⟩ := hmatch
  obtain ⟨best, hbest, -⟩ := bestSpecificity_max hr hm
  -- a route of the largest specificity that matches is most specific
  have hnone : ∀ r ∈ routes, r.Matches target → pathSpecificity r.pathPattern = best → r.method ≠ method := by
    intro r hr hm hspec
    refine h r hr ⟨hm, fun r' hr' hm' => ?_⟩
    obtain ⟨b, hb, hle⟩ := bestSpecificity_max hr' hm'
    obtain rfl : best = b := Option.some.inj (hbest.symm.trans hb)
    rw [hspec]
    exact hle
  obtain ⟨only, multiple, hselect⟩ := selectRoute_error hnone
  unfold dispatch
  simp only [hbest, Option.getD_some, hselect, Option.isSome_some, if_true]
  exact ⟨_, rfl⟩

/-- No route matches the path. -/
theorem dispatch_notFound (h : ∀ r ∈ routes, ¬ r.Matches target) :
    dispatch routes method target = .error 404 "not_found" "Route not found" := by
  have hbest : bestSpecificity routes target = none := by
    by_contra hne
    obtain ⟨b, hb⟩ := Option.ne_none_iff_exists'.1 hne
    obtain ⟨r, hr, hm, -⟩ := bestSpecificity_attained hb
    exact h r hr hm
  have hnone : ∀ r ∈ routes, r.Matches target → pathSpecificity r.pathPattern = 0 → r.method ≠ method :=
    fun r hr hm => absurd hm (h r hr)
  obtain ⟨only, multiple, hselect⟩ := selectRoute_error hnone
  unfold dispatch
  simp only [hbest, Option.getD_none, hselect, Option.isSome_none, Bool.false_eq_true, if_false]

/-! ## The route invoked -/

/-- The first of the most specific routes is taken. -/
theorem dispatch_mostSpecific {pre post : List (RouteEntry H)} {r : RouteEntry H} {context : RouteContext}
    (hroutes : routes = pre ++ r :: post) (hspec : MostSpecific routes target r) (hmethod : r.method = method)
    (hpre : ∀ r' ∈ pre, MostSpecific routes target r' → r'.method ≠ method)
    (hcontext : matchPath r.pathPattern target = some context) :
    dispatch routes method target = .invoke r.handler { context with routeLabel := r.routeLabel } := by
  subst hroutes
  refine dispatch_earliest hcontext hmethod hspec.2 fun r' hr' hm heq => ?_
  exact hpre r' hr' ⟨hm, fun r'' hr'' hm'' => heq ▸ hspec.2 r'' hr'' hm''⟩

open Classical in
/-- **The route that is invoked**: the earliest of those that are most specific and have the method. -/
theorem dispatch_invoke_earliest {handler : H} {context : RouteContext}
    (h : dispatch routes method target = .invoke handler context) :
    ∃ pre r post, routes = pre ++ r :: post ∧ r.method = method ∧ MostSpecific routes target r ∧
      (∀ r' ∈ pre, MostSpecific routes target r' → r'.method ≠ method) ∧ context.routeLabel = r.routeLabel := by
  obtain ⟨r, hr, -, hmethod, hmax, matched, hmatched, -⟩ := dispatch_invoke h
  let chosen (r : RouteEntry H) : Bool := decide (MostSpecific routes target r ∧ r.method = method)
  have hsome : (routes.find? chosen).isSome :=
    List.find?_isSome.2 ⟨r, hr, decide_eq_true ⟨⟨Option.isSome_of_eq_some hmatched, hmax⟩, hmethod⟩⟩
  obtain ⟨r₀, hfirst⟩ := Option.isSome_iff_exists.1 hsome
  obtain ⟨hchosen, pre, post, hroutes, hpre⟩ := List.find?_eq_some_iff_append.1 hfirst
  obtain ⟨hspec, hmethod₀⟩ := of_decide_eq_true hchosen
  have hpre' : ∀ r' ∈ pre, MostSpecific routes target r' → r'.method ≠ method := by
    intro r' hr' hspec' hmethod'
    have hnot : chosen r' = false := by simpa using hpre r' hr'
    exact of_decide_eq_false hnot ⟨hspec', hmethod'⟩
  refine ⟨pre, r₀, post, hroutes, hmethod₀, hspec, hpre', ?_⟩
  -- dispatch invokes that route, and it has invoked one route only
  obtain ⟨matched₀, hmatched₀⟩ := Option.isSome_iff_exists.1 hspec.1
  have hd := dispatch_mostSpecific hroutes hspec hmethod₀ hpre' hmatched₀
  rw [h] at hd
  cases hd
  rfl

/-! ## The order of the registrations -/

instance : Std.Symm (Unambiguous (H := H)) where
  symm _ _ h hmethod hspec target hm := h hmethod.symm hspec.symm target hm.symm

theorem MostSpecific.perm (hperm : routes.Perm routes') {r : RouteEntry H} (h : MostSpecific routes target r) :
    MostSpecific routes' target r :=
  ⟨h.1, fun r' hr' => h.2 r' (hperm.mem_iff.2 hr')⟩

/-- At most one route is most specific and has the method. -/
theorem mostSpecific_unique (hroutes : routes.Pairwise Unambiguous) {r r' : RouteEntry H} (hr : r ∈ routes)
    (hr' : r' ∈ routes) (h : MostSpecific routes target r) (h' : MostSpecific routes target r')
    (hmethod : r.method = r'.method) : r = r' := by
  by_contra hne
  exact hroutes.forall hr hr' hne hmethod (Nat.le_antisymm (h'.2 r hr h.1) (h.2 r' hr' h'.1)) target ⟨h.1, h'.1⟩

/-- **The order of registration plays no part.** -/
theorem dispatch_perm (hroutes : routes.Pairwise Unambiguous) (hperm : routes.Perm routes') :
    (dispatch routes method target).SameAs (dispatch routes' method target) := by
  by_cases hmatch : ∃ r ∈ routes, r.Matches target
  · have hmatch' : ∃ r ∈ routes', r.Matches target :=
      hmatch.imp fun r hr => ⟨hperm.mem_iff.1 hr.1, hr.2⟩
    by_cases hbest : ∃ r ∈ routes, MostSpecific routes target r ∧ r.method = method
    · obtain ⟨r, hr, hspec, hmethod⟩ := hbest
      obtain ⟨handler, context, hd⟩ := dispatch_complete hr hmethod hspec.1 hspec.2
      obtain ⟨handler', context', hd'⟩ :=
        dispatch_complete (hperm.mem_iff.1 hr) hmethod (hspec.perm hperm).1 (hspec.perm hperm).2
      obtain ⟨r₁, hr₁, rfl, hmethod₁, hmax₁, m₁, hm₁, rfl⟩ := dispatch_invoke hd
      obtain ⟨r₂, hr₂, rfl, hmethod₂, hmax₂, m₂, hm₂, rfl⟩ := dispatch_invoke hd'
      -- both are the one route that is most specific and has the method
      have h₁ : MostSpecific routes target r₁ := ⟨Option.isSome_of_eq_some hm₁, hmax₁⟩
      have h₂ : MostSpecific routes target r₂ :=
        MostSpecific.perm hperm.symm ⟨Option.isSome_of_eq_some hm₂, hmax₂⟩
      obtain rfl := mostSpecific_unique hroutes hr₁ (hperm.mem_iff.2 hr₂) h₁ h₂ (hmethod₁.trans hmethod₂.symm)
      rw [hd, hd']
      obtain rfl : m₁ = m₂ := Option.some.inj (hm₁.symm.trans hm₂)
      exact ⟨rfl, rfl⟩
    · have hnone : ∀ r ∈ routes, MostSpecific routes target r → r.method ≠ method :=
        fun r hr hspec hmethod => hbest ⟨r, hr, hspec, hmethod⟩
      obtain ⟨message, hd⟩ := dispatch_invalidMethod hmatch hnone
      obtain ⟨message', hd'⟩ := dispatch_invalidMethod hmatch' fun r hr hspec =>
        hnone r (hperm.mem_iff.2 hr) (hspec.perm hperm.symm)
      rw [hd, hd']
      exact ⟨rfl, rfl⟩
  · have hnone : ∀ r ∈ routes, ¬ r.Matches target := fun r hr hm => hmatch ⟨r, hr, hm⟩
    rw [dispatch_notFound hnone, dispatch_notFound fun r hr => hnone r (hperm.mem_iff.2 hr)]
    exact ⟨rfl, rfl⟩

/-- **What `dispatch` does, for every list of routes.** The earliest route with the method of the request is invoked
among those that match and are most specific. If a route matches but none of the most specific ones has the method,
the answer is 400 `invalid_method`, and 404 if none matches. Where no two routes of equal method and specificity match
one target, any other order of the same routes gives the same handler with the same context, or the same error. -/
theorem dispatch_characterization (routes : List (RouteEntry H)) (method : Verb) (target : Str) :
    (∀ pre r post, routes = pre ++ r :: post → MostSpecific routes target r → r.method = method →
        (∀ r' ∈ pre, MostSpecific routes target r' → r'.method ≠ method) →
        ∃ context, matchPath r.pathPattern target = some context ∧
          dispatch routes method target = .invoke r.handler { context with routeLabel := r.routeLabel }) ∧
      ((∃ r ∈ routes, r.Matches target) →
        (∀ r ∈ routes, MostSpecific routes target r → r.method ≠ method) →
        ∃ message, dispatch routes method target = .error 400 "invalid_method" message) ∧
      ((∀ r ∈ routes, ¬ r.Matches target) →
        dispatch routes method target = .error 404 "not_found" "Route not found") ∧
      (routes.Pairwise Unambiguous → ∀ routes', routes.Perm routes' →
        (dispatch routes method target).SameAs (dispatch routes' method target)) := by
  refine ⟨?_, dispatch_invalidMethod, dispatch_notFound, fun hroutes routes' => dispatch_perm hroutes⟩
  intro pre r post hroutes hspec hmethod hpre
  obtain ⟨context, hcontext⟩ := Option.isSome_iff_exists.1 hspec.1
  exact ⟨context, hcontext, dispatch_mostSpecific hroutes hspec hmethod hpre hcontext⟩

end UrlShortener

import UrlShortener.Proof.Dispatch
import UrlShortener.Proof.Filling
import UrlShortener.Proof.Reachability

/-!
# Metric labels and routes

The label of a request is read off the text of its target, while its route is chosen by the segments of the path.

* `routeLabelForTarget_plain`, `routeLabelForTarget_doubled`: the label of a target without a slash in front, and with
  two.
* `target_eq_join`: a target with one slash in front is its segments joined, and its query.
* `routeLabelForTarget_iff`: **exactly which targets are counted under the label of the route that serves them.**
-/

namespace UrlShortener

open Text

variable {target : Str}

/-! ## The text of a target -/

theorem routeLabelForTarget_plain (h : target.head? ≠ some '/') : routeLabelForTarget target = "app" := by
  cases target with
  | nil => rfl
  | cons c rest =>
    have hc : c ≠ '/' := fun heq => h (by rw [heq]; rfl)
    simp [routeLabelForTarget, startsWith, hc, hc.symm]

theorem routeLabelForTarget_doubled (rest : Str) :
    routeLabelForTarget ('/' :: '/' :: rest) = "redirect_root" := by
  simp [routeLabelForTarget, startsWith]

/-- A service endpoint, with and without a query. -/
theorem routeLabelForTarget_service {name : Str} (hname : name ∈ serviceNames) :
    routeLabelForTarget (join [name]) = name ∧
      ∀ query, routeLabelForTarget (join [name] ++ '?' :: query) = "redirect_root" := by
  simp only [serviceNames, List.mem_cons, List.not_mem_nil, or_false] at hname
  rcases hname with rfl | rfl | rfl <;> exact ⟨rfl, fun query => by simp [routeLabelForTarget, startsWith, join]⟩

theorem routeLabelForTarget_prefixed (rest : Str) :
    routeLabelForTarget ("/r/" ++ rest) = "redirect_prefixed" := by
  simp [routeLabelForTarget, startsWith]

/-- The path, and behind it nothing or a question mark and the query. -/
theorem target_split (target : Str) : ∃ tail, target = (splitQuery target).1 ++ tail ∧
    (tail = [] ∧ '?' ∉ target ∨ ∃ query, tail = '?' :: query) := by
  unfold splitQuery
  cases hcut : cut ['?'] target with
  | none => exact ⟨[], (List.append_nil _).symm, Or.inl ⟨rfl, cut_singleton_none.1 hcut⟩⟩
  | some parts =>
    obtain ⟨path, query⟩ := parts
    have htarget := cut_eq hcut
    exact ⟨'?' :: query, by rw [htarget, List.append_assoc]; rfl, Or.inr ⟨query, rfl⟩⟩

/-- A target with one slash in front is its segments joined, and its query. -/
theorem target_eq_join (hne : pathSegments target ≠ []) {rest : Str} (htarget : target = '/' :: rest)
    (hrest : rest.head? ≠ some '/') : ∃ tail, target = join (pathSegments target) ++ tail ∧
      (tail = [] ∧ '?' ∉ target ∨ ∃ query, tail = '?' :: query) := by
  obtain ⟨tail, hsplit, htail⟩ := target_split target
  refine ⟨tail, ?_, htail⟩
  have hjoin : ['/'].intercalate (pathSegments target) = _ := join_splitPath hne
  generalize hpath : (splitQuery target).1 = path at hsplit hjoin
  cases path with
  | nil =>
    rw [pathSegments, hpath] at hne
    exact absurd rfl hne
  | cons c path =>
    obtain ⟨rfl, hpath'⟩ := List.cons.inj (htarget.symm.trans hsplit)
    -- what follows the slash is not a slash, so it is all that is left of the path
    have hdrop : ('/' :: path).dropWhile (· == '/') = path := by
      cases path with
      | nil => rfl
      | cons c path =>
        have hc : c ≠ '/' := by
          rintro rfl
          exact hrest (by rw [hpath']; rfl)
        simp [hc]
    rw [hdrop] at hjoin
    rw [join, hjoin]
    exact hsplit

/-! ## The condition -/

/-- The path of the target, without its query. -/
def pathOf (target : Str) : Str := (splitQuery target).1

/-- The path is that of a route with a literal segment. -/
def LiteralPath (target : Str) : Prop :=
  ∃ r ∈ applicationRoutes, 0 < pathSpecificity r.pathPattern ∧ (matchPath r.pathPattern target).isSome

instance : Decidable (LiteralPath target) := inferInstanceAs (Decidable (∃ r ∈ applicationRoutes, _))

/-- When the text of a target gives the label of its route.
* The root path has no query behind its slash.
* The path of a route with a literal segment has one slash in front, and a service endpoint no query.
* Any other path has a slash in front and does not begin as the paths of the labelled routes do. -/
def LabelKept (target : Str) : Prop :=
  if pathOf target = [] ∨ pathOf target = ['/'] then ¬ "/?" <+: target
  else if LiteralPath target then
    target.head? = some '/' ∧ ¬ "//" <+: target ∧ ((pathSegments target).length = 1 → '?' ∉ target)
  else
    target.head? = some '/' ∧ ¬ "/r/" <+: target ∧ ¬ "/api/v1/links" <+: target ∧
      ¬ "/api/v1/short-urls" <+: target

instance : Decidable (LabelKept target) := inferInstanceAs (Decidable (ite _ _ _))

/-! ## Routes with literals -/

/-- The segments that every route of the API begins with. -/
def apiLiterals : List (List Str) :=
  [["api", "v1", "links"], ["api", "v1", "short-urls"]]

/-- What the first segments of a route say of its label. -/
def RouteEntry.Tagged (r : RouteEntry Handler) : Prop :=
  (∃ name ∈ serviceNames, splitPath r.pathPattern = [name] ∧ r.routeLabel = name) ∨
    (splitPath r.pathPattern).length = 2 ∧ (splitPath r.pathPattern).head? = some "r".toList ∧
      r.routeLabel = "redirect_prefixed" ∨
    (splitPath r.pathPattern).take 3 ∈ apiLiterals ∧ r.routeLabel = "api_links"

instance (r : RouteEntry Handler) : Decidable r.Tagged := inferInstanceAs (Decidable (_ ∨ _ ∨ _))

/-- The routes with a literal segment have the label their first segments say; the others are one capture, or the
root. -/
theorem applicationRoutes_tagged : ∀ r ∈ applicationRoutes,
    0 < pathSpecificity r.pathPattern ∧ r.Tagged ∨
    pathSpecificity r.pathPattern = 0 ∧ (splitPath r.pathPattern).length = 1 ∧ r.routeLabel = "redirect_root" ∨
    pathSpecificity r.pathPattern = 0 ∧ r.pathPattern = "/" ∧ r.routeLabel = "app" := by
  decide +kernel

/-- Only the part of a target behind one slash can give a label of its own. -/
theorem label_iff_of_join (hne : pathSegments target ≠ []) {label : Str} (happ : label ≠ "app")
    (hroot : label ≠ "redirect_root")
    (hjoin : ∀ tail, target = join (pathSegments target) ++ tail →
      (tail = [] ∧ '?' ∉ target ∨ ∃ query, tail = '?' :: query) →
      (routeLabelForTarget target = label ↔ ((pathSegments target).length = 1 → '?' ∉ target))) :
    routeLabelForTarget target = label ↔
      target.head? = some '/' ∧ ¬ "//" <+: target ∧ ((pathSegments target).length = 1 → '?' ∉ target) := by
  by_cases hhead : target.head? = some '/'
  · obtain ⟨rest, rfl⟩ : ∃ rest, target = '/' :: rest := by
      cases target with
      | nil => cases hhead
      | cons c rest => exact ⟨rest, by rw [Option.some.inj hhead]⟩
    by_cases hdouble : rest.head? = some '/'
    · cases rest with
      | nil => cases hdouble
      | cons c rest =>
        obtain rfl : c = '/' := Option.some.inj hdouble
        rw [routeLabelForTarget_doubled]
        exact iff_of_false hroot.symm fun h => h.2.1 ⟨rest, rfl⟩
    · obtain ⟨tail, hsplit, htail⟩ := target_eq_join hne rfl hdouble
      rw [hjoin tail hsplit htail]
      have hnot : ¬ "//" <+: '/' :: rest := by
        rintro ⟨after, hafter⟩
        obtain rfl : '/' :: after = rest := (List.cons.inj hafter).2
        exact hdouble rfl
      exact ⟨fun h => ⟨hhead, hnot, h⟩, fun h => h.2.2⟩
  · rw [routeLabelForTarget_plain hhead]
    exact iff_of_false happ.symm fun h => hhead h.1

theorem routeLabelForTarget_join {literals : List Str} (hliterals : literals ∈ apiLiterals) (rest : List Str)
    (tail : Str) : routeLabelForTarget (join (literals ++ rest) ++ tail) = "api_links" := by
  simp only [apiLiterals, List.mem_cons, List.not_mem_nil, or_false] at hliterals
  rcases hliterals with rfl | rfl <;> cases rest <;> simp [join, routeLabelForTarget, startsWith]

/-- The label of a target whose path is that of a route with a literal segment. -/
theorem label_iff_of_tagged {r : RouteEntry Handler} (hr : r.Tagged) {matched : RouteContext}
    (hmatched : matchPath r.pathPattern target = some matched) :
    routeLabelForTarget target = r.routeLabel ↔
      target.head? = some '/' ∧ ¬ "//".toList <+: target ∧ ((pathSegments target).length = 1 → '?' ∉ target) := by
  rcases hr with ⟨name, hname, hsplit, hlabel⟩ | ⟨hlength, hhead, hlabel⟩ | ⟨htake, hlabel⟩
  · have hfacts : ∀ name ∈ serviceNames, isCaptureSegment name = false ∧ name ≠ "app".toList ∧
        name ≠ "redirect_root".toList := by decide
    obtain ⟨hlit, happ, hroot⟩ := hfacts name hname
    have hsegments := matchPath_literal hsplit hlit hmatched
    obtain ⟨hbare, hquery⟩ := routeLabelForTarget_service hname
    rw [hlabel]
    refine label_iff_of_join (by simp [hsegments]) happ hroot fun tail htarget htail => ?_
    rw [hsegments] at htarget ⊢
    rcases htail with ⟨rfl, hnone⟩ | ⟨query, rfl⟩
    · rw [List.append_nil] at htarget
      exact iff_of_true (htarget ▸ hbare) fun _ => hnone
    · rw [htarget, hquery]
      exact iff_of_false hroot.symm fun h => h rfl (by simp)
  · obtain ⟨first, capture, hpattern⟩ := List.length_eq_two.1 hlength
    rw [hpattern, List.head?_cons, Option.some_inj] at hhead
    subst hhead
    obtain ⟨rest, hsegments, hrest⟩ := matchPath_literals (show _ = ["r".toList] ++ [capture] from hpattern)
      (by simp) (by decide) hmatched
    obtain ⟨value, rfl⟩ := List.length_eq_one_iff.1 hrest
    rw [hlabel]
    refine label_iff_of_join (by simp [hsegments]) (by decide) (by decide) fun tail htarget _ => ?_
    have hjoin : join (pathSegments target) = "/r/".toList ++ value := by rw [hsegments]; simp [join]
    rw [hjoin, List.append_assoc] at htarget
    refine iff_of_true (by rw [htarget, routeLabelForTarget_prefixed]) fun hone => ?_
    rw [hsegments] at hone
    exact absurd hone (by simp)
  · have hfacts : ∀ literals ∈ apiLiterals, literals ≠ [] ∧ literals.length = 3 ∧
        ∀ l ∈ literals, isCaptureSegment l = false := by decide
    obtain ⟨hne, hlength, hlit⟩ := hfacts _ htake
    obtain ⟨rest, hsegments, -⟩ := matchPath_literals (List.take_append_drop 3 _).symm hne hlit hmatched
    rw [hlabel]
    refine label_iff_of_join (by simp [hsegments, hne]) (by decide) (by decide) fun tail htarget _ => ?_
    rw [hsegments] at htarget ⊢
    refine iff_of_true (by rw [htarget, routeLabelForTarget_join htake]) fun hone => ?_
    rw [List.length_append, hlength] at hone
    omega

/-! ## Captures and the root -/

/-- The label of a target with a path of its own that no route with a literal matches. -/
theorem label_iff_of_capture (hpath : pathOf target ≠ ['/']) (hliteral : ¬ LiteralPath target) :
    routeLabelForTarget target = "redirect_root" ↔
      target.head? = some '/' ∧ ¬ "/r/" <+: target ∧ ¬ "/api/v1/links" <+: target ∧
        ¬ "/api/v1/short-urls" <+: target := by
  have hservice : ∀ name ∈ serviceNames, target ≠ '/' :: name := by
    have hpaths : ∀ name ∈ serviceNames, LiteralPath ('/' :: name) := by decide +kernel
    rintro name hname rfl
    exact hliteral (hpaths name hname)
  have hlong : target.head? = some '/' → 1 < target.length := by
    intro hhead
    rcases target with _ | ⟨c, _ | ⟨d, rest⟩⟩
    · cases hhead
    · rw [Option.some.inj hhead] at hpath
      exact absurd rfl hpath
    · exact Nat.succ_lt_succ (Nat.succ_pos _)
  unfold routeLabelForTarget
  rw [if_neg (show target ≠ "/metrics" from hservice _ (by decide)),
    if_neg (show target ≠ "/healthz" from hservice _ (by decide)),
    if_neg (show target ≠ "/readyz" from hservice _ (by decide))]
  simp only [startsWith, Bool.or_eq_true, List.isPrefixOf_iff_prefix]
  split
  · next hr => exact iff_of_false (by decide) fun h => h.2.1 hr
  · next hr =>
    split
    · next hapi => exact iff_of_false (by decide) fun h => hapi.elim h.2.2.1 h.2.2.2
    · next hapi =>
      rw [not_or] at hapi
      split
      · next hslash => exact iff_of_true rfl ⟨hslash.2, hr, hapi⟩
      · next hslash => exact iff_of_false (by decide) fun h => hslash ⟨hlong h.1, h.1⟩

theorem label_iff_of_root (hpath : pathOf target = [] ∨ pathOf target = ['/']) :
    routeLabelForTarget target = "app" ↔ ¬ "/?" <+: target := by
  obtain ⟨tail, htarget, htail⟩ := target_split target
  rw [show (splitQuery target).1 = pathOf target from rfl] at htarget
  rcases hpath with hpath | hpath <;> rw [hpath] at htarget <;>
    rcases htail with ⟨rfl, -⟩ | ⟨query, rfl⟩ <;> subst htarget <;> simp [routeLabelForTarget, startsWith]

/-- A pattern with a segment matches no empty path and not the root. -/
theorem pathOf_ne_of_match {pattern : Str} (hne : splitPath pattern ≠ []) {matched : RouteContext}
    (h : matchPath pattern target = some matched) : ¬ (pathOf target = [] ∨ pathOf target = ['/']) := by
  intro hpath
  have hsegments : splitPath (splitQuery target).1 = [] := by
    rcases hpath with hpath | hpath <;> rw [pathOf] at hpath <;> rw [hpath] <;> rfl
  unfold matchPath at h
  simp only [hsegments, List.length_nil, ne_eq, List.length_eq_zero_iff, hne, not_false_iff, if_true] at h
  split at h
  · rw [if_neg fun hc => hpath.elim hc.2.2.1 hc.2.2.2] at h
    cases h
  · cases h

/-- The root routes are registered behind those that take any path. -/
theorem root_behind_path : ∀ n < applicationRoutes.length, ∀ r ∈ applicationRoutes[n]?, r.pathPattern = "/" →
    ∃ r' ∈ applicationRoutes.take n, r'.method = r.method ∧ r'.pathPattern = "/\x7bpath\x7d" := by
  decide +kernel

theorem pathOf_of_root {pre post : List (RouteEntry Handler)} {r : RouteEntry Handler}
    (hroutes : applicationRoutes = pre ++ r :: post) (hspec : MostSpecific applicationRoutes target r)
    (hpre : ∀ r' ∈ pre, MostSpecific applicationRoutes target r' → r'.method ≠ r.method)
    (hzero : pathSpecificity r.pathPattern = 0) (hroot : r.pathPattern = "/") :
    pathOf target = [] ∨ pathOf target = ['/'] := by
  by_contra hpath
  have hget : applicationRoutes[pre.length]? = some r := by rw [hroutes]; simp
  have hlt : pre.length < applicationRoutes.length := by
    rw [hroutes, List.length_append, List.length_cons]
    omega
  obtain ⟨r', hr', hmethod, hpattern⟩ := root_behind_path pre.length hlt r hget hroot
  have hmem : r' ∈ pre := by
    rw [hroutes, List.take_left] at hr'
    exact hr'
  have hsegments : pathSegments target = [] := by
    obtain ⟨matched, hmatched⟩ := Option.isSome_iff_exists.1 hspec.1
    have hlength := matchPath_length hmatched
    rw [hroot, show splitPath "/" = [] from rfl, List.length_nil] at hlength
    exact List.length_eq_zero_iff.1 (hlength.resolve_right (by decide)).symm
  -- so the route that takes any path is as specific, has the method and comes first
  refine hpre r' hmem ⟨?_, fun r'' hr'' hm => ?_⟩ hmethod
  · rw [RouteEntry.Matches, hpattern]
    rw [not_or] at hpath
    exact matchPath_path (by simp [hsegments]) hpath.1 hpath.2
  · exact (hspec.2 r'' hr'' hm).trans (hzero ▸ Nat.zero_le _)

/-- **When a request is counted under the label of its route.** -/
theorem routeLabelForTarget_iff (method : Verb) (target : Str) (handler : Handler) (context : RouteContext)
    (h : dispatch applicationRoutes method target = .invoke handler context) :
    routeLabelForTarget target = context.routeLabel ↔ LabelKept target := by
  obtain ⟨pre, r, post, hroutes, rfl, hspec, hpre, hlabel⟩ := dispatch_invoke_earliest h
  have hr : r ∈ applicationRoutes := hroutes ▸ List.mem_append_right _ List.mem_cons_self
  obtain ⟨matched, hmatched⟩ := Option.isSome_iff_exists.1 hspec.1
  rw [hlabel]
  unfold LabelKept
  rcases applicationRoutes_tagged r hr with ⟨hpos, htagged⟩ | ⟨hzero, hone, hroot⟩ | ⟨hzero, hpattern, happ⟩
  · have hne : splitPath r.pathPattern ≠ [] := by
      intro hempty
      rw [pathSpecificity, hempty] at hpos
      exact absurd hpos (by decide)
    rw [if_neg (pathOf_ne_of_match hne hmatched), if_pos ⟨r, hr, hpos, hspec.1⟩]
    exact label_iff_of_tagged htagged hmatched
  · have hne : splitPath r.pathPattern ≠ [] := List.ne_nil_of_length_eq_add_one hone
    have hpath := pathOf_ne_of_match hne hmatched
    have hliteral : ¬ LiteralPath target := by
      rintro ⟨r', hr', hpos, hm⟩
      have := hspec.2 r' hr' hm
      omega
    rw [if_neg hpath, if_neg hliteral, hroot]
    exact label_iff_of_capture (not_or.1 hpath).2 hliteral
  · have hpath := pathOf_of_root hroutes hspec hpre hzero hpattern
    rw [if_pos hpath, happ]
    exact label_iff_of_root hpath

theorem routeLabelForTarget_iff_sample :
    LabelKept "/api/v1/links/abc?full=1" ∧
      routeLabelForTarget "/api/v1/links/abc?full=1" = "api_links" := by
  have hkept : LabelKept "/api/v1/links/abc?full=1" := by decide +kernel
  exact ⟨hkept, (routeLabelForTarget_iff .get "/api/v1/links/abc?full=1" .getLinkBySlug _ rfl).2 hkept⟩

/-- **A query behind the path of an endpoint**: the metrics are served, and counted as a redirect. -/
theorem metrics_query_label :
    ∃ context, dispatch applicationRoutes .get "/metrics?x=1" = .invoke .metrics context ∧
      context.routeLabel = "metrics" ∧
      routeLabelForTarget "/metrics?x=1" = "redirect_root" :=
  ⟨_, rfl, rfl, rfl⟩

end UrlShortener

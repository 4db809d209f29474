import UrlShortener.Proof.Routing
import UrlShortener.Text.Labels
import Mathlib.Data.Finmap

/-!
# Matching inverts filling

A pattern is a list of literals and captures (`PathPattern`). Filling its captures gives a path.

* `splitPath_join`: the splitter undoes the joining of segments.
* `matchSegments_filled`, `filled_of_matchSegments`: the segment loop on filled segments, and back.
* `matchPath_fill`: **matching a filled path returns the values and the query, and a match fills back to the path of
  the target, up to leading slashes.**
-/

namespace UrlShortener

open Text

/-- A segment of a pattern. -/
inductive Segment
  | literal (text : Str)
  | capture (name : Str)

namespace Segment

/-- As it is written in a pattern. -/
def text : Segment → Str
  | literal text => text
  | capture name => '{' :: name ++ ['}']

/-- As it stands in a path, with values for the captures. -/
def fill (values : Str → Str) : Segment → Str
  | literal text => text
  | capture name => values name

/-- The name a capture has. -/
def name? : Segment → Option Str
  | literal _ => none
  | capture name => some name

/-- Literals are not empty, hold no slash and no question mark and are not of the form of a capture; captures are of
that form and have names other than `path`. -/
def WellFormed : Segment → Prop
  | literal text => text ≠ [] ∧ '/' ∉ text ∧ '?' ∉ text ∧ isCaptureSegment text = false
  | capture name => isCaptureSegment ('{' :: name ++ ['}']) = true ∧ name ≠ "path"

end Segment

/-- The path of these segments. -/
def join (segments : List Str) : Str := '/' :: ['/'].intercalate segments

/-- A pattern of the routing table. -/
structure PathPattern where
  segments : List Segment
  nonempty : segments ≠ []
  wellFormed : ∀ segment ∈ segments, segment.WellFormed
  distinct : (segments.filterMap Segment.name?).Nodup

namespace PathPattern

/-- The names of its captures. -/
def names (pattern : PathPattern) : List Str := pattern.segments.filterMap Segment.name?

/-- The pattern as it is written. -/
def text (pattern : PathPattern) : Str := join (pattern.segments.map Segment.text)

/-- The path with `values` for the captures. -/
def fill (pattern : PathPattern) (values : Str → Str) : Str := join (pattern.segments.map (Segment.fill values))

end PathPattern

/-- A value for a capture. -/
def IsValue (value : Str) : Prop := value ≠ [] ∧ '/' ∉ value ∧ '?' ∉ value

/-! ## Joining and splitting -/

theorem join_dropWhile (segments : List Str) :
    (join segments).dropWhile (· == '/') = (['/'].intercalate segments).dropWhile (· == '/') := rfl

theorem splitPath_join {segments : List Str} (hne : segments ≠ []) (h : ∀ s ∈ segments, s ≠ [] ∧ '/' ∉ s) :
    splitPath (join segments) = segments := by
  have hdrop : (['/'].intercalate segments).dropWhile (· == '/') = ['/'].intercalate segments := by
    obtain ⟨first, rest, rfl⟩ := List.exists_cons_of_ne_nil hne
    obtain ⟨hfirst, hslash⟩ := h first List.mem_cons_self
    obtain ⟨c, cs, rfl⟩ := List.exists_cons_of_ne_nil hfirst
    have hc : (c == '/') = false := beq_false_of_ne fun hc => hslash (hc ▸ List.mem_cons_self)
    cases rest with
    | nil => simp [hc]
    | cons second rest => rw [intercalate_cons_cons]; simp [hc]
  have hsplit : ((join segments).dropWhile (· == '/')).splitOn '/' = segments := by
    rw [join_dropWhile, hdrop]
    exact List.splitOn_intercalate '/' (fun s hs => (h s hs).2) hne
  unfold splitPath
  simp only [hsplit]
  refine if_neg ?_
  rintro rfl
  exact (h [] (List.mem_singleton.2 rfl)).1 rfl

/-- Up to leading slashes a path is its segments. -/
theorem join_splitPath {path : Str} (hne : splitPath path ≠ []) :
    ['/'].intercalate (splitPath path) = path.dropWhile (· == '/') := by
  unfold splitPath at hne ⊢
  simp only at hne ⊢
  split
  · next h => simp [h] at hne
  · exact List.intercalate_splitOn '/'

/-! ## The segment loop -/

theorem captureName_text (name : Str) : captureName ('{' :: name ++ ['}']) = name := by
  simp [captureName]

variable {segments : List Segment} {values : Str → Str}

/-- On filled segments the loop adds the value of each capture. -/
theorem matchSegments_filled (hsegments : ∀ s ∈ segments, s.WellFormed)
    (hvalues : ∀ n ∈ segments.filterMap Segment.name?, values n ≠ []) (params : UnorderedMap Str Str) :
    ∃ params', matchSegments (segments.map Segment.text) (segments.map (Segment.fill values)) params = some params' ∧
      ∀ n, params'.lookup n =
        if n ∈ segments.filterMap Segment.name? then some (values n) else params.lookup n := by
  induction segments generalizing params with
  | nil => exact ⟨params, rfl, fun n => by simp⟩
  | cons s segments ih =>
    have hrest := fun hv => ih (fun s' hs' => hsegments s' (List.mem_cons_of_mem _ hs')) hv
    have hs := hsegments s List.mem_cons_self
    cases s with
    | literal text =>
      obtain ⟨params', hmatch, hlookup⟩ := hrest hvalues params
      refine ⟨params', ?_, hlookup⟩
      simp only [List.map_cons, Segment.text, Segment.fill, matchSegments, hs.2.2.2, Bool.false_eq_true, if_false,
        if_true]
      exact hmatch
    | capture name =>
      simp only [List.filterMap_cons_some (show Segment.name? (.capture name) = some name from rfl)] at hvalues ⊢
      obtain ⟨params', hmatch, hlookup⟩ :=
        hrest (fun n hn => hvalues n (List.mem_cons_of_mem _ hn)) (params.insert name (values name))
      refine ⟨params', ?_, fun n => ?_⟩
      · simp only [List.map_cons, Segment.text, Segment.fill, matchSegments, hs.1, if_true,
          hvalues name List.mem_cons_self, if_false, captureName_text]
        exact hmatch
      · rw [hlookup]
        by_cases hn : n = name
        · subst hn
          simp
        · simp [hn, Finmap.lookup_insert_of_ne]

/-- What the loop accepts is the segments filled with what it returns. -/
theorem filled_of_matchSegments (hsegments : ∀ s ∈ segments, s.WellFormed)
    (hnames : (segments.filterMap Segment.name?).Nodup) {actual : List Str} (hlength : segments.length = actual.length)
    {params params' : UnorderedMap Str Str}
    (h : matchSegments (segments.map Segment.text) actual params = some params') :
    actual = segments.map (Segment.fill fun n => (params'.lookup n).getD []) ∧
      ∀ n ∉ segments.filterMap Segment.name?, params'.lookup n = params.lookup n := by
  induction segments generalizing actual params with
  | nil =>
    obtain rfl : actual = [] := List.length_eq_zero_iff.1 hlength.symm
    obtain rfl : params = params' := Option.some.inj h
    exact ⟨rfl, fun _ _ => rfl⟩
  | cons s segments ih =>
    obtain ⟨value, actual, rfl⟩ := List.exists_cons_of_length_eq_add_one hlength.symm
    have hrest := fun s' hs' => hsegments s' (List.mem_cons_of_mem s hs')
    have hs := hsegments s List.mem_cons_self
    cases s with
    | literal text =>
      simp only [List.map_cons, Segment.text, matchSegments, hs.2.2.2, Bool.false_eq_true, if_false] at h
      split at h
      · next heq =>
        obtain ⟨hactual, hother⟩ := ih hrest hnames (Nat.succ.inj hlength) h
        exact ⟨by rw [List.map_cons, ← hactual, ← heq]; rfl, hother⟩
      · cases h
    | capture name =>
      rw [List.filterMap_cons_some (show Segment.name? (.capture name) = some name from rfl)] at hnames ⊢
      obtain ⟨hname, hnames⟩ := List.nodup_cons.1 hnames
      simp only [List.map_cons, Segment.text, matchSegments, hs.1, if_true, captureName_text] at h
      split at h
      · cases h
      · obtain ⟨hactual, hother⟩ := ih hrest hnames (Nat.succ.inj hlength) h
        -- the name is not captured again, so its value stays
        have hvalue : params'.lookup name = some value := by rw [hother name hname, Finmap.lookup_insert]
        refine ⟨by rw [List.map_cons, ← hactual, Segment.fill, hvalue]; rfl, fun n hn => ?_⟩
        rw [List.mem_cons, not_or] at hn
        rw [hother n hn.2, Finmap.lookup_insert_of_ne _ hn.1]

/-! ## Patterns and targets -/

/-- The name of a capture is made of the characters of names. -/
theorem isCaptureChar_of_capture {name : Str} (h : isCaptureSegment ('{' :: name ++ ['}']) = true) :
    ∀ c ∈ name, isCaptureChar c = true := by
  have hname : (('{' :: name ++ ['}']).drop 1).dropLast = name := captureName_text name
  unfold isCaptureSegment at h
  rw [hname] at h
  split at h
  · exact absurd h Bool.false_ne_true
  · cases name with
    | nil => exact absurd h Bool.false_ne_true
    | cons first rest =>
      rw [Bool.and_eq_true, List.all_eq_true] at h
      refine List.forall_mem_cons.2 ⟨?_, h.2⟩
      have hstart := h.1
      unfold isCaptureStart at hstart
      unfold isCaptureChar Char.isAlphanum
      rw [Bool.or_eq_true] at hstart ⊢
      exact hstart.imp_left fun halpha => Bool.or_eq_true_iff.2 (Or.inl halpha)

theorem Segment.WellFormed.text_slash {s : Segment} (h : s.WellFormed) : s.text ≠ [] ∧ '/' ∉ s.text := by
  cases s with
  | literal text => exact ⟨h.1, h.2.1⟩
  | capture name =>
    refine ⟨List.cons_ne_nil _ _, fun hslash => ?_⟩
    have hmem : '/' ∈ name := by simpa [Segment.text] using hslash
    exact absurd (isCaptureChar_of_capture h.1 '/' hmem) (by decide)

theorem splitPath_text (pattern : PathPattern) : splitPath pattern.text = pattern.segments.map Segment.text := by
  refine splitPath_join (by simpa using pattern.nonempty) fun text htext => ?_
  obtain ⟨s, hs, rfl⟩ := List.mem_map.1 htext
  exact (pattern.wellFormed s hs).text_slash

/-- The segments of a filled pattern are values too. -/
theorem isValue_filled {pattern : PathPattern} (hvalues : ∀ n ∈ pattern.names, IsValue (values n)) :
    ∀ s ∈ pattern.segments.map (Segment.fill values), IsValue s := by
  intro filled hfilled
  obtain ⟨s, hs, rfl⟩ := List.mem_map.1 hfilled
  cases s with
  | literal text =>
    have h := pattern.wellFormed _ hs
    exact ⟨h.1, h.2.1, h.2.2.1⟩
  | capture name => exact hvalues name (List.mem_filterMap.2 ⟨_, hs, rfl⟩)

/-- The path of a target and its query. -/
theorem splitQuery_append {path : Str} (hpath : '?' ∉ path) (query : Option Str) :
    splitQuery (path ++ query.elim [] ('?' :: ·)) = (path, query.getD []) := by
  unfold splitQuery
  cases query with
  | none =>
    rw [Option.elim_none, List.append_nil, cut_singleton_none.2 hpath]
    rfl
  | some query =>
    rw [Option.elim_some, cut_singleton hpath]
    rfl

/-- A pattern without `{path}` matches segment by segment. -/
theorem matchPath_text (pattern : PathPattern) (target : Str) :
    matchPath pattern.text target =
      if pattern.segments.length = (pathSegments target).length then
        (matchSegments (pattern.segments.map Segment.text) (pathSegments target) ∅).map fun params =>
          { pathParams := params, queryString := queryOf target }
      else none := by
  unfold matchPath pathSegments queryOf
  simp only [splitPath_text, List.length_map]
  by_cases hlength : pattern.segments.length = (splitPath (splitQuery target).1).length
  · rw [if_neg (not_not.2 hlength), if_pos hlength]
  · rw [if_pos hlength, if_neg hlength]
    split
    · next text htext =>
      refine if_neg fun hpath => ?_
      obtain ⟨s, hs⟩ := List.map_eq_singleton_iff.1 htext
      have hwf := pattern.wellFormed s (hs.1 ▸ List.mem_singleton.2 rfl)
      obtain ⟨-, rfl⟩ := hs
      cases s with
      | literal text => exact absurd (hwf.2.2.2.symm.trans hpath.1) Bool.false_ne_true
      | capture name => exact hwf.2 ((captureName_text name).symm.trans hpath.2.1)
    · rfl

section Fill

variable {pattern : PathPattern} (hvalues : ∀ n ∈ pattern.names, IsValue (values n)) (query : Option Str)
include hvalues

theorem splitQuery_fill :
    splitQuery (pattern.fill values ++ query.elim [] ('?' :: ·)) = (pattern.fill values, query.getD []) := by
  refine splitQuery_append (fun hmem => ?_) query
  rcases List.mem_cons.1 hmem with heq | hmem
  · exact absurd heq (by decide)
  · rcases mem_intercalate hmem with heq | ⟨s, hs, hin⟩
    · exact absurd heq (by decide)
    · exact (isValue_filled hvalues s hs).2.2 hin

theorem pathSegments_fill :
    pathSegments (pattern.fill values ++ query.elim [] ('?' :: ·)) = pattern.segments.map (Segment.fill values) := by
  have hfilled := isValue_filled hvalues
  rw [pathSegments, splitQuery_fill hvalues]
  exact splitPath_join (by simpa using pattern.nonempty) fun s hs => ⟨(hfilled s hs).1, (hfilled s hs).2.1⟩

/-- A filled path is matched, with the values and the query. -/
theorem matchPath_filled :
    ∃ context, matchPath pattern.text (pattern.fill values ++ query.elim [] ('?' :: ·)) = some context ∧
      (∀ n, context.pathParams.lookup n = if n ∈ pattern.names then some (values n) else none) ∧
      context.queryString = query.getD [] := by
  obtain ⟨params, hmatch, hlookup⟩ := matchSegments_filled pattern.wellFormed (fun n hn => (hvalues n hn).1) ∅
  refine ⟨{ pathParams := params, queryString := query.getD [] }, ?_, hlookup, rfl⟩
  rw [matchPath_text, pathSegments_fill hvalues, List.length_map, if_pos rfl, hmatch, queryOf, splitQuery_fill hvalues]
  rfl

end Fill

/-- What is matched is the filled pattern, up to leading slashes. -/
theorem fill_of_matchPath {pattern : PathPattern} {target : Str} {context : RouteContext}
    (hmatch : matchPath pattern.text target = some context) :
    (pattern.fill (pathValue context)).dropWhile (· == '/') = (splitQuery target).1.dropWhile (· == '/') := by
  rw [matchPath_text] at hmatch
  split at hmatch
  · next hlength =>
    obtain ⟨params, hparams, rfl⟩ := Option.map_eq_some_iff.1 hmatch
    obtain ⟨hactual, -⟩ := filled_of_matchSegments pattern.wellFormed pattern.distinct hlength hparams
    have hne : splitPath (splitQuery target).1 ≠ [] := by
      intro hempty
      rw [pathSegments, hempty] at hlength
      exact pattern.nonempty (List.length_eq_zero_iff.1 hlength)
    -- joining the segments of the path gives it back, less the leading slashes
    have hjoin := join_splitPath hne
    rw [show splitPath (splitQuery target).1 = _ from hactual] at hjoin
    rw [PathPattern.fill, join_dropWhile]
    refine (congrArg (List.dropWhile _) hjoin).trans ?_
    exact List.dropWhile_idempotent _ _
  · cases hmatch

/-- **Matching inverts filling.** A path filled with values, with or without a query, is matched and gives exactly
these values and the query; and what matches is, up to leading slashes of its path, the pattern filled with the
parameters returned. -/
theorem matchPath_fill (pattern : PathPattern) :
    (∀ (values : Str → Str) (query : Option Str), (∀ n ∈ pattern.names, IsValue (values n)) →
        ∃ context, matchPath pattern.text (pattern.fill values ++ query.elim [] ('?' :: ·)) = some context ∧
          (∀ n, context.pathParams.lookup n = if n ∈ pattern.names then some (values n) else none) ∧
          context.queryString = query.getD []) ∧
      ∀ target context, matchPath pattern.text target = some context →
        (pattern.fill (pathValue context)).dropWhile (· == '/') = (splitQuery target).1.dropWhile (· == '/') :=
  ⟨fun _ query hvalues => matchPath_filled hvalues query, fun _ _ => fill_of_matchPath⟩

theorem redirectSegments_wellFormed :
    ∀ s ∈ [Segment.literal "r", .capture "slug"], s.WellFormed :=
  List.forall_mem_cons.2 ⟨⟨by decide, by decide, by decide, by decide⟩,
    List.forall_mem_singleton.2 ⟨by decide, by decide⟩⟩

/-- The pattern of the prefixed redirect. -/
def redirectPattern : PathPattern where
  segments := [.literal "r", .capture "slug"]
  nonempty := List.cons_ne_nil _ _
  wellFormed := redirectSegments_wellFormed
  distinct := List.nodup_singleton _

theorem redirectPattern_fill :
    redirectPattern.text = "/r/\x7bslug\x7d" ∧
      ∃ context, matchPath "/r/\x7bslug\x7d" "/r/abc?x=1" = some context ∧
        context.pathParams.lookup "slug".toList = some "abc".toList ∧ context.queryString = "x=1".toList := by
  obtain ⟨context, hmatch, hparams, hquery⟩ :=
    (matchPath_fill redirectPattern).1 (fun _ => "abc") (some "x=1")
      fun _ _ => ⟨by decide, by decide, by decide⟩
  exact ⟨rfl, context, hmatch, hparams "slug", hquery⟩

end UrlShortener

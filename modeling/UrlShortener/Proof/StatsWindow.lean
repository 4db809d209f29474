import UrlShortener.Proof.ClickStats
import UrlShortener.Proof.StatsEndpoints

/-!
# The window of a statistics request

The bounds of a request are seconds, any that fit 64 bits; they are compared, and compared with the events, as
nanoseconds of 64 bits.

* `selectsWindow_iff`: the nanoseconds select what the seconds do exactly if the later bound is still in range, and the
  earlier one is too or wraps around to the least time point there is.
* `read_window_iff`: **so does the reader count**, over the in-memory repository.
-/

namespace UrlShortener

open Clicks (AggregateBucket InMemoryClickEventRepository bucketStart isCounted isRedirect inWindow ofLink
  countersOf foldl_countEvent sortedBuckets_perm)
open Analytics Sql

/-! ## Seconds as nanoseconds of 64 bits -/

/-- The nanoseconds of these seconds fit 64 bits. -/
def fits (seconds : ℤ) : Prop := -9223372036 ≤ seconds ∧ seconds ≤ 9223372036

instance (seconds : ℤ) : Decidable (fits seconds) := inferInstanceAs (Decidable (_ ∧ _))

/-- The seconds lie before every time point, and wrap around to the first one. -/
def wrapsToFirst (seconds : ℤ) : Prop := seconds < -9223372036 ∧ seconds % 36028797018963968 = 18014398509481984

instance (seconds : ℤ) : Decidable (wrapsToFirst seconds) := inferInstanceAs (Decidable (_ ∧ _))

/-- **What keeps a window**: the bounds of one in order stay what they are, and of one out of order stay so. -/
def WindowKept (f t : ℤ) : Prop :=
  if f < t then fits t ∧ (fits f ∨ wrapsToFirst f) else wrapped t ≤ wrapped f

instance (f t : ℤ) : Decidable (WindowKept f t) := by
  unfold WindowKept
  infer_instance

theorem wrapped_eq_iff_fits (seconds : ℤ) : wrapped seconds = seconds * 1000000000 ↔ fits seconds := by
  obtain ⟨k, hk⟩ := wrapped_eq seconds
  have hbounds := wrapped_bounds seconds
  unfold fits
  omega

/-- The nanoseconds order the bounds and select the time points as the seconds do. -/
structure SelectsWindow (f t : ℤ) : Prop where
  order : fromTimeT f < fromTimeT t ↔ f < t
  points : f < t → ∀ x : TimePoint,
    fromTimeT f ≤ x ∧ x < fromTimeT t ↔ f * 1000000000 ≤ x.toInt ∧ x.toInt < t * 1000000000

theorem le_iff_wrapped (seconds : ℤ) (x : TimePoint) : fromTimeT seconds ≤ x ↔ wrapped seconds ≤ x.toInt := by
  rw [Int64.le_iff_toInt_le, toInt_fromTimeT_eq_wrapped]

theorem lt_iff_wrapped (seconds : ℤ) (x : TimePoint) : x < fromTimeT seconds ↔ x.toInt < wrapped seconds := by
  rw [Int64.lt_iff_toInt_lt, toInt_fromTimeT_eq_wrapped]

/-- The time points in terms of their numbers of nanoseconds. -/
theorem forall_timePoint {P : ℤ → Prop} :
    (∀ x : TimePoint, P x.toInt) ↔ ∀ n : ℤ, -9223372036854775808 ≤ n → n < 9223372036854775808 → P n := by
  constructor
  · intro h n hlow hhigh
    have hn : (Int64.ofInt n).toInt = n := Int64.toInt_ofInt_of_le hlow hhigh
    exact hn ▸ h (Int64.ofInt n)
  · intro h x
    exact h _ x.le_toInt x.toInt_lt

/-- **The window is kept** under just this condition. -/
theorem selectsWindow_iff (f t : ℤ) : SelectsWindow f t ↔ WindowKept f t := by
  have hf := wrapped_bounds f
  have ht := wrapped_bounds t
  have horder : fromTimeT f < fromTimeT t ↔ wrapped f < wrapped t := by
    rw [lt_iff_wrapped, toInt_fromTimeT_eq_wrapped]
  have hpoints : (∀ x : TimePoint, fromTimeT f ≤ x ∧ x < fromTimeT t ↔
      f * 1000000000 ≤ x.toInt ∧ x.toInt < t * 1000000000) ↔
      ∀ n : ℤ, -9223372036854775808 ≤ n → n < 9223372036854775808 →
        (wrapped f ≤ n ∧ n < wrapped t ↔ f * 1000000000 ≤ n ∧ n < t * 1000000000) := by
    simp only [le_iff_wrapped, lt_iff_wrapped]
    exact forall_timePoint
      (P := fun n => wrapped f ≤ n ∧ n < wrapped t ↔ f * 1000000000 ≤ n ∧ n < t * 1000000000)
  unfold WindowKept
  split
  · rename_i hlt
    rw [← wrapped_eq_iff_fits, ← wrapped_eq_iff_fits, wrapsToFirst, ← wrapped_eq_first_iff]
    constructor
    · intro h
      have hwlt := horder.1 (h.order.2 hlt)
      have hall := hpoints.1 (h.points hlt)
      -- the bounds themselves, the last time point of the window and the one before the first
      have hfirst := hall (wrapped f) hf.1 hf.2
      have hlast := hall (wrapped t - 1) (by omega) (by omega)
      have hend := hall (wrapped t) ht.1 ht.2
      have hbefore := hall (wrapped f - 1)
      omega
    · rintro ⟨hto, hfrom⟩
      have hle : f * 1000000000 ≤ wrapped f := by omega
      refine ⟨?_, fun _ => hpoints.2 ?_⟩
      · rw [horder]
        omega
      · intro n hlow hhigh
        omega
  · rename_i hlt
    constructor
    · intro h
      rw [← not_lt, ← horder, h.order]
      exact hlt
    · intro hle
      refine ⟨?_, fun h => absurd h hlt⟩
      rw [horder]
      omega

/-! ## The repository in memory -/

/-- A value with the number of its events, as the views have it. -/
def counted {K : Type} (g : K × ℕ) : K × UInt64 := (g.1, UInt64.ofNat g.2)

/-- **The answer of `GetAggregateStats` in memory**: the maps are copied out in the order of their iteration, which is
not specified. -/
structure CopiedOut (agg : Clicks.AggregateStats) (stats : AggregateStats) : Prop where
  totalAttempts : stats.totalAttempts = UInt64.ofNat agg.totalAttempts
  successfulRedirects : stats.successfulRedirects = UInt64.ofNat agg.successfulRedirects
  statusCodeCounts : (stats.statusCodeCounts.map fun i => (i.statusCode, i.count) : Multiset (ℕ × UInt64)) =
    agg.statusCodeCounts.entries.map fun e => counted (e.1, e.2)
  domainCounts : (stats.domainCounts.map fun i => (i.domain, i.count) : Multiset (Str × UInt64)) =
    agg.domainCounts.entries.map fun e => counted (e.1, e.2)
  timeBuckets : (stats.timeBuckets.map fun i => (i.bucketStart, i.count)) =
    agg.timeBuckets.map fun i => counted (i.bucketStart, i.count)

/-- A repository that holds these events in memory. -/
structure InMemory (events : List ClickEvent) (repo : ClickEventRepository) : Prop where
  answers : ∀ query, ∃ stats, repo query = some stats ∧
    CopiedOut (InMemoryClickEventRepository.getAggregateStats ⟨events⟩ query) stats

theorem exists_list_of_map {α β : Type} {m : Multiset β} (f : α → β) (hf : Function.Surjective f) :
    ∃ l : List α, (l.map f : Multiset β) = m := by
  refine ⟨m.toList.map (Function.surjInv hf), ?_⟩
  rw [List.map_map, (Function.rightInverse_surjInv hf).comp_eq_id, List.map_id, Multiset.coe_toList]

/-- There is an order in which the maps are copied out. -/
theorem exists_copiedOut (agg : Clicks.AggregateStats) : ∃ stats, CopiedOut agg stats := by
  obtain ⟨statusCodes, hstatus⟩ := exists_list_of_map (fun i : StatusCodeCount => (i.statusCode, i.count))
    (fun g => ⟨⟨g.1, g.2⟩, rfl⟩) (m := agg.statusCodeCounts.entries.map fun e => counted (e.1, e.2))
  obtain ⟨domains, hdomain⟩ := exists_list_of_map (fun i : DomainCount => (i.domain, i.count))
    (fun g => ⟨⟨g.1, g.2⟩, rfl⟩) (m := agg.domainCounts.entries.map fun e => counted (e.1, e.2))
  refine ⟨⟨_, _, statusCodes, domains, agg.timeBuckets.map fun i => ⟨i.bucketStart, UInt64.ofNat i.count⟩⟩, rfl, rfl,
    hstatus, hdomain, ?_⟩
  rw [List.map_map]
  rfl

theorem exists_inMemory (events : List ClickEvent) : ∃ repo, InMemory events repo := by
  choose answer hanswer using fun query =>
    exists_copiedOut (InMemoryClickEventRepository.getAggregateStats ⟨events⟩ query)
  exact ⟨fun query => some (answer query), ⟨fun query => ⟨answer query, rfl, hanswer query⟩⟩⟩

/-! ## What the view counts -/

/-- **The view counts exactly these events**: all of them, those that were redirected, and by status code, by domain
and by the start of their buckets, in some order. -/
structure CountsExactly (b : AggregateBucket) (events : List ClickEvent) (view : LinkStatsView) : Prop where
  totalAttempts : view.totalAttempts = UInt64.ofNat events.length
  successfulRedirects : view.successfulRedirects = UInt64.ofNat (events.countP isRedirect)
  statusCodeCounts : (view.statusCodeCounts.map fun i => (i.statusCode, i.count)).Perm
    ((groupCount (·.statusCode) events).map counted)
  domainCounts : (view.domainCounts.map fun i => (i.domain, i.count)).Perm
    ((groupCount (·.domain) events).map counted)
  timeBuckets : (view.timeBuckets.map fun i => (i.bucketStartEpoch, i.count)).Perm
    ((groupCount (fun e => toTimeT (bucketStart e.occurredAt b)) events).map counted)

/-- The entries of a map of counts, copied out, are the groups. -/
theorem perm_of_entries {K : Type} [DecidableEq K] {column : ClickEvent → K} {events : List ClickEvent}
    {l : List (K × UInt64)} (h : (l : Multiset (K × UInt64)) = (tally column events).entries.map fun e =>
      counted (e.1, e.2)) : l.Perm ((groupCount column events).map counted) := by
  rw [← Multiset.coe_eq_coe, h, ← Multiset.map_coe, ← tally_entries, Multiset.map_map]
  rfl

/-- **The view of what the repository answers counts the events of the query.** -/
theorem CopiedOut.countsExactly {events : List ClickEvent} {stats : AggregateStats} {query : Clicks.AggregateQuery}
    {b : AggregateBucket} (hb : query.bucket = some b)
    (h : CopiedOut (InMemoryClickEventRepository.getAggregateStats ⟨events⟩ query) stats)
    (request : GetLinkStatsQuery) :
    CountsExactly b (events.filter (isCounted query)) (LegacyLinkStatsReader.toView request stats) := by
  obtain ⟨htotal, hredirects, hstatus, hdomain, hbuckets⟩ := h
  simp only [InMemoryClickEventRepository.getAggregateStats, foldl_countEvent, countersOf, hb]
    at htotal hredirects hstatus hdomain hbuckets
  refine ⟨htotal, hredirects, ?_, ?_, ?_⟩
  · refine perm_of_entries (Eq.trans ?_ hstatus)
    simp only [LegacyLinkStatsReader.toView, List.map_map, Function.comp_def]
  · refine perm_of_entries (Eq.trans ?_ hdomain)
    simp only [LegacyLinkStatsReader.toView, List.map_map, Function.comp_def]
  · -- the start of a bucket is a number of whole seconds that fits
    have hview : (LegacyLinkStatsReader.toView request stats).timeBuckets.map
        (fun i => (i.bucketStartEpoch, i.count)) =
        (stats.timeBuckets.map fun i => (i.bucketStart, i.count)).map fun g => (toTimeT g.1, g.2) := by
      simp only [LegacyLinkStatsReader.toView, List.map_map, Function.comp_def]
    rw [hview, hbuckets, List.map_map]
    refine ((sortedBuckets_perm _ _).map _).trans (List.Perm.of_eq ?_)
    rw [List.map_map]
    refine List.map_congr_left fun g hg => ?_
    obtain ⟨e, -, heq⟩ := exists_of_mem_groupCount hg
    have hbounds := toTimeT_bounds (bucketStart e.occurredAt b)
    rw [heq] at hbounds
    simp only [Function.comp_apply, Clicks.bucketOf, counted, toTimeT_fromTimeT hbounds.1 hbounds.2]

/-- The event is of the slug, at a time in the interval of seconds from `f` up to `t`. -/
def inSeconds (slug : Str) (f t : ℤ) (e : ClickEvent) : Bool :=
  decide (f * 1000000000 ≤ e.occurredAt.toInt ∧ e.occurredAt.toInt < t * 1000000000) && e.slug == slug

/-- **A window that is read exactly**: a request with these bounds, for a slug and by a bucket that there is, is
answered exactly if they are in order, and then counts the events of the interval. -/
def ReadExactly (from_ to_ : Str) (f t : ℤ) : Prop :=
  ∀ (slug bucket : Str) (b : AggregateBucket) (events : List ClickEvent) (repo : ClickEventRepository),
    slug ≠ [] → parseBucket bucket = some b → InMemory events repo →
      ((∃ view, LegacyLinkStatsReader.read repo ⟨slug, from_, to_, bucket⟩ = .ok view) ↔ f < t) ∧
      ∀ view, LegacyLinkStatsReader.read repo ⟨slug, from_, to_, bucket⟩ = .ok view →
        CountsExactly b (events.filter (inSeconds slug f t)) view

/-- An event of the slug `a` at this time point. -/
def eventAt (x : TimePoint) : ClickEvent := ⟨[], x, "a", [], [], 302, [], [], []⟩

/-- An event is counted by the time points of the bounds. -/
theorem isCounted_window (f t : ℤ) (slug : Str) (b : AggregateBucket) (e : ClickEvent) :
    isCounted { slug := some slug, from_ := fromTimeT f, to_ := fromTimeT t, bucket := some b } e =
      (decide (fromTimeT f ≤ e.occurredAt ∧ e.occurredAt < fromTimeT t) && e.slug == slug) := by
  simp only [isCounted, inWindow, ofLink, Option.all_some, Option.all_none, Bool.and_true, Bool.decide_and]

/-- A list of one event tells the predicates apart. -/
theorem eq_of_count_single {p q : ClickEvent → Bool} {e : ClickEvent}
    (h : UInt64.ofNat ([e].filter p).length = UInt64.ofNat ([e].filter q).length) : p e = q e := by
  cases hp : p e <;> cases hq : q e <;> simp [hp, hq] at h ⊢

section Reader

variable {from_ to_ : Str} {f t : ℤ} (hfrom : epochSeconds from_ = some f) (hto : epochSeconds to_ = some t)
include hfrom hto

/-- A view that is read counts the events between the wrapped bounds. -/
theorem read_ok_countsExactly {slug bucket : Str} {b : AggregateBucket} {events : List ClickEvent}
    {repo : ClickEventRepository} (hbucket : parseBucket bucket = some b) (hrepo : InMemory events repo)
    {view : LinkStatsView} (h : LegacyLinkStatsReader.read repo ⟨slug, from_, to_, bucket⟩ = .ok view) :
    fromTimeT f < fromTimeT t ∧ CountsExactly b
      (events.filter (isCounted { slug := some slug, from_ := fromTimeT f, to_ := fromTimeT t, bucket := some b }))
      view := by
  obtain ⟨f', t', b', stats, ha, rfl⟩ := read_ok_iff.1 h
  obtain rfl : f = f' := Option.some.inj (hfrom.symm.trans ha.from_)
  obtain rfl : t = t' := Option.some.inj (hto.symm.trans ha.to_)
  obtain rfl : b = b' := Option.some.inj (hbucket.symm.trans ha.bucket)
  obtain ⟨stats', hanswer, hcopied⟩ := hrepo.answers
    { slug := some slug, from_ := fromTimeT f, to_ := fromTimeT t, bucket := some b }
  obtain rfl : stats = stats' := Option.some.inj (ha.repository.symm.trans hanswer)
  exact ⟨ha.order, hcopied.countsExactly rfl _⟩

/-- Bounds in the order of their time points are answered. -/
theorem exists_read_ok {slug bucket : Str} {b : AggregateBucket} {events : List ClickEvent}
    {repo : ClickEventRepository} (hslug : slug ≠ []) (hbucket : parseBucket bucket = some b)
    (hrepo : InMemory events repo) (horder : fromTimeT f < fromTimeT t) :
    ∃ view, LegacyLinkStatsReader.read repo ⟨slug, from_, to_, bucket⟩ = .ok view := by
  obtain ⟨stats, hanswer, -⟩ := hrepo.answers
    { slug := some slug, from_ := fromTimeT f, to_ := fromTimeT t, bucket := some b }
  exact ⟨_, read_ok_iff.2 ⟨f, t, b, stats, ⟨hslug, hfrom, hto, horder, hbucket, hanswer⟩, rfl⟩⟩

/-- **When a window is read exactly.** -/
theorem readExactly_iff : ReadExactly from_ to_ f t ↔ SelectsWindow f t := by
  constructor
  · intro h
    have horder : fromTimeT f < fromTimeT t ↔ f < t := by
      obtain ⟨repo, hrepo⟩ := exists_inMemory []
      rw [← (h "a" "day" .day [] repo (by decide) rfl hrepo).1]
      constructor
      · exact exists_read_ok hfrom hto (by decide) rfl hrepo
      · rintro ⟨view, hview⟩
        exact (read_ok_countsExactly hfrom hto rfl hrepo hview).1
    refine ⟨horder, fun hlt x => ?_⟩
    -- one event, at the time point in question
    obtain ⟨repo, hrepo⟩ := exists_inMemory [eventAt x]
    obtain ⟨view, hview⟩ : ∃ view, LegacyLinkStatsReader.read repo ⟨"a", from_, to_, "day"⟩ = .ok view :=
      exists_read_ok hfrom hto (by decide) rfl hrepo (horder.2 hlt)
    have hread := (read_ok_countsExactly hfrom hto rfl hrepo hview).2.totalAttempts
    have hmeant := ((h "a" "day" .day _ repo (by decide) rfl hrepo).2 view hview).totalAttempts
    have hsame := eq_of_count_single (hread.symm.trans hmeant)
    rw [isCounted_window] at hsame
    exact decide_eq_decide.1 (by simpa only [inSeconds, eventAt, beq_self_eq_true, Bool.and_true] using hsame)
  · intro h slug bucket b events repo hslug hbucket hrepo
    refine ⟨⟨?_, fun hlt => exists_read_ok hfrom hto hslug hbucket hrepo (h.order.2 hlt)⟩, ?_⟩
    · rintro ⟨view, hview⟩
      exact h.order.1 (read_ok_countsExactly hfrom hto hbucket hrepo hview).1
    · intro view hview
      obtain ⟨horder, hcounts⟩ := read_ok_countsExactly hfrom hto hbucket hrepo hview
      have hsame : events.filter (inSeconds slug f t) = events.filter
          (isCounted { slug := some slug, from_ := fromTimeT f, to_ := fromTimeT t, bucket := some b }) := by
        refine List.filter_congr fun e _ => ?_
        rw [isCounted_window, inSeconds, decide_eq_decide.2 (h.points (h.order.1 horder) e.occurredAt)]
      rw [hsame]
      exact hcounts

end Reader

/-- **When the window of a statistics request is what its bounds say.** -/
theorem read_window_iff (from_ to_ : Str) (f t : ℤ) (hfrom : epochSeconds from_ = some f)
    (hto : epochSeconds to_ = some t) : ReadExactly from_ to_ f t ↔ WindowKept f t := by
  rw [readExactly_iff hfrom hto, selectsWindow_iff]

/-- A window of one day is read exactly. -/
theorem read_window_iff_day : ReadExactly "1700000000" "1700086400" 1700000000 1700086400 :=
  (read_window_iff _ _ _ _ (by decide) (by decide)).2 (by decide)

/-- **A window up to the year 2286 is refused**: its end wraps around to a time before its start. -/
theorem open_end_refused :
    epochSeconds "0" = some 0 ∧ epochSeconds "9999999999" = some 9999999999 ∧
    ∀ repo, LegacyLinkStatsReader.read repo ⟨"promo", "0", "9999999999", "day"⟩ =
      .error ⟨.invalidField, "invalid_timestamp"⟩ := by
  refine ⟨by decide, by decide, fun repo => ?_⟩
  rfl

end UrlShortener

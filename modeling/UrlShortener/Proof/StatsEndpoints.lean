import UrlShortener.Spec.Stats

/-!
# The two statistics endpoints

* `outcome`: what a statistics request comes to, before it is turned into a view or printed.
* `read_eq`, `handle_eq`: the reader and the handler both are that outcome, each with its own wording.
* `endpoints_agree`: **the two answer alike**, byte for byte, and refuse alike, one error for one error.
-/

namespace UrlShortener

open Clicks (AggregateQuery AggregateBucket)
open Analytics

/-! ## The outcome -/

/-- Why there are no statistics. -/
inductive StatsError
  | notFound
  | invalidTimestamp
  | invalidBucket
  | repository
  deriving DecidableEq

namespace StatsError

/-- The error of the reader. -/
def appError : StatsError → AppError
  | notFound => ⟨.notFound, "Link not found"⟩
  | invalidTimestamp => ⟨.invalidField, "invalid_timestamp"⟩
  | invalidBucket => ⟨.invalidField, "invalid_bucket"⟩
  | repository => ⟨.storageFailure, "repository"⟩

/-- The status of the response. -/
def status : StatsError → ℕ
  | notFound => 404
  | invalidTimestamp => 400
  | invalidBucket => 400
  | repository => 500

/-- The word that the handler answers with. -/
def word : StatsError → Str
  | notFound => "not_found"
  | invalidTimestamp => "invalid_timestamp"
  | invalidBucket => "invalid_bucket"
  | repository => "repository"

/-- The answer of the handler. -/
def response (e : StatsError) (requestId : Str) : ℕ × Str :=
  (e.status, AnalyticsStatsHandler.errorBody e.word requestId)

theorem appError_injective : Function.Injective appError := by
  intro e e' h
  cases e <;> cases e' <;> first | rfl | exact absurd h (by decide)

theorem errorBody_injective {word word' requestId : Str}
    (h : AnalyticsStatsHandler.errorBody word requestId = AnalyticsStatsHandler.errorBody word' requestId) :
    word = word' := by
  unfold AnalyticsStatsHandler.errorBody at h
  exact List.append_cancel_left (List.append_cancel_right (List.append_cancel_right (List.append_cancel_right h)))

theorem response_injective {requestId : Str} {e e' : StatsError} (h : e.response requestId = e'.response requestId) :
    e = e' := by
  have hword : e.word = e'.word := errorBody_injective (congrArg Prod.snd h)
  cases e <;> cases e' <;> first | rfl | exact absurd hword (by decide)

theorem status_ne_ok (e : StatsError) : e.status ≠ 200 := by
  cases e <;> decide

end StatsError

/-- The three names of a bucket. -/
def parseBucket (bucket : Str) : Option AggregateBucket :=
  if bucket = "hour" then some .hour
  else if bucket = "day" then some .day
  else if bucket = "week" then some .week
  else none

/-- Both implementations go through the three names. -/
theorem ite_bucket {β : Type} (bucket : Str) (answer : AggregateBucket → β) (refusal : β) :
    (if bucket = "hour" then answer .hour
      else if bucket = "day" then answer .day
      else if bucket = "week" then answer .week
      else refusal) = (parseBucket bucket).elim refusal answer := by
  unfold parseBucket
  split_ifs <;> rfl

/-- **What a statistics request comes to**: the checks in their order, then the answer of the repository. -/
def outcome (repo : ClickEventRepository) (query : GetLinkStatsQuery) : Except StatsError AggregateStats :=
  if query.slug = [] then .error .notFound
  else
    match epochSeconds query.from_, epochSeconds query.to_ with
    | some f, some t =>
      if fromTimeT t ≤ fromTimeT f then .error .invalidTimestamp
      else
        match parseBucket query.bucket with
        | none => .error .invalidBucket
        | some b =>
          match repo { slug := some query.slug, from_ := fromTimeT f, to_ := fromTimeT t, bucket := some b } with
          | none => .error .repository
          | some stats => .ok stats
    | _, _ => .error .invalidTimestamp

/-- The request that is answered: every check passed. -/
structure Answered (repo : ClickEventRepository) (query : GetLinkStatsQuery) (f t : ℤ) (b : AggregateBucket)
    (stats : AggregateStats) : Prop where
  slug : query.slug ≠ []
  from_ : epochSeconds query.from_ = some f
  to_ : epochSeconds query.to_ = some t
  order : fromTimeT f < fromTimeT t
  bucket : parseBucket query.bucket = some b
  repository :
    repo { slug := some query.slug, from_ := fromTimeT f, to_ := fromTimeT t, bucket := some b } = some stats

theorem outcome_ok_iff {repo : ClickEventRepository} {query : GetLinkStatsQuery} {stats : AggregateStats} :
    outcome repo query = .ok stats ↔ ∃ f t b, Answered repo query f t b stats := by
  constructor
  · intro h
    unfold outcome at h
    split at h
    · cases h
    rename_i hslug
    split at h
    · rename_i f t hfrom hto
      split at h
      · cases h
      rename_i horder
      split at h
      · cases h
      rename_i b hbucket
      split at h
      · cases h
      rename_i stats' hrepo
      cases h
      exact ⟨f, t, b, hslug, hfrom, hto, Int64.not_le.1 horder, hbucket, hrepo⟩
    · cases h
  · rintro ⟨f, t, b, h⟩
    rw [outcome, if_neg h.slug]
    simp only [h.from_, h.to_, if_neg (Int64.not_le.2 h.order), h.bucket, h.repository]

variable (repo : ClickEventRepository)

/-- **Both implementations make the checks in one order**, and go on with what they make of the outcome. -/
theorem checks_eq {β : Type} (query : GetLinkStatsQuery) (finish : Except StatsError AggregateStats → β) :
    (if query.slug = [] then finish (.error .notFound)
      else
        match (epochSeconds query.from_).map fromTimeT with
        | none => finish (.error .invalidTimestamp)
        | some f =>
          match (epochSeconds query.to_).map fromTimeT with
          | none => finish (.error .invalidTimestamp)
          | some t =>
            if t ≤ f then finish (.error .invalidTimestamp)
            else
              let answer (bucket : AggregateBucket) : β :=
                match repo { slug := some query.slug, from_ := f, to_ := t, bucket := some bucket } with
                | none => finish (.error .repository)
                | some stats => finish (.ok stats)
              if query.bucket = "hour" then answer .hour
              else if query.bucket = "day" then answer .day
              else if query.bucket = "week" then answer .week
              else finish (.error .invalidBucket))
      = finish (outcome repo query) := by
  unfold outcome
  by_cases hslug : query.slug = []
  · rw [if_pos hslug, if_pos hslug]
  rw [if_neg hslug, if_neg hslug]
  cases epochSeconds query.from_ with
  | none => rfl
  | some f =>
    cases epochSeconds query.to_ with
    | none => rfl
    | some t =>
      simp -zeta only [Option.map_some]
      by_cases horder : fromTimeT t ≤ fromTimeT f
      · rw [if_pos horder, if_pos horder]
      rw [if_neg horder, if_neg horder]
      -- behind the checks, the three names of the buckets are one case
      extract_lets answer
      rw [ite_bucket]
      cases parseBucket query.bucket with
      | none => rfl
      | some b =>
        simp only [Option.elim, answer]
        cases repo { slug := some query.slug, from_ := fromTimeT f, to_ := fromTimeT t, bucket := some b } <;> rfl

/-- **The reader.** -/
theorem read_eq (query : GetLinkStatsQuery) :
    LegacyLinkStatsReader.read repo query =
      ((outcome repo query).map (LegacyLinkStatsReader.toView query)).mapError StatsError.appError := by
  rw [← checks_eq repo query fun result =>
    (result.map (LegacyLinkStatsReader.toView query)).mapError StatsError.appError]
  unfold LegacyLinkStatsReader.read LegacyLinkStatsReader.parseEpoch
  -- the reader parses both times before it looks at either
  cases epochSeconds query.from_ with
  | none => rfl
  | some f => cases epochSeconds query.to_ <;> rfl

variable {repo} in
/-- What the reader returns is the view of what the repository answered. -/
theorem read_ok_iff {query : GetLinkStatsQuery} {view : LinkStatsView} :
    LegacyLinkStatsReader.read repo query = .ok view ↔
      ∃ f t b stats, Answered repo query f t b stats ∧ view = LegacyLinkStatsReader.toView query stats := by
  rw [read_eq]
  cases houtcome : outcome repo query with
  | ok stats =>
    obtain ⟨f, t, b, h⟩ := outcome_ok_iff.1 houtcome
    constructor
    · rintro ⟨⟩
      exact ⟨f, t, b, stats, h, rfl⟩
    · rintro ⟨f', t', b', stats', h', rfl⟩
      have hsame := outcome_ok_iff.2 ⟨f', t', b', h'⟩
      rw [houtcome] at hsame
      cases hsame
      rfl
  | error e =>
    refine iff_of_false nofun ?_
    rintro ⟨f, t, b, stats, h, -⟩
    have hsame := outcome_ok_iff.2 ⟨f, t, b, h⟩
    rw [houtcome] at hsame
    cases hsame

/-- The answer of the handler to an outcome. -/
def response (query : GetLinkStatsQuery) (requestId : Str) : Except StatsError AggregateStats → ℕ × Str
  | .ok stats => (200, AnalyticsStatsHandler.body query.slug query.from_ query.to_ query.bucket stats)
  | .error e => e.response requestId

/-- The handler parses a time as the reader does. -/
theorem parseEpoch_eq (s : Str) : AnalyticsStatsHandler.parseEpoch s = (epochSeconds s).map fromTimeT := by
  unfold AnalyticsStatsHandler.parseEpoch epochSeconds
  cases stoll s with
  | none => rfl
  | some p =>
    obtain ⟨v, rest⟩ := p
    cases rest <;> rfl

/-- **The handler.** -/
theorem handle_eq (query : GetLinkStatsQuery) (requestId : Str) :
    AnalyticsStatsHandler.handle repo query.slug query.from_ query.to_ query.bucket requestId =
      response query requestId (outcome repo query) := by
  rw [← checks_eq repo query (response query requestId)]
  unfold AnalyticsStatsHandler.handle
  rw [parseEpoch_eq, parseEpoch_eq]
  rfl

/-- The handler prints what the serializer prints of the view. -/
theorem body_eq (query : GetLinkStatsQuery) (stats : AggregateStats) :
    AnalyticsStatsHandler.body query.slug query.from_ query.to_ query.bucket stats =
      serializeLinkStatsJson (LegacyLinkStatsReader.toView query stats) := by
  unfold AnalyticsStatsHandler.body serializeLinkStatsJson LegacyLinkStatsReader.toView
  simp only [List.map_map]
  rfl

/-- **The two endpoints agree**: the handler answers 200 exactly when the reader succeeds, and then with the text of
the view that was read; its four refusals are the four errors of the reader, one to one. -/
theorem endpoints_agree (query : GetLinkStatsQuery) (requestId : Str) :
    ((AnalyticsStatsHandler.handle repo query.slug query.from_ query.to_ query.bucket requestId).1 = 200 ↔
      ∃ view, LegacyLinkStatsReader.read repo query = .ok view) ∧
    (∀ view, LegacyLinkStatsReader.read repo query = .ok view →
      (AnalyticsStatsHandler.handle repo query.slug query.from_ query.to_ query.bucket requestId).2 =
        serializeLinkStatsJson view) ∧
    (∀ e : StatsError,
      AnalyticsStatsHandler.handle repo query.slug query.from_ query.to_ query.bucket requestId =
          e.response requestId ↔
        LegacyLinkStatsReader.read repo query = .error e.appError) ∧
    ∀ error, LegacyLinkStatsReader.read repo query = .error error → ∃ e : StatsError, error = e.appError := by
  rw [read_eq, handle_eq]
  cases outcome repo query with
  | ok stats =>
    refine ⟨iff_of_true rfl ⟨_, rfl⟩, ?_, ?_, ?_⟩
    · rintro view ⟨⟩
      exact body_eq query stats
    · intro e
      refine iff_of_false (fun h => ?_) nofun
      exact e.status_ne_ok (congrArg Prod.fst h).symm
    · nofun
  | error e =>
    refine ⟨iff_of_false e.status_ne_ok nofun, nofun, ?_, ?_⟩
    · intro e'
      constructor
      · intro h
        rw [StatsError.response_injective h]
        rfl
      · intro h
        have happ : e.appError = e'.appError := Except.error.inj h
        rw [StatsError.appError_injective happ]
        rfl
    · rintro error ⟨⟩
      exact ⟨e, rfl⟩

end UrlShortener

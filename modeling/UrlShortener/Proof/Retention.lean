import UrlShortener.Spec.Clicks
import Mathlib.Algebra.Ring.Int.Defs

/-!
# The retention job

* `retention_exact_iff`: **the job deletes what is older than the configured days, and nothing else, exactly when
  that instant is a time point.** The validator sets no upper bound, and before the first time point the
  subtraction wraps to a cutoff in the future.
-/

namespace UrlShortener.Clicks

open InMemoryClickEventRepository

variable {config : AnalyticsConfig} {now : TimePoint} {repo : InMemoryClickEventRepository}

/-- `now` minus the days that are kept, in nanoseconds. -/
def AnalyticsConfig.instant (config : AnalyticsConfig) (now : TimePoint) : ℤ :=
  now.toInt - config.retentionDays.toNat * 86400000000000

/-- The job on the repository in memory, whose deletion does not fail. -/
def runInMemory (config : AnalyticsConfig) (now : TimePoint) (repo : InMemoryClickEventRepository) :
    RetentionCleanupResult × InMemoryClickEventRepository :=
  runRetention (fun repo cutoff => .ok (repo.deleteOlderThan cutoff)) config now repo

/-! ## The cutoff -/

theorem retentionDays_ne_zero (h : config.validate = .ok ()) : config.retentionDays ≠ 0 := by
  unfold AnalyticsConfig.validate at h
  split at h
  · cases h
  · rename_i hvalid
    exact fun hzero => hvalid (.inr (.inr (.inr (.inr (.inr (.inl hzero))))))

/-- Days that are cast without a change of value. -/
theorem toInt_days (config : AnalyticsConfig) (h : config.retentionDays.toNat < 2 ^ 63) :
    config.retentionDays.toInt64.toInt = config.retentionDays.toNat := by
  rw [← Int64.toInt_toBitVec, UInt64.toBitVec_toInt64, BitVec.toInt_eq_toNat_of_lt (by
    rw [UInt64.toNat_toBitVec]
    omega), UInt64.toNat_toBitVec]

/-- **All the wrapping is that of the result.** -/
theorem toInt_cutoff (now days : Int64) :
    (now - 24 * days * 3600000000000).toInt = (now.toInt - days.toInt * 86400000000000).bmod (2 ^ 64) := by
  have h24 : (24 : Int64).toInt = 24 := by decide
  have hhour : (3600000000000 : Int64).toInt = 3600000000000 := by decide
  rw [Int64.toInt_sub, Int64.toInt_mul, Int64.toInt_mul, h24, hhour, Int.bmod_mul_bmod, Int.sub_bmod_bmod]
  congr 1
  omega

theorem cutoff_eq_instant (hvalid : config.validate = .ok ()) (h : -2 ^ 63 ≤ config.instant now) :
    ∃ cutoff : TimePoint, cutoff.toInt = config.instant now ∧
      ∀ repo, runInMemory config now repo =
        ({ enabled := true, cutoff := some cutoff }, repo.deleteOlderThan cutoff) := by
  have hdays : config.retentionDays.toNat ≠ 0 := by
    rw [← UInt64.toNat_zero, Ne, UInt64.toNat_inj]
    exact retentionDays_ne_zero hvalid
  have hnow := Int64.toInt_lt now
  unfold AnalyticsConfig.instant at h ⊢
  -- so few days that none of the conversions loses anything
  have hcast := toInt_days config (by omega)
  have hpos : ¬config.retentionDays.toInt64 ≤ 0 := by
    rw [Int64.le_iff_toInt_le, hcast, Int64.toInt_zero]
    omega
  refine ⟨now - 24 * config.retentionDays.toInt64 * 3600000000000, ?_, fun repo => ?_⟩
  · rw [toInt_cutoff, hcast]
    exact Int.bmod_eq_of_le (by omega) (by omega)
  · rw [runInMemory, runRetention, if_neg hpos]

/-! ## What is kept -/

/-- An event before the window is not counted. -/
theorem countEvent_before {query : AggregateQuery} {e : ClickEvent} (h : e.occurredAt < query.from_)
    (c : Counters) : countEvent query c e = c := by
  unfold countEvent
  split
  · rfl
  split
  · rfl
  · rw [if_pos (.inl h)]

/-- A window that begins at the cutoff or later does not see the deletion. -/
theorem getAggregateStats_deleteOlderThan {cutoff : TimePoint} {query : AggregateQuery}
    (h : cutoff.toInt ≤ query.from_.toInt) (repo : InMemoryClickEventRepository) :
    (repo.deleteOlderThan cutoff).getAggregateStats query = repo.getAggregateStats query := by
  have hloop : (repo.deleteOlderThan cutoff).events.foldl (countEvent query) {} =
      repo.events.foldl (countEvent query) {} := by
    rw [deleteOlderThan, List.foldl_filter]
    congr 1
    funext c e
    split
    · rfl
    · rename_i hold
      rw [Bool.not_eq_true, Bool.not_eq_false', decide_eq_true_eq, Int64.lt_iff_toInt_lt] at hold
      have hbefore : e.occurredAt < query.from_ := Int64.lt_iff_toInt_lt.2 (by omega)
      rw [countEvent_before hbefore]
  unfold getAggregateStats
  rw [hloop]

/-- **When retention keeps the configured days.** -/
theorem retention_exact_iff (hvalid : config.validate = .ok ()) (now : TimePoint)
    (repo : InMemoryClickEventRepository) :
    ((∃ cutoff, (runInMemory config now repo).1.cutoff = some cutoff ∧ cutoff.toInt = config.instant now) ∧
      (∀ e ∈ repo.events, config.instant now ≤ e.occurredAt.toInt → e ∈ (runInMemory config now repo).2.events) ∧
      ∀ query : AggregateQuery, config.instant now ≤ query.from_.toInt →
        (runInMemory config now repo).2.getAggregateStats query = repo.getAggregateStats query) ↔
      -2 ^ 63 ≤ config.instant now := by
  constructor
  · rintro ⟨⟨cutoff, -, hcutoff⟩, -, -⟩
    rw [← hcutoff]
    exact Int64.le_toInt cutoff
  · intro h
    obtain ⟨cutoff, hcutoff, hrun⟩ := cutoff_eq_instant hvalid h
    rw [hrun, ← hcutoff]
    refine ⟨⟨cutoff, rfl, rfl⟩, fun e he hyoung => ?_, fun query hquery => ?_⟩
    · refine List.mem_filter.2 ⟨he, ?_⟩
      rw [Bool.not_eq_true', decide_eq_false_iff_not, Int64.lt_iff_toInt_lt]
      omega
    · exact getAggregateStats_deleteOlderThan hquery repo

/-- The defaults, with a salt. -/
def saltedConfig : AnalyticsConfig := { clientHashSalt := "salt" }

/-- An event of the year 2023. -/
def recentEvent : ClickEvent where
  eventId := "1"
  occurredAt := 1700000000000000000
  slug := "abc"
  linkId := "id"
  domain := "a"
  statusCode := 302
  referrer := []
  userAgent := []
  clientIdHash := []

/-- Thirty days are kept: the event of this moment, and not one of the year 2020. -/
theorem retention_exact_iff_sample :
    let repo : InMemoryClickEventRepository := ⟨[{ recentEvent with occurredAt := 1600000000000000000 }, recentEvent]⟩
    let run := runInMemory saltedConfig 1700000000000000000 repo
    run.2.events = [recentEvent] ∧
      (∃ cutoff, run.1.cutoff = some cutoff ∧ cutoff.toInt = 1697408000000000000) ∧
      (∀ e ∈ repo.events, 1697408000000000000 ≤ e.occurredAt.toInt → e ∈ run.2.events) ∧
      ∀ query : AggregateQuery, 1697408000000000000 ≤ query.from_.toInt →
        run.2.getAggregateStats query = repo.getAggregateStats query :=
  ⟨by decide, (retention_exact_iff (show saltedConfig.validate = .ok () from rfl) 1700000000000000000 _).2 (by decide)⟩

/-- With 200000 days the cutoff wraps into the future, and an event of this moment is deleted. -/
theorem recent_event_deleted :
    ({ saltedConfig with retentionDays := 200000 } : AnalyticsConfig).validate = .ok () ∧
    (runInMemory { saltedConfig with retentionDays := 200000 } 1700000000000000000 ⟨[recentEvent]⟩).2.events = [] := by
  decide

end UrlShortener.Clicks

import UrlShortener.Proof.ClickStats

/-!
# Laws of the in-memory statistics

* `aggregate_partition`: **the counts by status, by domain and by bucket are partitions of the events that match.**
* `aggregate_additive`: **the statistics of two windows that follow one another add up.**
-/

namespace UrlShortener.Clicks

open Sql InMemoryClickEventRepository

variable {query : AggregateQuery} {e : ClickEvent} {events : List ClickEvent} {b : AggregateBucket}

/-! ## Partitions -/

/-- The items of a hash map in some order, as a loop over it appends them to a vector. -/
def Lists {K V : Type} [DecidableEq K] (items : List (K × V)) (m : UnorderedMap K V) : Prop :=
  (items : Multiset (K × V)) = m.entries.map fun entry => (entry.1, entry.2)

/-- A vector of counts: its keys are distinct, and the counts add up to the total. -/
structure Partitions {K : Type} (total : ℕ) (items : List (K × ℕ)) : Prop where
  distinct : (items.map (·.1)).Nodup
  sum : (items.map (·.2)).sum = total

theorem Lists.perm {K : Type} [DecidableEq K] {column : ClickEvent → K} {items : List (K × ℕ)}
    (h : Lists items (tally column events)) : items.Perm (groupCount column events) := by
  rw [← Multiset.coe_eq_coe, ← tally_entries]
  exact h

theorem partitions_groupCount {K : Type} [DecidableEq K] (column : ClickEvent → K) (events : List ClickEvent) :
    Partitions events.length (groupCount column events) :=
  ⟨groupCount_keys_nodup, sum_groupCount_all column events⟩

theorem Partitions.perm {K : Type} {total : ℕ} {items items' : List (K × ℕ)} (h : Partitions total items)
    (hperm : items'.Perm items) : Partitions total items' where
  distinct := (hperm.map _).nodup_iff.2 h.distinct
  sum := ((hperm.map _).sum_eq).trans h.sum

/-- The counts of the statuses of redirects add up to the redirects. -/
theorem sum_redirects {items : List (ℕ × ℕ)} (hperm : items.Perm (groupCount (·.statusCode) events)) :
    ((items.filter fun item => decide (300 ≤ item.1 ∧ item.1 < 400)).map (·.2)).sum = events.countP isRedirect := by
  rw [((hperm.filter _).map _).sum_eq]
  exact sum_groupCount (fun e : ClickEvent => e.statusCode) events fun status => decide (300 ≤ status ∧ status < 400)

theorem sum_sortedBuckets (column : ClickEvent → ℤ) (events : List ClickEvent) :
    ((sortedBuckets (tally column events)).map (·.count)).sum = events.length := by
  rw [((sortedBuckets_perm column events).map _).sum_eq, List.map_map]
  exact sum_groupCount_all column events

/-- The events of a bucket are those of an interval of its width. -/
theorem bucketSeconds_eq_iff {k : ℤ} (hwidth : b.width ∣ k) (he : 0 ≤ e.occurredAt.toInt) :
    bucketSeconds b e = k ↔
      k * 1000000000 ≤ e.occurredAt.toInt ∧ e.occurredAt.toInt < (k + b.width) * 1000000000 := by
  have hseconds : toTimeT e.occurredAt = e.occurredAt.toInt / 1000000000 := Int.tdiv_eq_ediv_of_nonneg he
  have hpositive : 0 ≤ e.occurredAt.toInt / 1000000000 := Int.ediv_nonneg he (by decide)
  rw [bucketSeconds, hseconds, Int.tdiv_eq_ediv_of_nonneg hpositive]
  -- the width is a number now
  cases b <;> simp only [AggregateBucket.width] at hwidth ⊢ <;> omega

theorem width_dvd_bucketSeconds (b : AggregateBucket) (e : ClickEvent) : b.width ∣ bucketSeconds b e :=
  Int.dvd_mul_left _ _

/-- **What a bucket is**: it starts at a multiple of its width, and counts the events of an interval. -/
theorem mem_sortedBuckets {t : TimeBucketCount} (ht : t ∈ sortedBuckets (tally (bucketSeconds b) events)) :
    b.width * 1000000000 ∣ t.bucketStart.toInt ∧
    ((∀ e ∈ events, 0 ≤ e.occurredAt.toInt) →
      t.count = events.countP fun e => decide (t.bucketStart.toInt ≤ e.occurredAt.toInt ∧
        e.occurredAt.toInt < t.bucketStart.toInt + b.width * 1000000000)) := by
  obtain ⟨⟨k, n⟩, hg, rfl⟩ := List.mem_map.1 ((sortedBuckets_perm _ _).mem_iff.1 ht)
  have hwidth : b.width ∣ k := by
    obtain ⟨e, -, rfl⟩ := exists_of_mem_groupCount hg
    exact width_dvd_bucketSeconds b e
  rw [bucketOf_toInt hg]
  refine ⟨mul_dvd_mul_right hwidth _, fun hepoch => ?_⟩
  have hcount := (mem_groupCount.1 hg).2
  rw [bucketOf, ← hcount]
  refine List.countP_congr fun e he => ?_
  rw [decide_eq_true_eq, decide_eq_true_eq, bucketSeconds_eq_iff hwidth (hepoch e he), add_mul]

/-- **The statistics are partitions of the events that match.** The loops over the hash maps append their items to
`statuses` and `domains` in some order. -/
theorem aggregate_partition (repo : InMemoryClickEventRepository) (query : AggregateQuery) (b : AggregateBucket)
    (hb : query.bucket = some b) (statuses : List (ℕ × ℕ)) (domains : List (Str × ℕ))
    (hstatuses : Lists statuses (repo.getAggregateStats query).statusCodeCounts)
    (hdomains : Lists domains (repo.getAggregateStats query).domainCounts) :
    let stats := repo.getAggregateStats query
    Partitions stats.totalAttempts statuses ∧
    Partitions stats.totalAttempts domains ∧
    Partitions stats.totalAttempts (stats.timeBuckets.map fun t => (t.bucketStart, t.count)) ∧
    ((statuses.filter fun item => decide (300 ≤ item.1 ∧ item.1 < 400)).map (·.2)).sum = stats.successfulRedirects ∧
    stats.timeBuckets.Pairwise (·.bucketStart < ·.bucketStart) ∧
    ((∀ e ∈ repo.events, isCounted query e = true → 0 ≤ e.occurredAt.toInt) →
      ∀ t ∈ stats.timeBuckets, b.width * 1000000000 ∣ t.bucketStart.toInt ∧
        t.count = (repo.events.filter (isCounted query)).countP fun e =>
          decide (t.bucketStart.toInt ≤ e.occurredAt.toInt ∧
            e.occurredAt.toInt < t.bucketStart.toInt + b.width * 1000000000)) := by
  rw [inMemory_getAggregateStats] at hstatuses hdomains ⊢
  rw [hb, Option.elim_some]
  set counted := repo.events.filter (isCounted query) with hcounted
  have hsorted : (sortedBuckets (tally (bucketSeconds b) counted)).Pairwise (·.bucketStart < ·.bucketStart) :=
    (sortedBuckets_sorted b counted).imp Int64.lt_iff_toInt_lt.2
  refine ⟨?_, ?_, ⟨?_, ?_⟩, sum_redirects hstatuses.perm, hsorted, fun hepoch t ht => ?_⟩
  · exact (partitions_groupCount _ _).perm hstatuses.perm
  · exact (partitions_groupCount _ _).perm hdomains.perm
  · rw [List.map_map]
    refine List.pairwise_map.2 (hsorted.imp fun hlt => ?_)
    exact Int64.ne_of_lt hlt
  · rw [List.map_map]
    exact sum_sortedBuckets _ _
  · obtain ⟨hwidth, hcount⟩ := mem_sortedBuckets ht
    refine ⟨hwidth, hcount fun e he => ?_⟩
    obtain ⟨hmem, hmatches⟩ := List.mem_filter.1 (hcounted ▸ he)
    exact hepoch e hmem hmatches

/-- Two redirects in the hour that starts at 3600, a missing link of another domain in the next one, and an event
that is too late. -/
theorem aggregate_partition_sample :
    let missing : ClickEvent := { clickAt "3" "y" 7300 with domain := "b".toList, statusCode := 404 }
    let repo := insertBatch {} [missing, clickAt "1" "x" 3605, clickAt "4" "x" 90000, clickAt "2" "x" 3700]
    let query : AggregateQuery := { to_ := 86400000000000, bucket := some .hour }
    let stats := repo.getAggregateStats query
    Partitions stats.totalAttempts [(302, 2), (404, 1)] ∧
    Partitions stats.totalAttempts [("a".toList, 2), ("b".toList, 1)] ∧
    Partitions stats.totalAttempts (stats.timeBuckets.map fun t => (t.bucketStart, t.count)) ∧
    (([(302, 2), (404, 1)].filter fun item => decide (300 ≤ item.1 ∧ item.1 < 400)).map (·.2)).sum
      = stats.successfulRedirects ∧
    stats.timeBuckets.Pairwise (·.bucketStart < ·.bucketStart) ∧
    ((∀ e ∈ repo.events, isCounted query e = true → 0 ≤ e.occurredAt.toInt) →
      ∀ t ∈ stats.timeBuckets, AggregateBucket.hour.width * 1000000000 ∣ t.bucketStart.toInt ∧
        t.count = (repo.events.filter (isCounted query)).countP fun e =>
          decide (t.bucketStart.toInt ≤ e.occurredAt.toInt ∧
            e.occurredAt.toInt < t.bucketStart.toInt + AggregateBucket.hour.width * 1000000000)) :=
  aggregate_partition _ _ .hour rfl [(302, 2), (404, 1)] [("a".toList, 2), ("b".toList, 1)] (by unfold Lists; decide)
    (by unfold Lists; decide)

/-! ## Windows that follow one another -/

/-- The count of a key, or 0 where it does not occur. -/
def countOf {K : Type} [DecidableEq K] (counts : UnorderedMap K ℕ) (k : K) : ℕ := (counts.lookup k).getD 0

/-- The count of the bucket with this start, or 0 where there is none. -/
def bucketCount (buckets : List TimeBucketCount) (start : TimePoint) : ℕ :=
  ((buckets.filter fun t => t.bucketStart = start).map (·.count)).sum

theorem bucketCount_sortedBuckets (column : ClickEvent → ℤ) (events : List ClickEvent) (start : TimePoint) :
    bucketCount (sortedBuckets (tally column events)) start =
      events.countP fun e => decide (fromTimeT (column e) = start) := by
  rw [bucketCount, (((sortedBuckets_perm column events).filter _).map _).sum_eq, List.filter_map, List.map_map]
  exact sum_groupCount column events fun k => decide (fromTimeT k = start)

section Split

variable {mid : TimePoint}

/-- Before the middle an event can only be in the first part. -/
theorem isCounted_of_before (hto : mid ≤ query.to_) (h : e.occurredAt < mid) :
    isCounted { query with to_ := mid } e = isCounted query e ∧ isCounted { query with from_ := mid } e = false := by
  have hend : e.occurredAt < query.to_ := Int64.lt_of_lt_of_le h hto
  have hstart : ¬mid ≤ e.occurredAt := Int64.not_le.2 h
  simp [isCounted, inWindow, ofLink, h, hend, hstart]

/-- From the middle on it can only be in the second. -/
theorem isCounted_of_after (hfrom : query.from_ ≤ mid) (h : ¬e.occurredAt < mid) :
    isCounted { query with to_ := mid } e = false ∧ isCounted { query with from_ := mid } e = isCounted query e := by
  have hmid : mid ≤ e.occurredAt := Int64.not_lt.1 h
  have hstart : query.from_ ≤ e.occurredAt := Int64.le_trans hfrom hmid
  simp [isCounted, inWindow, ofLink, h, hmid, hstart]

/-- **An event of the window is in exactly one of its parts.** -/
theorem countP_isCounted_split (hfrom : query.from_ ≤ mid) (hto : mid ≤ query.to_) (p : ClickEvent → Bool)
    (events : List ClickEvent) :
    (events.filter (isCounted query)).countP p =
      (events.filter (isCounted { query with to_ := mid })).countP p +
        (events.filter (isCounted { query with from_ := mid })).countP p := by
  simp only [List.countP_filter]
  induction events with
  | nil => rfl
  | cons e events ih =>
    simp only [List.countP_cons]
    by_cases hlt : e.occurredAt < mid
    · obtain ⟨hfirst, hsecond⟩ := isCounted_of_before hto hlt
      rw [hfirst, hsecond, ih, Bool.and_false, if_neg Bool.false_ne_true]
      omega
    · obtain ⟨hfirst, hsecond⟩ := isCounted_of_after hfrom hlt
      rw [hfirst, hsecond, ih, Bool.and_false, if_neg Bool.false_ne_true]
      omega

end Split

theorem bucketCount_timeBuckets (repo : InMemoryClickEventRepository) (query : AggregateQuery) (start : TimePoint) :
    bucketCount (repo.getAggregateStats query).timeBuckets start =
      (repo.events.filter (isCounted query)).countP fun e =>
        query.bucket.any fun b => decide (fromTimeT (bucketSeconds b e) = start) := by
  rw [inMemory_getAggregateStats]
  cases query.bucket with
  | none => simp [bucketCount]
  | some b => exact bucketCount_sortedBuckets (bucketSeconds b) _ start

/-- **Statistics are additive over time.** -/
theorem aggregate_additive (repo : InMemoryClickEventRepository) (query : AggregateQuery) (mid : TimePoint)
    (hfrom : query.from_ ≤ mid) (hto : mid ≤ query.to_) :
    let whole := repo.getAggregateStats query
    let first := repo.getAggregateStats { query with to_ := mid }
    let second := repo.getAggregateStats { query with from_ := mid }
    whole.totalAttempts = first.totalAttempts + second.totalAttempts ∧
    whole.successfulRedirects = first.successfulRedirects + second.successfulRedirects ∧
    (∀ status, countOf whole.statusCodeCounts status =
      countOf first.statusCodeCounts status + countOf second.statusCodeCounts status) ∧
    (∀ domain, countOf whole.domainCounts domain =
      countOf first.domainCounts domain + countOf second.domainCounts domain) ∧
    ∀ start, bucketCount whole.timeBuckets start =
      bucketCount first.timeBuckets start + bucketCount second.timeBuckets start := by
  have hsplit := fun p => countP_isCounted_split hfrom hto p repo.events
  refine ⟨?_, ?_, fun status => ?_, fun domain => ?_, fun start => ?_⟩
  · simp only [inMemory_getAggregateStats]
    have htotal := hsplit fun _ => true
    rwa [List.countP_true] at htotal
  · simp only [inMemory_getAggregateStats]
    exact hsplit isRedirect
  · simp only [inMemory_getAggregateStats, countOf, getD_lookup_tally]
    exact hsplit _
  · simp only [inMemory_getAggregateStats, countOf, getD_lookup_tally]
    exact hsplit _
  · simp only [bucketCount_timeBuckets]
    exact hsplit _

/-- An hour cut at its middle. -/
theorem aggregate_additive_sample :
    let repo := insertBatch {} [clickAt "1" "x" 3605, clickAt "2" "x" 5405]
    let query : AggregateQuery := { to_ := 7200000000000, bucket := some .hour }
    let whole := repo.getAggregateStats query
    let first := repo.getAggregateStats { query with to_ := 5400000000000 }
    let second := repo.getAggregateStats { query with from_ := 5400000000000 }
    whole.totalAttempts = first.totalAttempts + second.totalAttempts ∧
    whole.successfulRedirects = first.successfulRedirects + second.successfulRedirects ∧
    (∀ status, countOf whole.statusCodeCounts status =
      countOf first.statusCodeCounts status + countOf second.statusCodeCounts status) ∧
    (∀ domain, countOf whole.domainCounts domain =
      countOf first.domainCounts domain + countOf second.domainCounts domain) ∧
    ∀ start, bucketCount whole.timeBuckets start =
      bucketCount first.timeBuckets start + bucketCount second.timeBuckets start :=
  aggregate_additive (insertBatch {} [clickAt "1" "x" 3605, clickAt "2" "x" 5405])
    { to_ := 7200000000000, bucket := some .hour } 5400000000000 (by decide) (by decide)

end UrlShortener.Clicks

import UrlShortener.Proof.Numerals

/-!
# Statistics of click events

The in-memory repository counts in one loop over its events, the SQL one asks five questions. Both are put in
terms of the list of events that they look at.

* `foldl_countEvent`: the loop counts the events that match the query.
* `getAggregateStats_insertBatch`: the statements count the events of the window and of the slug.
* `repositories_agree_iff`: **the two agree exactly when the filter by link, which the statements do not have,
  excludes nothing, and the texts of the bucket starts are in the order of their numbers.**
-/

namespace UrlShortener.Clicks

open Sql

variable {query : AggregateQuery} {e : ClickEvent} {events : List ClickEvent}

/-! ## The loop -/

/-- The event is in the window, and of the slug if there is one. -/
def inWindow (query : AggregateQuery) (e : ClickEvent) : Bool :=
  decide (query.from_ ≤ e.occurredAt) && decide (e.occurredAt < query.to_) && query.slug.all (e.slug == ·)

/-- The event is of the link, if there is one. -/
def ofLink (query : AggregateQuery) (e : ClickEvent) : Bool := query.linkId.all (e.linkId == ·)

/-- The event is in the window and of the link. -/
def isCounted (query : AggregateQuery) (e : ClickEvent) : Bool := inWindow query e && ofLink query e

/-- A status of the 300s. -/
def isRedirect (e : ClickEvent) : Bool := decide (300 ≤ e.statusCode ∧ e.statusCode < 400)

open InMemoryClickEventRepository in
/-- What the counters are after a loop over events that all match. -/
def countersOf (query : AggregateQuery) (events : List ClickEvent) : Counters where
  totalAttempts := events.length
  successfulRedirects := events.countP isRedirect
  byStatus := tally (·.statusCode) events
  byDomain := tally (·.domain) events
  byBucket :=
    match query.bucket with
    | none => ∅
    | some b => tally (fun e => toTimeT (bucketStart e.occurredAt b)) events

theorem any_bne (o : Option Str) (s : Str) : o.any (s != ·) = !o.all (s == ·) := by
  cases o with
  | none => rfl
  | some t => rfl

open InMemoryClickEventRepository in
theorem countEvent_of_not_matches (h : isCounted query e = false) (c : Counters) :
    countEvent query c e = c := by
  unfold countEvent
  rw [any_bne, any_bne]
  split
  · rfl
  split
  · rfl
  · rename_i hslug hlink
    rw [Bool.not_eq_true, Bool.not_eq_false'] at hslug hlink
    refine if_pos ?_
    simp only [isCounted, inWindow, ofLink, hslug, hlink, Bool.and_true, Bool.and_eq_false_iff, decide_eq_false_iff_not,
      Int64.not_le, Int64.not_lt] at h
    exact h

open InMemoryClickEventRepository in
theorem countEvent_of_matches (h : isCounted query e = true) (events : List ClickEvent) :
    countEvent query (countersOf query events) e = countersOf query (events ++ [e]) := by
  simp only [isCounted, inWindow, ofLink, Bool.and_eq_true, decide_eq_true_eq] at h
  obtain ⟨⟨⟨hfrom, hto⟩, hslug⟩, hlink⟩ := h
  have hwindow : ¬(e.occurredAt < query.from_ ∨ query.to_ ≤ e.occurredAt) := by
    rw [not_or, Int64.not_lt, Int64.not_le]
    exact ⟨hfrom, hto⟩
  unfold countEvent
  rw [any_bne, any_bne, hslug, hlink, if_neg (by decide), if_neg (by decide), if_neg hwindow]
  have hredirects : (events ++ [e]).countP isRedirect =
      if 300 ≤ e.statusCode ∧ e.statusCode < 400 then events.countP isRedirect + 1 else events.countP isRedirect := by
    rw [List.countP_append, List.countP_singleton, isRedirect]
    by_cases hstatus : 300 ≤ e.statusCode ∧ e.statusCode < 400
    · rw [decide_eq_true hstatus, if_pos rfl, if_pos hstatus]
    · rw [decide_eq_false hstatus, if_neg (by decide), if_neg hstatus, Nat.add_zero]
  unfold countersOf
  rw [hredirects, List.length_append, List.length_singleton, tally_append, tally_append]
  cases query.bucket with
  | none => rfl
  | some b => simp only [tally_append]

/-- **The loop counts the events that match the query.** -/
theorem foldl_countEvent (query : AggregateQuery) (events : List ClickEvent) :
    events.foldl (InMemoryClickEventRepository.countEvent query) {} =
      countersOf query (events.filter (isCounted query)) := by
  induction events using List.reverseRecOn with
  | nil =>
    unfold countersOf
    cases query.bucket <;> rfl
  | append_singleton events e ih =>
    rw [List.foldl_append, List.foldl_cons, List.foldl_nil, ih, List.filter_append]
    cases h : isCounted query e with
    | true =>
      rw [List.filter_cons_of_pos h, List.filter_nil]
      exact countEvent_of_matches h _
    | false =>
      rw [List.filter_cons_of_neg (by simp [h]), List.filter_nil, List.append_nil]
      exact countEvent_of_not_matches h _

/-! ## Texts of numbers -/

/-- SQLite prints an integer as `std::to_string` does. -/
theorem castText_eq (n : ℤ) : castText n = (toString n).toList := by
  rw [toString_toList, castText]
  by_cases hneg : n < 0
  · have hnat : (-n).toNat = n.natAbs := by omega
    rw [if_neg (by omega), if_pos hneg, hnat, List.singleton_append]
  · have hnat : n.toNat = n.natAbs := by omega
    rw [if_pos (by omega), if_neg hneg, hnat, List.nil_append]

theorem storedInteger_castText (n : ℤ) : storedInteger (castText n) = n := by
  rw [castText_eq, storedInteger, readNumeral_toString, Option.elim_some, value_toString]

theorem castText_injective : Function.Injective castText := Function.LeftInverse.injective storedInteger_castText

theorem toNat_storedInteger_castText (n : ℕ) : (storedInteger (castText n)).toNat = n := by
  rw [storedInteger_castText, Int.toNat_natCast]

theorem readGroups_eq {K : Type} (groups : List (K × ℕ)) : SqlClickEventRepository.readGroups groups = groups := by
  simp only [SqlClickEventRepository.readGroups, toNat_storedInteger_castText]
  exact List.map_id groups

/-! ## The statements -/

/-- An event at a whole second that is not before the epoch. -/
structure Dated (e : ClickEvent) : Prop where
  whole : e.occurredAt.toInt % 1000000000 = 0
  epoch : 0 ≤ e.occurredAt.toInt

theorem insertBatch_clickEvents (repo : SqlClickEventRepository) (events : List ClickEvent) :
    (repo.insertBatch events).clickEvents = insertAll (·.eventId) repo.clickEvents (events.map toRow) :=
  (List.foldl_map (f := toRow) (g := insertOrIgnore (·.eventId))).symm

/-- **Events with distinct identifiers are all inserted.** -/
theorem insertBatch_rows (h : (events.map (·.eventId)).Nodup) :
    (SqlClickEventRepository.insertBatch {} events).clickEvents = events.map toRow := by
  have hids : (events.map toRow).map (·.eventId) = events.map (·.eventId) := List.map_map
  rw [insertBatch_clickEvents, insertAll_eq, newRows_of_nodup]
  · rfl
  · rwa [List.map_nil, List.nil_append, hids]

/-- Whole seconds are compared as the time points are. -/
theorem baseWhere_toRow (he : e.occurredAt.toInt % 1000000000 = 0) (hfrom : query.from_.toInt % 1000000000 = 0)
    (hto : query.to_.toInt % 1000000000 = 0) :
    SqlClickEventRepository.baseWhere query (toRow e) = inWindow query e := by
  have hbefore : toTimeT e.occurredAt < toTimeT query.to_ ↔ e.occurredAt < query.to_ := by
    rw [← not_le, toTimeT_le_iff hto he, Int64.not_le]
  simp only [SqlClickEventRepository.baseWhere, inWindow, toRow, toTimeT_le_iff hfrom he, hbefore]

/-- The second at which the bucket of an event starts. -/
def bucketSeconds (b : AggregateBucket) (e : ClickEvent) : ℤ := (toTimeT e.occurredAt).tdiv b.width * b.width

/-- A bucket starts between its events and the epoch. -/
theorem bucketSeconds_bounds (b : AggregateBucket) (e : ClickEvent) :
    -9223372036 ≤ bucketSeconds b e ∧ bucketSeconds b e ≤ 9223372036 := by
  have hbounds := toTimeT_bounds e.occurredAt
  have habs : (bucketSeconds b e).natAbs ≤ (toTimeT e.occurredAt).natAbs := by
    rw [bucketSeconds, Int.natAbs_mul, Int.natAbs_tdiv]
    exact Nat.div_mul_le_self _ _
  omega

theorem toTimeT_bucketStart (b : AggregateBucket) (e : ClickEvent) :
    toTimeT (bucketStart e.occurredAt b) = bucketSeconds b e := by
  have hbounds := bucketSeconds_bounds b e
  exact toTimeT_fromTimeT (t := bucketSeconds b e) hbounds.1 hbounds.2

/-- The bucket of a group. -/
def bucketOf (g : ℤ × ℕ) : TimeBucketCount := ⟨fromTimeT g.1, g.2⟩

/-- The buckets that the statements return, in terms of the events. -/
def orderedBuckets (b : AggregateBucket) (events : List ClickEvent) : List TimeBucketCount :=
  (orderRows (fun g => castText g.1) (groupCount (bucketSeconds b) events)).map bucketOf

/-- The rows that the statements look at. -/
structure Selects (query : AggregateQuery) (repo : SqlClickEventRepository) (selected : List ClickEvent) : Prop where
  rows : repo.clickEvents.filter (SqlClickEventRepository.baseWhere query) = selected.map toRow

theorem selects_insertBatch (hids : (events.map (·.eventId)).Nodup) (hdated : ∀ e ∈ events, Dated e)
    (hfrom : query.from_.toInt % 1000000000 = 0) (hto : query.to_.toInt % 1000000000 = 0) :
    Selects query (SqlClickEventRepository.insertBatch {} events) (events.filter (inWindow query)) := by
  constructor
  rw [insertBatch_rows hids, List.filter_map]
  exact congrArg _ (List.filter_congr fun e he => baseWhere_toRow (hdated e he).whole hfrom hto)

section Selected

variable {repo : SqlClickEventRepository} {selected : List ClickEvent}

theorem Selects.countQuery (h : Selects query repo selected) (extraWhere : ClickRow → Bool) :
    repo.countQuery query extraWhere = selected.countP fun e => extraWhere (toRow e) := by
  have hcount : count (fun row => SqlClickEventRepository.baseWhere query row && extraWhere row) repo.clickEvents =
      (selected.map toRow).countP extraWhere := by
    rw [← h.rows, List.countP_filter]
    refine List.countP_congr fun row _ => ?_
    rw [Bool.and_comm]
  rw [SqlClickEventRepository.countQuery, toNat_storedInteger_castText, hcount, List.countP_map]
  rfl

theorem Selects.statusGroups (h : Selects query repo selected) :
    toMap ((SqlClickEventRepository.readGroups (groupCount (·.statusCode)
      (repo.clickEvents.filter (SqlClickEventRepository.baseWhere query)))).map
        fun g => ((storedInteger (castText g.1)).toNat, g.2)) = tally (·.statusCode) selected := by
  have hgroups : groupCount (fun e : ClickEvent => (e.statusCode : ℤ)) selected =
      (groupCount (·.statusCode) selected).map fun g => ((g.1 : ℤ), g.2) :=
    groupCount_comp Nat.cast_injective _ selected
  rw [h.rows, readGroups_eq, groupCount_map, ← toMap_groupCount]
  simp only [toRow]
  rw [hgroups, List.map_map]
  refine congrArg toMap ((List.map_congr_left fun g _ => ?_).trans (List.map_id _))
  simp only [Function.comp_apply, toNat_storedInteger_castText, id]

theorem Selects.domainGroups (h : Selects query repo selected) :
    toMap (SqlClickEventRepository.readGroups (groupCount (·.domain)
      (repo.clickEvents.filter (SqlClickEventRepository.baseWhere query)))) = tally (·.domain) selected := by
  rw [h.rows, readGroups_eq, groupCount_map, ← toMap_groupCount]
  rfl

theorem Selects.buckets (h : Selects query repo selected) (b : AggregateBucket) :
    (SqlClickEventRepository.readGroups (orderRows (·.1)
      (groupCount (fun row : ClickRow => castText (row.occurredAt.tdiv b.width * b.width))
        (repo.clickEvents.filter (SqlClickEventRepository.baseWhere query))))).map
          (fun g => (⟨fromTimeT (storedInteger g.1), g.2⟩ : TimeBucketCount)) = orderedBuckets b selected := by
  have hgroups : groupCount (fun e => castText (bucketSeconds b e)) selected =
      (groupCount (bucketSeconds b) selected).map fun g => (castText g.1, g.2) :=
    groupCount_comp castText_injective _ selected
  have hcolumn : (fun e => castText ((toRow e).occurredAt.tdiv b.width * b.width)) =
      fun e => castText (bucketSeconds b e) := rfl
  rw [h.rows, readGroups_eq, groupCount_map, hcolumn, hgroups, orderedBuckets, orderRows, orderRows,
    ← List.map_insertionSort (fun g g' => castText g.1 ≤ castText g'.1) _ _ _ fun _ _ _ _ => Iff.rfl, List.map_map]
  refine List.map_congr_left fun g _ => ?_
  simp only [Function.comp_apply, storedInteger_castText, bucketOf]

/-- **The statements count the rows they select.** -/
theorem Selects.getAggregateStats (h : Selects query repo selected) :
    repo.getAggregateStats query =
      { totalAttempts := selected.length
        successfulRedirects := selected.countP isRedirect
        statusCodeCounts := tally (·.statusCode) selected
        domainCounts := tally (·.domain) selected
        timeBuckets := query.bucket.elim [] fun b => orderedBuckets b selected } := by
  have hredirects : (fun e => SqlClickEventRepository.redirectsOnly (toRow e)) = isRedirect := by
    funext e
    refine decide_eq_decide.2 ?_
    simp only [toRow]
    omega
  unfold SqlClickEventRepository.getAggregateStats
  rw [h.countQuery, h.countQuery, List.countP_true, hredirects]
  simp only [h.statusGroups, h.domainGroups]
  cases query.bucket with
  | none => rfl
  | some b => simp only [h.buckets b, Option.elim_some]

end Selected

/-! ## Buckets in order -/

section Buckets

variable {b : AggregateBucket}

theorem group_bounds {g : ℤ × ℕ} (hg : g ∈ groupCount (bucketSeconds b) events) :
    -9223372036 ≤ g.1 ∧ g.1 ≤ 9223372036 := by
  obtain ⟨e, he, heq⟩ := exists_of_mem_groupCount hg
  rw [← heq]
  exact bucketSeconds_bounds b e

theorem bucketOf_toInt {g : ℤ × ℕ} (hg : g ∈ groupCount (bucketSeconds b) events) :
    (bucketOf g).bucketStart.toInt = g.1 * 1000000000 :=
  toInt_fromTimeT (group_bounds hg).1 (group_bounds hg).2

theorem bucketOf_toTimeT {g : ℤ × ℕ} (hg : g ∈ groupCount (bucketSeconds b) events) :
    toTimeT (bucketOf g).bucketStart = g.1 :=
  toTimeT_fromTimeT (group_bounds hg).1 (group_bounds hg).2

open InMemoryClickEventRepository in
theorem sortedBuckets_perm (column : ClickEvent → ℤ) (events : List ClickEvent) :
    (sortedBuckets (tally column events)).Perm ((groupCount column events).map bucketOf) := by
  rw [← Multiset.coe_eq_coe, sortedBuckets, ← Multiset.map_coe, Multiset.sort_eq, Multiset.map_map,
    ← Multiset.map_coe, ← tally_entries, Multiset.map_map]
  refine Multiset.map_congr rfl fun e _ => ?_
  simp only [Function.comp_apply, ofLex_toLex, Int64.ofInt_toInt, bucketOf]

theorem orderedBuckets_perm (b : AggregateBucket) (events : List ClickEvent) :
    (orderedBuckets b events).Perm ((groupCount (bucketSeconds b) events).map bucketOf) :=
  (orderRows_perm _ _).map _

open InMemoryClickEventRepository in
/-- The loop's buckets are in the order of their starts. -/
theorem sortedBuckets_sorted (b : AggregateBucket) (events : List ClickEvent) :
    (sortedBuckets (tally (bucketSeconds b) events)).Pairwise (·.bucketStart.toInt < ·.bucketStart.toInt) := by
  have hle : (sortedBuckets (tally (bucketSeconds b) events)).Pairwise
      (·.bucketStart.toInt ≤ ·.bucketStart.toInt) := by
    rw [sortedBuckets, List.pairwise_map]
    refine (Multiset.pairwise_sort _ _).imp_of_mem fun {p p'} hp hp' h => ?_
    obtain ⟨e, -, rfl⟩ := Multiset.mem_map.1 ((Multiset.mem_sort _).1 hp)
    obtain ⟨e', -, rfl⟩ := Multiset.mem_map.1 ((Multiset.mem_sort _).1 hp')
    simp only [ofLex_toLex, Int64.ofInt_toInt]
    rcases Prod.Lex.toLex_le_toLex.1 h with hlt | ⟨heq, -⟩
    · exact hlt.le
    · exact heq.le
  have hne : (sortedBuckets (tally (bucketSeconds b) events)).Pairwise
      (·.bucketStart.toInt ≠ ·.bucketStart.toInt) := by
    refine (sortedBuckets_perm (bucketSeconds b) events).symm.pairwise ?_ fun h => h.symm
    rw [List.pairwise_map]
    have hkeys : (groupCount (bucketSeconds b) events).Pairwise fun g g' => g.1 ≠ g'.1 :=
      List.pairwise_map.1 groupCount_keys_nodup
    refine hkeys.imp_of_mem fun {g g'} hg hg' hne => ?_
    rw [bucketOf_toInt hg, bucketOf_toInt hg']
    omega
  exact (hle.and hne).imp fun h => lt_of_le_of_ne h.1 h.2

/-- The statements' buckets are in the order of the texts of their starts. -/
theorem orderedBuckets_sorted (b : AggregateBucket) (events : List ClickEvent) :
    (orderedBuckets b events).Pairwise fun t t' =>
      castText (toTimeT t.bucketStart) ≤ castText (toTimeT t'.bucketStart) := by
  rw [orderedBuckets, List.pairwise_map]
  refine (orderRows_sorted _ _).imp_of_mem fun {g g'} hg hg' h => ?_
  rw [(orderRows_perm _ _).mem_iff] at hg hg'
  rw [bucketOf_toTimeT hg, bucketOf_toTimeT hg']
  exact h

/-- What holds of every two buckets, in terms of the groups. -/
theorem forall_sortedBuckets {P : TimeBucketCount → TimeBucketCount → Prop} :
    (∀ t ∈ InMemoryClickEventRepository.sortedBuckets (tally (bucketSeconds b) events),
      ∀ t' ∈ InMemoryClickEventRepository.sortedBuckets (tally (bucketSeconds b) events), P t t') ↔
    ∀ g ∈ groupCount (bucketSeconds b) events, ∀ g' ∈ groupCount (bucketSeconds b) events,
      P (bucketOf g) (bucketOf g') := by
  simp only [(sortedBuckets_perm (bucketSeconds b) events).mem_iff, List.mem_map, forall_exists_index, and_imp,
    forall_apply_eq_imp_iff₂]

/-- **When the text order of the statements is the order of the loop.** -/
theorem sortedBuckets_eq_iff :
    InMemoryClickEventRepository.sortedBuckets (tally (bucketSeconds b) events) = orderedBuckets b events ↔
      ∀ e ∈ events, ∀ e' ∈ events, bucketSeconds b e < bucketSeconds b e' →
        castText (bucketSeconds b e) < castText (bucketSeconds b e') := by
  have hperm := (sortedBuckets_perm (bucketSeconds b) events).trans (orderedBuckets_perm b events).symm
  rw [sorted_eq_iff hperm (sortedBuckets_sorted b events) (orderedBuckets_sorted b events) ?_, forall_sortedBuckets]
  · constructor
    · intro h e he e' he' hlt
      obtain ⟨n, hg⟩ := groupCount_of_mem (bucketSeconds b) he
      obtain ⟨n', hg'⟩ := groupCount_of_mem (bucketSeconds b) he'
      have htext := h _ hg _ hg'
      rw [bucketOf_toInt hg, bucketOf_toInt hg', bucketOf_toTimeT hg,
        bucketOf_toTimeT hg'] at htext
      exact htext (by omega)
    · intro h g hg g' hg' hlt
      obtain ⟨e, he, heq⟩ := exists_of_mem_groupCount hg
      obtain ⟨e', he', heq'⟩ := exists_of_mem_groupCount hg'
      rw [bucketOf_toInt hg, bucketOf_toInt hg'] at hlt
      rw [bucketOf_toTimeT hg, bucketOf_toTimeT hg', ← heq, ← heq']
      exact h e he e' he' (by omega)
  · -- the text says which second it is
    rw [forall_sortedBuckets]
    intro g hg g' hg' htext
    have heq := castText_injective htext
    rw [bucketOf_toTimeT hg, bucketOf_toTimeT hg'] at heq
    rw [bucketOf_toInt hg, bucketOf_toInt hg', heq]

end Buckets

/-! ## Agreement -/

/-- **What makes the repositories agree on a query**: no event of the window and of the slug is of another link than
the one that is asked for, and the starts of their buckets are ordered as texts as they are as numbers. -/
structure Agreeable (events : List ClickEvent) (query : AggregateQuery) : Prop where
  link : ∀ linkId ∈ query.linkId, ∀ e ∈ events, inWindow query e = true → e.linkId = linkId
  order : ∀ b ∈ query.bucket, ∀ e ∈ events, ∀ e' ∈ events, inWindow query e = true → inWindow query e' = true →
    bucketSeconds b e < bucketSeconds b e' → castText (bucketSeconds b e) < castText (bucketSeconds b e')

theorem sortedBuckets_empty : InMemoryClickEventRepository.sortedBuckets ∅ = [] := by
  have hentries : (∅ : UnorderedMap ℤ ℕ).entries = 0 := rfl
  rw [InMemoryClickEventRepository.sortedBuckets, hentries, Multiset.map_zero, Multiset.sort_zero, List.map_nil]

/-- **What the loop returns**, in terms of the events that match the query. -/
theorem inMemory_getAggregateStats (repo : InMemoryClickEventRepository) (query : AggregateQuery) :
    repo.getAggregateStats query =
      { totalAttempts := (repo.events.filter (isCounted query)).length
        successfulRedirects := (repo.events.filter (isCounted query)).countP isRedirect
        statusCodeCounts := tally (·.statusCode) (repo.events.filter (isCounted query))
        domainCounts := tally (·.domain) (repo.events.filter (isCounted query))
        timeBuckets := query.bucket.elim [] fun b => InMemoryClickEventRepository.sortedBuckets
          (tally (bucketSeconds b) (repo.events.filter (isCounted query))) } := by
  unfold InMemoryClickEventRepository.getAggregateStats
  rw [foldl_countEvent]
  unfold countersOf
  cases query.bucket with
  | none => simp only [sortedBuckets_empty, Option.elim_none]
  | some b => simp only [toTimeT_bucketStart, Option.elim_some]

theorem insertBatch_events (events : List ClickEvent) :
    (InMemoryClickEventRepository.insertBatch {} events).events = events := rfl

/-- The events that the loop counts are those of the statements, without the ones of other links. -/
theorem filter_isCounted (query : AggregateQuery) (events : List ClickEvent) :
    events.filter (isCounted query) = (events.filter (inWindow query)).filter (ofLink query) := by
  rw [List.filter_filter]
  exact List.filter_congr fun e _ => Bool.and_comm _ _

theorem ofLink_iff : ofLink query e = true ↔ ∀ linkId ∈ query.linkId, e.linkId = linkId := by
  rw [ofLink]
  cases query.linkId <;> simp

/-- **When the two repositories agree.** -/
theorem repositories_agree_iff (hids : (events.map (·.eventId)).Nodup) (hdated : ∀ e ∈ events, Dated e)
    (hfrom : query.from_.toInt % 1000000000 = 0) (hto : query.to_.toInt % 1000000000 = 0) :
    (SqlClickEventRepository.insertBatch {} events).getAggregateStats query =
      (InMemoryClickEventRepository.insertBatch {} events).getAggregateStats query ↔ Agreeable events query := by
  rw [(selects_insertBatch hids hdated hfrom hto).getAggregateStats, inMemory_getAggregateStats, insertBatch_events,
    filter_isCounted, AggregateStats.mk.injEq]
  constructor
  · rintro ⟨htotal, -, -, -, hbuckets⟩
    -- with equal totals no event was left out
    have hlink : ∀ e ∈ events.filter (inWindow query), ofLink query e = true :=
      List.length_filter_eq_length_iff.1 htotal.symm
    rw [List.filter_eq_self.2 hlink] at hbuckets
    refine ⟨fun linkId hlinkId e he hin => ?_, fun b hb e he e' he' hin hin' => ?_⟩
    · exact ofLink_iff.1 (hlink e (List.mem_filter.2 ⟨he, hin⟩)) linkId hlinkId
    · rw [Option.mem_def.1 hb] at hbuckets
      exact sortedBuckets_eq_iff.1 hbuckets.symm e (List.mem_filter.2 ⟨he, hin⟩) e'
        (List.mem_filter.2 ⟨he', hin'⟩)
  · intro h
    have hlink : ∀ e ∈ events.filter (inWindow query), ofLink query e = true := by
      intro e he
      obtain ⟨hmem, hin⟩ := List.mem_filter.1 he
      exact ofLink_iff.2 fun linkId hlinkId => h.link linkId hlinkId e hmem hin
    rw [List.filter_eq_self.2 hlink]
    refine ⟨rfl, rfl, rfl, rfl, ?_⟩
    cases hb : query.bucket with
    | none => rfl
    | some b =>
      refine (sortedBuckets_eq_iff.2 fun e he e' he' => ?_).symm
      obtain ⟨hmem, hin⟩ := List.mem_filter.1 he
      obtain ⟨hmem', hin'⟩ := List.mem_filter.1 he'
      exact h.order b hb e hmem e' hmem' hin hin'

/-- A redirect of a link at a second. -/
def clickAt (eventId linkId : String) (second : Int64) : ClickEvent where
  eventId := eventId.toList
  occurredAt := second * 1000000000
  slug := "abc"
  linkId := linkId.toList
  domain := "a"
  statusCode := 302
  referrer := []
  userAgent := []
  clientIdHash := []

theorem repositories_agree_iff_sample :
    (SqlClickEventRepository.insertBatch {} [clickAt "1" "x" 7200, clickAt "2" "x" 3600]).getAggregateStats
      { linkId := some "x", to_ := 86400000000000, bucket := some .hour } =
    (InMemoryClickEventRepository.insertBatch {} [clickAt "1" "x" 7200, clickAt "2" "x" 3600]).getAggregateStats
      { linkId := some "x", to_ := 86400000000000, bucket := some .hour } := by
  have hmem : ∀ {P : ClickEvent → Prop}, P (clickAt "1" "x" 7200) → P (clickAt "2" "x" 3600) →
      ∀ e ∈ [clickAt "1" "x" 7200, clickAt "2" "x" 3600], P e := by
    intro P h h'
    exact List.forall_mem_cons.2 ⟨h, List.forall_mem_cons.2 ⟨h', List.forall_mem_nil _⟩⟩
  refine (repositories_agree_iff (by decide) (hmem ⟨by decide, by decide⟩ ⟨by decide, by decide⟩) (by decide)
    (by decide)).2 ⟨?_, ?_⟩
  · rintro _ ⟨⟩
    exact hmem (fun _ => rfl) fun _ => rfl
  · rintro _ ⟨⟩
    exact hmem (hmem (fun _ _ => by decide) fun _ _ => by decide) (hmem (fun _ _ => by decide) fun _ _ => by decide)

/-- The statements count an event of another link. -/
theorem other_link_counted :
    ((SqlClickEventRepository.insertBatch {} [clickAt "1" "y" 7200]).getAggregateStats
      { linkId := some "x", to_ := 86400000000000 }).totalAttempts = 1 ∧
    ((InMemoryClickEventRepository.insertBatch {} [clickAt "1" "y" 7200]).getAggregateStats
      { linkId := some "x", to_ := 86400000000000 }).totalAttempts = 0 := by
  decide

end UrlShortener.Clicks

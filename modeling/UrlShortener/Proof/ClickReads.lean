import UrlShortener.Proof.ClickStats
import UrlShortener.Proof.Soci
import UrlShortener.Spec.ClickSql

/-!
# Click events in SQL: reading from a table

When no statement fails and SQLite answers from its table, `GetAggregateStats` returns the counts of that table.

* `Answers`: the answers, statement by statement.
* `fill_of_answers`: what the block leaves in `*stats` then.
* `getAggregateStats_of_answers`: **the session refines the repository without failures.**
-/

namespace UrlShortener.Clicks.ClickSession

open Storage (Statement SociRow RowSet)
open Sql

/-- The statistics as counts, in no particular order where the vectors have none. -/
def counts (stats : Analytics.AggregateStats) : AggregateStats where
  totalAttempts := stats.totalAttempts.toNat
  successfulRedirects := stats.successfulRedirects.toNat
  statusCodeCounts := toMap (stats.statusCodeCounts.map fun item => (item.statusCode, item.count.toNat))
  domainCounts := toMap (stats.domainCounts.map fun item => (item.domain, item.count.toNat))
  timeBuckets := stats.timeBuckets.map fun item => ⟨item.bucketStart, item.count.toNat⟩

/-- A row of two texts. -/
def twoColumns (name : String) (value : Str) (cnt : ℕ) : SociRow := fun column =>
  if column = name.toList then .text value
  else if column = "cnt" then .text (castText cnt)
  else .null

/-- The rows that the statements group. -/
abbrev selectedRows (repo : SqlClickEventRepository) (query : AggregateQuery) : List ClickRow :=
  repo.clickEvents.filter (SqlClickEventRepository.baseWhere query)

/-- The redirects among them. -/
abbrev redirectRows (query : AggregateQuery) (row : ClickRow) : Bool :=
  SqlClickEventRepository.baseWhere query row && SqlClickEventRepository.redirectsOnly row

/-- The buckets as the statement groups and orders them. -/
abbrev bucketGroups (repo : SqlClickEventRepository) (query : AggregateQuery) (bucket : AggregateBucket) :
    List (Str × ℕ) :=
  orderRows (·.1) (groupCount (fun row => castText (row.occurredAt.tdiv bucket.width * bucket.width))
    (selectedRows repo query))

/-- **SQLite answers from its table.** -/
structure Answers (reader : Reader) (query : AggregateQuery) (repo : SqlClickEventRepository) : Prop where
  total : reader.executeInto (countStatement false query []) =
    .ok (some (castText (count (SqlClickEventRepository.baseWhere query) repo.clickEvents)))
  redirects : reader.executeInto (countStatement false query redirectsWhere) =
    .ok (some (castText (count (redirectRows query) repo.clickEvents)))
  statuses : reader.prepare (statusStatement false query) =
    ⟨(groupCount (·.statusCode) (selectedRows repo query)).map fun g =>
      twoColumns "status_code" (castText g.1) g.2, none⟩
  domains : reader.prepare (domainStatement false query) =
    ⟨(groupCount (·.domain) (selectedRows repo query)).map fun g => twoColumns "domain" g.1 g.2, none⟩
  buckets : ∀ bucket ∈ query.bucket, reader.prepare (bucketStatement false query bucket) =
    ⟨(bucketGroups repo query bucket).map fun g => twoColumns "bucket_start" g.1 g.2, none⟩

/-- A table of inserted events, small enough for its counts. -/
structure Holds (repo : SqlClickEventRepository) : Prop where
  rows : ∀ row ∈ repo.clickEvents, ∃ e : ClickEvent, row = toRow e ∧ e.statusCode < 65536
  size : repo.clickEvents.length ≤ 9223372036854775807

theorem stollText_castText {n : ℤ} (hlow : -9223372036854775808 ≤ n) (hhigh : n ≤ 9223372036854775807) :
    stollText (castText n) = .ok n := by
  rw [castText_eq, stollText, stoll_toString hlow hhigh]

theorem toCount_toNat {n : ℕ} (h : n ≤ 9223372036854775807) : (toCount n).toNat = n := by
  have hofNat : toCount n = UInt64.ofNat n := by
    rw [toCount, Int64.ofInt_eq_ofNat]
    rfl
  have hlt : n < 2 ^ 64 := by omega
  rw [hofNat]
  exact UInt64.toNat_ofNat_of_lt' hlt

/-! ## Rows -/

theorem getText_value (name : String) (value : Str) (cnt : ℕ) :
    getText (twoColumns name value cnt) name.toList = .ok value := by
  rw [getText, twoColumns, if_pos rfl]

theorem getText_cnt {name : String} (hname : "cnt" ≠ name.toList) (value : Str) (cnt : ℕ) :
    getText (twoColumns name value cnt) "cnt" = .ok (castText cnt) := by
  rw [getText, twoColumns, if_neg hname, if_pos rfl]

theorem stollText_count {n : ℕ} (h : n ≤ 9223372036854775807) : stollText (castText n) = .ok n :=
  stollText_castText (by omega) (by omega)

theorem statusCodeCount_row {code : ℤ} {n : ℕ} (hcode : 0 ≤ code ∧ code < 65536) (hn : n ≤ 9223372036854775807) :
    statusCodeCount (twoColumns "status_code" (castText code) n) = .ok ⟨code.toNat, toCount n⟩ := by
  have hcast : (code % 65536).toNat = code.toNat := by rw [Int.emod_eq_of_lt hcode.1 hcode.2]
  unfold statusCodeCount
  rw [getText_value, getText_cnt (by decide)]
  have htext : stollText (castText code) = .ok code := stollText_castText (by omega) (by omega)
  simp only [bind, Except.bind, stollText_count hn, htext, hcast]
  rfl

theorem domainCount_row {domain : Str} {n : ℕ} (hn : n ≤ 9223372036854775807) :
    domainCount (twoColumns "domain" domain n) = .ok ⟨domain, toCount n⟩ := by
  unfold domainCount
  rw [getText_value, getText_cnt (by decide)]
  simp only [bind, Except.bind, stollText_count hn]
  rfl

theorem timeBucketCount_row {start : ℤ} {n : ℕ} (hlow : -9223372036854775808 ≤ start)
    (hhigh : start ≤ 9223372036854775807) (hn : n ≤ 9223372036854775807) :
    timeBucketCount (twoColumns "bucket_start" (castText start) n) = .ok ⟨fromTimeT start, toCount n⟩ := by
  unfold timeBucketCount
  rw [getText_value, getText_cnt (by decide)]
  simp only [bind, Except.bind, stollText_count hn, stollText_castText hlow hhigh]
  rfl

/-! ## Tables -/

section Table

variable {repo : SqlClickEventRepository} {query : AggregateQuery} {reader : Reader}

theorem count_le (hrepo : Holds repo) (cond : ClickRow → Bool) : count cond repo.clickEvents ≤ 9223372036854775807 :=
  List.countP_le_length.trans hrepo.size

section Group

variable {K : Type} [DecidableEq K] {column : ClickRow → K} {g : K × ℕ}

theorem Holds.count_le_of_group (hrepo : Holds repo) (hg : g ∈ groupCount column (selectedRows repo query)) :
    g.2 ≤ 9223372036854775807 := by
  obtain ⟨-, hcount⟩ := mem_groupCount.1 hg
  rw [← hcount]
  exact (List.countP_le_length.trans (List.length_filter_le _ _)).trans hrepo.size

theorem Holds.exists_of_group (hrepo : Holds repo) (hg : g ∈ groupCount column (selectedRows repo query)) :
    ∃ e : ClickEvent, e.statusCode < 65536 ∧ column (toRow e) = g.1 := by
  obtain ⟨row, hrow, hcolumn⟩ := exists_of_mem_groupCount hg
  obtain ⟨e, rfl, hstatus⟩ := hrepo.rows row (List.mem_of_mem_filter hrow)
  exact ⟨e, hstatus, hcolumn⟩

end Group

theorem countQuery_of_answer {extraWhere : Str} {n : ℕ} (hn : n ≤ 9223372036854775807)
    (h : reader.executeInto (countStatement false query extraWhere) = .ok (some (castText n))) :
    countQuery reader false query extraWhere = .ok n := by
  rw [countQuery, h]
  exact stollText_count hn

theorem Answers.statuses_pushed (h : Answers reader query repo) (hrepo : Holds repo) :
    (reader.prepare (statusStatement false query)).pushInto statusCodeCount [] =
      (.ok (), (groupCount (·.statusCode) (selectedRows repo query)).map fun g => ⟨g.1.toNat, toCount g.2⟩) := by
  rw [h.statuses]
  refine RowSet.pushInto_map (fun g hg => ?_) []
  obtain ⟨e, hstatus, he⟩ := hrepo.exists_of_group hg
  have hcode : (e.statusCode : ℤ) = g.1 := he
  exact statusCodeCount_row (by omega) (hrepo.count_le_of_group hg)

theorem Answers.domains_pushed (h : Answers reader query repo) (hrepo : Holds repo) :
    (reader.prepare (domainStatement false query)).pushInto domainCount [] =
      (.ok (), (groupCount (·.domain) (selectedRows repo query)).map fun g => ⟨g.1, toCount g.2⟩) := by
  rw [h.domains]
  exact RowSet.pushInto_map (fun g hg => domainCount_row (hrepo.count_le_of_group hg)) []

theorem Answers.buckets_pushed (h : Answers reader query repo) (hrepo : Holds repo) {bucket : AggregateBucket}
    (hbucket : bucket ∈ query.bucket) :
    (reader.prepare (bucketStatement false query bucket)).pushInto timeBucketCount [] =
      (.ok (), (bucketGroups repo query bucket).map fun g => ⟨fromTimeT (storedInteger g.1), toCount g.2⟩) := by
  rw [h.buckets bucket hbucket]
  refine RowSet.pushInto_map (fun g hg => ?_) []
  rw [(orderRows_perm _ _).mem_iff] at hg
  obtain ⟨e, -, he⟩ := hrepo.exists_of_group hg
  -- the key of the group is the text of a second
  have hbounds := bucketSeconds_bounds bucket e
  have hkey : castText (bucketSeconds bucket e) = g.1 := he
  rw [← hkey, storedInteger_castText]
  exact timeBucketCount_row (by omega) (by omega) (hrepo.count_le_of_group hg)

/-- What the statements return, as the loops push it. -/
def tableStats (repo : SqlClickEventRepository) (query : AggregateQuery) : Analytics.AggregateStats where
  totalAttempts := toCount (count (SqlClickEventRepository.baseWhere query) repo.clickEvents)
  successfulRedirects := toCount (count (redirectRows query) repo.clickEvents)
  statusCodeCounts := (groupCount (·.statusCode) (selectedRows repo query)).map fun g => ⟨g.1.toNat, toCount g.2⟩
  domainCounts := (groupCount (·.domain) (selectedRows repo query)).map fun g => ⟨g.1, toCount g.2⟩
  timeBuckets :=
    match query.bucket with
    | none => []
    | some bucket => (bucketGroups repo query bucket).map fun g => ⟨fromTimeT (storedInteger g.1), toCount g.2⟩

/-- The statistics are filled with those of the table. -/
theorem fill_of_answers (h : Answers reader query repo) (hrepo : Holds repo) :
    fill reader false query {} = (.ok (), tableStats repo query) := by
  have htotal := countQuery_of_answer (count_le hrepo _) h.total
  have hredirects := countQuery_of_answer (count_le hrepo _) h.redirects
  have hstatuses := h.statuses_pushed hrepo
  have hdomains := h.domains_pushed hrepo
  simp only [fill, tableStats, htotal, hredirects, hstatuses, hdomains]
  cases hbucket : query.bucket with
  | none => rfl
  | some bucket =>
    simp only [h.buckets_pushed hrepo hbucket]
    rfl

/-- Counts of groups fit. -/
theorem Holds.map_toCount {K I : Type} [DecidableEq K] {column : ClickRow → K} {groups : List (K × ℕ)}
    (hrepo : Holds repo) (hgroups : ∀ g ∈ groups, g ∈ groupCount column (selectedRows repo query)) (f : K → ℕ → I) :
    (groups.map fun g => f g.1 (toCount g.2).toNat) = groups.map fun g => f g.1 g.2 :=
  List.map_congr_left fun g hg => by rw [toCount_toNat (hrepo.count_le_of_group (hgroups g hg))]

theorem counts_tableStats (hrepo : Holds repo) (query : AggregateQuery) :
    counts (tableStats repo query) = repo.getAggregateStats query := by
  unfold counts tableStats SqlClickEventRepository.getAggregateStats
  simp only [SqlClickEventRepository.countQuery, storedInteger_castText, readGroups_eq, Bool.and_true,
    List.map_map, toCount_toNat (count_le hrepo _)]
  congr 1
  · refine congrArg toMap ?_
    exact hrepo.map_toCount (fun _ hg => hg) fun (code : ℤ) n => (code.toNat, n)
  · refine congrArg toMap ?_
    exact (hrepo.map_toCount (fun _ hg => hg) fun (domain : Str) n => (domain, n)).trans (List.map_id _)
  · cases query.bucket with
    | none => rfl
    | some bucket =>
      rw [List.map_map]
      exact hrepo.map_toCount (fun g hg => (orderRows_perm _ _).mem_iff.1 hg) fun (text : Str) n =>
        (⟨fromTimeT (storedInteger text), n⟩ : TimeBucketCount)

/-- **Without a failure the counts are those of the table.** -/
theorem getAggregateStats_of_answers (h : Answers reader query repo) (hrepo : Holds repo)
    (stats : Analytics.AggregateStats) (error : Option AnalyticsError) :
    ∃ stats', getAggregateStats reader false query (some stats) error = (true, some stats', error) ∧
      counts stats' = repo.getAggregateStats query := by
  refine ⟨tableStats repo query, ?_, counts_tableStats hrepo query⟩
  rw [getAggregateStats, fill_of_answers h hrepo]

end Table

end UrlShortener.Clicks.ClickSession

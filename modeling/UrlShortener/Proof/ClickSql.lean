import UrlShortener.Spec.ClickSql
import UrlShortener.Calls.Retry
import UrlShortener.Proof.ClickStats
import UrlShortener.Proof.Soci

/-!
# Click events in SQL: what failures leave behind

* `persistWithRetry_idempotent`: a batch that is inserted again after a failure comes in once.
* `getAggregateStats_kept_iff`: **a failed read overwrites what the caller had.**
-/

namespace UrlShortener.Clicks.ClickSession

open Storage (Statement SociRow RowSet)
open Calls Sql

/-! ## Inserting -/

section Insert

variable {DB : Type} {execute : Statement → DB → Except Str Unit × DB} {isPostgres : Bool} {table : DB → Table ClickRow}

/-- **The database**: a row whose `event_id` is there is ignored, and every statement is committed on its own. One that
fails may have been committed nevertheless. -/
structure Inserts (execute : Statement → DB → Except Str Unit × DB) (isPostgres : Bool) (table : DB → Table ClickRow) :
    Prop where
  ok : ∀ e db, (execute (insertStatement isPostgres e) db).1 = .ok () →
    table (execute (insertStatement isPostgres e) db).2 = insertOrIgnore (·.eventId) (table db) (toRow e)
  error : ∀ e db what, (execute (insertStatement isPostgres e) db).1 = .error what →
    table (execute (insertStatement isPostgres e) db).2 = table db ∨
    table (execute (insertStatement isPostgres e) db).2 = insertOrIgnore (·.eventId) (table db) (toRow e)

/-- Some first events of the batch have come in, and all of them if `ok`. -/
def CameIn (prior : Table ClickRow) (batch : List ClickEvent) (ok : Bool) (after : Table ClickRow) : Prop :=
  ∃ k, after = insertAll (·.eventId) prior ((batch.map toRow).take k) ∧ (ok = true → batch.length ≤ k)

variable {prior after : Table ClickRow} {batch : List ClickEvent} {ok : Bool}

theorem CameIn.start (prior : Table ClickRow) (batch : List ClickEvent) : CameIn prior batch false prior :=
  ⟨0, rfl, nofun⟩

theorem CameIn.toFalse (h : CameIn prior batch ok after) : CameIn prior batch false after := by
  obtain ⟨k, hk, -⟩ := h
  exact ⟨k, hk, nofun⟩

/-- **A batch that is inserted again**: what had come in is ignored. -/
theorem CameIn.again {after' : Table ClickRow} (h : CameIn prior batch false after)
    (h' : CameIn after batch ok after') : CameIn prior batch ok after' := by
  obtain ⟨k, rfl, -⟩ := h
  obtain ⟨j, rfl, hall⟩ := h'
  exact ⟨max k j, insertAll_take_take prior (batch.map toRow) k j, fun hok => le_max_of_le_right (hall hok)⟩

/-- **One attempt.** -/
theorem insertEvents_cameIn (h : Inserts execute isPostgres table) (batch : List ClickEvent) (db : DB) :
    CameIn (table db) batch (insertEvents execute isPostgres batch db).1.isOk
      (table (insertEvents execute isPostgres batch db).2) := by
  induction batch generalizing db with
  | nil => exact ⟨0, rfl, fun _ => Nat.le_refl 0⟩
  | cons e batch ih =>
    have hok := h.ok e db
    have herror := h.error e db
    simp only [insertEvents]
    generalize execute (insertStatement isPostgres e) db = executed at hok herror
    obtain ⟨result, db'⟩ := executed
    cases result with
    | error what =>
      -- the row is missing, or it has come in
      rcases herror what rfl with htable | htable
      · exact ⟨0, htable, nofun⟩
      · exact ⟨1, htable, nofun⟩
    | ok _ =>
      obtain ⟨j, hj, hall⟩ := ih db'
      refine ⟨j + 1, ?_, fun hok => Nat.succ_le_succ (hall hok)⟩
      rw [hj, hok rfl, List.map_cons, List.take_succ_cons, insertAll_cons]

/-- `InsertBatch` as the worker sees it. -/
def insertCall (execute : Statement → DB → Except Str Unit × DB) (isPostgres : Bool) (now : Int64)
    (batch : List ClickEvent) (s : Pipeline × DB) : Bool × (Pipeline × DB) :=
  handle execute isPostgres now (.insertBatch batch) s

/-- The loop of the worker is a bounded retry of `InsertBatch`. -/
theorem run_attempt (config : UrlShortener.AnalyticsConfig) (batch : List ClickEvent) (now : Int64) (left : ℕ)
    (s : Pipeline × DB) :
    (WorkerProg.attempt config batch left).run (handle execute isPostgres now) s =
      retry (insertCall execute isPostgres now batch) (fun ok => !ok) left s := by
  induction left generalizing s with
  | zero =>
    have hrun : (WorkerProg.attempt config batch 0).run (handle execute isPostgres now) s =
        (if (insertCall execute isPostgres now batch s).1 then pure true else pure false : WorkerProg Bool).run
          (handle execute isPostgres now) (insertCall execute isPostgres now batch s).2 := rfl
    rw [hrun, retry]
    generalize insertCall execute isPostgres now batch s = called
    obtain ⟨ok, s'⟩ := called
    cases ok <;> rfl
  | succ left ih =>
    have hrun : (WorkerProg.attempt config batch (left + 1)).run (handle execute isPostgres now) s =
        (if (insertCall execute isPostgres now batch s).1 then pure true
          else WorkerProg.tell (.sleepFor config.retryBackoff) >>= fun _ => WorkerProg.attempt config batch left).run
          (handle execute isPostgres now) (insertCall execute isPostgres now batch s).2 := rfl
    rw [hrun, retry]
    generalize insertCall execute isPostgres now batch s = called
    obtain ⟨ok, s'⟩ := called
    cases ok with
    | true => rfl
    | false => exact ih s'

theorem insertCall_cameIn (h : Inserts execute isPostgres table) (batch : List ClickEvent) (now : Int64)
    (s : Pipeline × DB) :
    CameIn (table s.2) batch (insertCall execute isPostgres now batch s).1
      (table (insertCall execute isPostgres now batch s).2.2) := by
  have hevents := insertEvents_cameIn h batch s.2
  simp only [insertCall, handle, Pipeline.handle, insertBatch]
  generalize insertEvents execute isPostgres batch s.2 = inserted at hevents
  obtain ⟨result, db'⟩ := inserted
  cases result with
  | error what => exact hevents
  | ok _ => exact hevents

/-- **What a batch leaves in the table**: nothing but its new rows, in their order, and all of them if it succeeded. -/
structure Persisted (prior : Table ClickRow) (batch : List ClickEvent) (ok : Bool) (after : Table ClickRow) : Prop where
  complete : ok = true → after = prior ++ newRows (·.eventId) (prior.map (·.eventId)) (batch.map toRow)
  between : ∃ rows, rows <+: newRows (·.eventId) (prior.map (·.eventId)) (batch.map toRow) ∧ after = prior ++ rows
  unique : Unique (·.eventId) prior → Unique (·.eventId) after

theorem CameIn.persisted (h : CameIn prior batch ok after) : Persisted prior batch ok after := by
  obtain ⟨k, rfl, hall⟩ := h
  refine ⟨fun hok => ?_, ⟨_, newRows_isPrefix _ (List.take_prefix k (batch.map toRow)), insertAll_eq _ _⟩, ?_⟩
  · rw [List.take_of_length_le (by rw [List.length_map]; exact hall hok), insertAll_eq]
  · intro hunique
    exact hunique.insertAll _

/-- Every attempt starts from what the ones before it have left. -/
theorem attempt_persisted (h : Inserts execute isPostgres table) (config : UrlShortener.AnalyticsConfig)
    (batch : List ClickEvent) (now : Int64) (left : ℕ) (s : Pipeline × DB) :
    let r := (WorkerProg.attempt config batch left).run (handle execute isPostgres now) s
    Persisted (table s.2) batch r.1 (table r.2.2) := by
  intro r
  have hretry : r = retry (insertCall execute isPostgres now batch) (fun ok => !ok) left s :=
    run_attempt config batch now left s
  refine CameIn.persisted ?_
  rw [hretry]
  refine retry_invariant (I := fun s' : Pipeline × DB => CameIn (table s.2) batch false (table s'.2))
    (Q := fun r : Bool × (Pipeline × DB) => CameIn (table s.2) batch r.1 (table r.2.2)) ?_ ?_ (CameIn.start _ batch)
  · intro s' hs'
    exact (hs'.again (insertCall_cameIn h batch now s')).toFalse
  · intro s' hs'
    exact hs'.again (insertCall_cameIn h batch now s')

/-- **A batch comes in once**, however often and wherever its attempts fail. The second part is about loops of any
length: with the largest `max_retry_attempts` the one of the source ends only when an attempt succeeds. -/
theorem persistWithRetry_idempotent (h : Inserts execute isPostgres table) (config : UrlShortener.AnalyticsConfig)
    (batch : List ClickEvent) (now : Int64) (s : Pipeline × DB) :
    (let r := (WorkerProg.persistWithRetry config batch).run (handle execute isPostgres now) s
     Persisted (table s.2) batch r.1 (table r.2.2)) ∧
    ∀ left,
      let r := (WorkerProg.attempt config batch left).run (handle execute isPostgres now) s
      Persisted (table s.2) batch r.1 (table r.2.2) :=
  ⟨attempt_persisted h config batch now config.maxRetryAttempts
      (handle execute isPostgres now (.persistWithRetry batch) s).2,
    fun left => attempt_persisted h config batch now left s⟩

end Insert

/-- The row of an insertion. -/
def insertedRow (statement : Statement) : ClickRow :=
  let text (name : String) : Str :=
    match statement.uses.lookup name.toList with
    | some (.text s) => s
    | _ => []
  let integer (name : String) : ℤ :=
    match statement.uses.lookup name.toList with
    | some (.integer n) => n
    | _ => 0
  ⟨text "eid", integer "oat", text "slug", text "lid", text "dom", integer "sc", text "ref", text "ua", text "cih"⟩

/-- A database that loses its connection now and then: each statement takes a value of the list, and fails without
being committed if that is `true`. -/
def losing (statement : Statement) (db : List Bool × Table ClickRow) : Except Str Unit × (List Bool × Table ClickRow) :=
  match db.1 with
  | true :: script => (.error "connection lost", (script, db.2))
  | script => (.ok (), (script.tail, insertOrIgnore (·.eventId) db.2 (insertedRow statement)))

theorem losing_inserts : Inserts losing false (·.2) where
  ok e db := by
    obtain ⟨script, table⟩ := db
    cases script with
    | nil => exact fun _ => rfl
    | cons fails script =>
      cases fails with
      | false => exact fun _ => rfl
      | true => exact nofun
  error e db what := by
    obtain ⟨script, table⟩ := db
    cases script with
    | nil => exact nofun
    | cons fails script =>
      cases fails with
      | false => exact nofun
      | true => exact fun _ => .inl rfl

/-- The first attempt fails at its second row; the batch repeats an identifier. -/
theorem persistWithRetry_idempotent_sample :
    let config : UrlShortener.AnalyticsConfig :=
      ⟨8, by decide, 1000, 1, by decide, 100⟩
    let batch := [clickAt "1" "x" 3605, clickAt "1" "y" 3606, clickAt "2" "x" 5405]
    let s : Pipeline × (List Bool × Table ClickRow) :=
      (⟨⟨8, by decide, [], 0, 0, false⟩, .running, [], [], 0⟩, ([false, true], []))
    let r := (WorkerProg.persistWithRetry config batch).run (handle losing false 0) s
    r.1 = true ∧ r.2.2.2 = [toRow (clickAt "1" "x" 3605), toRow (clickAt "2" "x" 5405)] ∧
      Persisted s.2.2 batch r.1 r.2.2.2 :=
  ⟨rfl, rfl, (persistWithRetry_idempotent losing_inserts _ _ 0 _).1⟩

/-! ## Reading -/

section Read

variable (reader : Reader) (isPostgres : Bool) (query : AggregateQuery)

/-- A text that begins with a number of 64 bits. -/
def Numeric (text : Str) : Prop := stoll text ≠ none

/-- The column holds such a text. -/
def HasNumber (r : SociRow) (name : String) : Prop := ∃ text, r name.toList = .text text ∧ Numeric text

/-- A statement that selects one text does not fail; without a row the text is `0`. -/
def Counted (answer : Except Str (Option Str)) : Prop := ∃ text, answer = .ok text ∧ Numeric (text.getD "0")

/-- All rows are fetched, and each is as it should be. -/
structure Fetched (rs : RowSet) (Good : SociRow → Prop) : Prop where
  failure : rs.failure = none
  rows : ∀ r ∈ rs.rows, Good r

/-- **No statement fails, and what the database answers can be converted.** -/
structure Succeeds : Prop where
  total : Counted (reader.executeInto (countStatement isPostgres query []))
  redirects : Counted (reader.executeInto (countStatement isPostgres query redirectsWhere))
  statuses : Fetched (reader.prepare (statusStatement isPostgres query)) fun r =>
    HasNumber r "status_code" ∧ HasNumber r "cnt"
  domains : Fetched (reader.prepare (domainStatement isPostgres query)) fun r =>
    (∃ text, r "domain" = .text text) ∧ HasNumber r "cnt"
  buckets : ∀ bucket ∈ query.bucket, isPostgres = false →
    Fetched (reader.prepare (bucketStatement isPostgres query bucket)) fun r =>
      HasNumber r "bucket_start" ∧ HasNumber r "cnt"

/-! What the conversions of the source make of such answers. -/

theorem stollText_ok_iff (text : Str) : (∃ n, stollText text = .ok n) ↔ Numeric text := by
  unfold stollText Numeric
  cases stoll text with
  | none => simp
  | some p => simp

theorem getText_ok_iff {r : SociRow} {name text : Str} : getText r name = .ok text ↔ r name = .text text := by
  unfold getText
  cases r name with
  | null => simp
  | text s => simp
  | integer n => simp

/-- A column that is read as a number. -/
theorem number_ok_iff (r : SociRow) (name : String) :
    (∃ n, (getText r name.toList >>= stollText) = .ok n) ↔ HasNumber r name := by
  unfold HasNumber
  cases htext : getText r name.toList with
  | error what =>
    refine ⟨nofun, ?_⟩
    rintro ⟨text, hr, -⟩
    rw [getText_ok_iff.2 hr] at htext
    cases htext
  | ok text =>
    have hr := getText_ok_iff.1 htext
    simp only [hr, Storage.SqlValue.text.injEq, exists_eq_left']
    exact stollText_ok_iff text

/-- What is made of two columns. -/
theorem row_ok_iff {A B I : Type} {x : Except Str A} {y : Except Str B} (item : A → B → I) :
    (∃ i, (x >>= fun a => y >>= fun b => pure (item a b)) = .ok i) ↔ (∃ a, x = .ok a) ∧ ∃ b, y = .ok b := by
  cases x with
  | error what => simp [bind, Except.bind]
  | ok a =>
    cases y with
    | error what => simp [bind, Except.bind]
    | ok b => simp [bind, Except.bind, pure, Except.pure]

theorem fetched_iff {I : Type} {convert : SociRow → Except Str I} {Good : SociRow → Prop}
    (h : ∀ r, (∃ i, convert r = .ok i) ↔ Good r) (rs : RowSet) : rs.result convert = .ok () ↔ Fetched rs Good := by
  rw [RowSet.result_ok_iff, RowSet.reads_iff]
  simp only [h]
  exact ⟨fun h => ⟨h.1, h.2⟩, fun h => ⟨h.failure, h.rows⟩⟩

theorem statusCodeCount_ok_iff (r : SociRow) :
    (∃ i, statusCodeCount r = .ok i) ↔ HasNumber r "status_code" ∧ HasNumber r "cnt" := by
  rw [← number_ok_iff, ← number_ok_iff,
    ← row_ok_iff fun code n => (⟨(code % 65536).toNat, toCount n⟩ : Analytics.StatusCodeCount)]
  simp only [statusCodeCount, bind_assoc]

theorem domainCount_ok_iff (r : SociRow) :
    (∃ i, domainCount r = .ok i) ↔ (∃ text, r "domain" = .text text) ∧ HasNumber r "cnt" := by
  rw [← number_ok_iff]
  simp only [← getText_ok_iff]
  rw [← row_ok_iff fun domain n => (⟨domain, toCount n⟩ : Analytics.DomainCount)]
  simp only [domainCount, bind_assoc]

theorem timeBucketCount_ok_iff (r : SociRow) :
    (∃ i, timeBucketCount r = .ok i) ↔ HasNumber r "bucket_start" ∧ HasNumber r "cnt" := by
  rw [← number_ok_iff, ← number_ok_iff,
    ← row_ok_iff fun start n => (⟨fromTimeT start, toCount n⟩ : Analytics.TimeBucketCount)]
  simp only [timeBucketCount, bind_assoc]

theorem countQuery_ok_iff (extraWhere : Str) :
    (∃ n, countQuery reader isPostgres query extraWhere = .ok n) ↔
      Counted (reader.executeInto (countStatement isPostgres query extraWhere)) := by
  unfold countQuery Counted
  cases reader.executeInto (countStatement isPostgres query extraWhere) with
  | error what => simp
  | ok text => simp [stollText_ok_iff]

theorem fill_ok_iff (stats : Analytics.AggregateStats) :
    (fill reader isPostgres query stats).1 = .ok () ↔ Succeeds reader isPostgres query := by
  simp only [fill, RowSet.pushInto_eq]
  -- each of the first four steps ends the block when it fails
  cases htotal : countQuery reader isPostgres query [] with
  | error what => exact ⟨nofun, fun h => absurd ((countQuery_ok_iff _ _ _ []).2 h.total) (by simp [htotal])⟩
  | ok total =>
  cases hredirects : countQuery reader isPostgres query redirectsWhere with
  | error what =>
    exact ⟨nofun, fun h => absurd ((countQuery_ok_iff _ _ _ redirectsWhere).2 h.redirects) (by simp [hredirects])⟩
  | ok redirects =>
  cases hstatuses : (reader.prepare (statusStatement isPostgres query)).result statusCodeCount with
  | error what =>
    exact ⟨nofun, fun h => absurd ((fetched_iff statusCodeCount_ok_iff _).2 h.statuses) (by simp [hstatuses])⟩
  | ok _ =>
  cases hdomains : (reader.prepare (domainStatement isPostgres query)).result domainCount with
  | error what => exact ⟨nofun, fun h => absurd ((fetched_iff domainCount_ok_iff _).2 h.domains) (by simp [hdomains])⟩
  | ok _ =>
    have hbuckets : Succeeds reader isPostgres query ↔ ∀ bucket ∈ query.bucket, isPostgres = false →
        (reader.prepare (bucketStatement isPostgres query bucket)).result timeBucketCount = .ok () := by
      simp only [fetched_iff timeBucketCount_ok_iff]
      exact ⟨fun h => h.buckets, fun h => ⟨(countQuery_ok_iff _ _ _ _).1 ⟨total, htotal⟩,
        (countQuery_ok_iff _ _ _ _).1 ⟨redirects, hredirects⟩, (fetched_iff statusCodeCount_ok_iff _).1 hstatuses,
        (fetched_iff domainCount_ok_iff _).1 hdomains, h⟩⟩
    rw [hbuckets]
    cases query.bucket with
    | none => exact ⟨fun _ => nofun, fun _ => rfl⟩
    | some bucket =>
      cases isPostgres with
      | true => exact ⟨fun _ _ _ => nofun, fun _ => rfl⟩
      | false =>
        constructor
        · intro h bucket' hbucket _
          rw [← Option.mem_some_iff.1 hbucket]
          exact h
        · intro h
          exact h bucket rfl rfl

/-- Whether the read fails and what it leaves does not depend on what the caller had. -/
theorem getAggregateStats_some (stats : Analytics.AggregateStats) (error : Option AnalyticsError) :
    ((getAggregateStats reader isPostgres query (some stats) error).1 = true ↔ Succeeds reader isPostgres query) ∧
      (getAggregateStats reader isPostgres query (some stats) error).2.1 =
        some (fill reader isPostgres query {}).2 := by
  have hok := fill_ok_iff reader isPostgres query {}
  simp only [getAggregateStats]
  generalize fill reader isPostgres query {} = filled at hok
  obtain ⟨result, stats'⟩ := filled
  cases result with
  | error what => exact ⟨⟨nofun, fun h => absurd (hok.2 h) nofun⟩, rfl⟩
  | ok _ => exact ⟨⟨fun _ => hok.1 rfl, fun _ => rfl⟩, rfl⟩

/-- What the caller had is kept when there is no failure, and when it is by chance what the failure leaves. -/
theorem getAggregateStats_kept (stats : Analytics.AggregateStats) (error : Option AnalyticsError) :
    ((getAggregateStats reader isPostgres query (some stats) error).1 = false →
        (getAggregateStats reader isPostgres query (some stats) error).2.1 = some stats) ↔
      Succeeds reader isPostgres query ∨ stats = (fill reader isPostgres query {}).2 := by
  obtain ⟨hok, hleft⟩ := getAggregateStats_some reader isPostgres query stats error
  rw [hleft, Option.some.injEq, ← hok, eq_comm (a := stats)]
  cases (getAggregateStats reader isPostgres query (some stats) error).1 with
  | true => simp
  | false => simp

/-- **What the caller had is kept whatever it was exactly when nothing fails**: a failure replaces it by one aggregate
that depends on the answers of the database alone. -/
theorem getAggregateStats_kept_iff (reader : Reader) (isPostgres : Bool) (query : AggregateQuery)
    (error : Option AnalyticsError) :
    ((∀ stats, (getAggregateStats reader isPostgres query stats error).1 = false →
        (getAggregateStats reader isPostgres query stats error).2.1 = stats) ↔ Succeeds reader isPostgres query) ∧
    ∃ left, ∀ stats, ((getAggregateStats reader isPostgres query (some stats) error).1 = false →
        (getAggregateStats reader isPostgres query (some stats) error).2.1 = some stats) ↔
      Succeeds reader isPostgres query ∨ stats = left := by
  have hone := fun stats => getAggregateStats_kept reader isPostgres query stats error
  refine ⟨⟨fun hkept => ?_, fun hsucceeds stats => ?_⟩, _, hone⟩
  · by_contra hfails
    -- one aggregate would be two
    have hleft : ∀ stats, stats = (fill reader isPostgres query {}).2 := fun stats =>
      ((hone stats).1 (hkept (some stats))).resolve_left hfails
    have heq : ({ totalAttempts := 0 } : Analytics.AggregateStats) = { totalAttempts := 1 } :=
      (hleft _).trans (hleft _).symm
    exact absurd (congrArg Analytics.AggregateStats.totalAttempts heq) (by decide)
  · cases stats with
    | none => exact fun _ => rfl
    | some stats => exact (hone stats).2 (.inl hsucceeds)

/-- A database that is locked after its first two answers. -/
def locked : Reader where
  executeInto _ := .ok (some "2")
  prepare _ := ⟨[], some "database is locked"⟩

/-- The caller had counted seven attempts. -/
theorem stats_overwritten :
    getAggregateStats locked false { to_ := 86400000000000 } (some { totalAttempts := 7 }) (some {}) =
      (false, some { totalAttempts := 2, successfulRedirects := 2 },
        some ⟨.repository, "database is locked"⟩) ∧
    (some { totalAttempts := 2, successfulRedirects := 2 } : Option Analytics.AggregateStats) ≠
      some { totalAttempts := 7 } := by
  refine ⟨rfl, ?_⟩
  intro heq
  exact absurd (congrArg (fun stats => stats.map Analytics.AggregateStats.totalAttempts) heq) (by decide)

end Read

end UrlShortener.Clicks.ClickSession

import UrlShortener.Spec.Postgres
import UrlShortener.Calls.Retry
import UrlShortener.Proof.Soci

/-!
# Attempts of the PostgreSQL session

`RunWithRetry` as a bounded loop over the outcomes of its body, and what the session makes of it.

* `runWithRetry_eq`: the code after the loop never decides; the loop is `Calls.retry`, and the answer is read off
  the last outcome.
* `runWithRetry_attempts`: **how often a body is executed, and what is returned.** A change is executed once.
* `list_rows_iff`: **a listing is the rows of its last attempt exactly when no attempt before it got a row.**
-/

namespace UrlShortener.Storage.PostgresSession

open Calls

/-! ## The loop -/

/-- What is returned, and written to `*error`, after an attempt that is not followed by another one. -/
def verdict : Except Str Unit → Bool × Option RepoError
  | .ok () => (true, none)
  | .error what =>
    (false, some (if what = "not_found" then .notFound else PostgresErrorMapper.mapException what))

/-- A failure that is mapped to `transient_failure`. -/
def isTransient : Except Str Unit → Bool
  | .ok () => false
  | .error what =>
    decide (what ≠ "not_found") && PostgresErrorMapper.mapException what == .transientFailure

section Loop

variable {σ : Type} {fn : σ → Except Str Unit × σ} {maxRetries : UInt64} {retryable : Bool}

/-- **A round of the loop**: it is followed by another one or decides the answer. -/
theorem retryLoop_succ (rounds : ℕ) (attempt : UInt64) (s : σ) :
    retryLoop maxRetries fn retryable (rounds + 1) attempt s =
      if (retryable && isTransient (fn s).1) && decide (attempt < maxRetries) then
        retryLoop maxRetries fn retryable rounds (attempt + 1) (fn s).2
      else (verdict (fn s).1, (fn s).2) := by
  rw [retryLoop]
  rcases fn s with ⟨what | _, s'⟩
  · by_cases hfound : what = "not_found"
    · simp only [isTransient, verdict, hfound, if_true, ne_eq, not_true, decide_false, Bool.false_and, Bool.and_false,
        Bool.false_eq_true, if_false]
    · simp only [isTransient, verdict, hfound, if_false, ne_eq, not_false_eq_true, decide_true, Bool.true_and]
      cases retryable && PostgresErrorMapper.mapException what == .transientFailure && decide (attempt < maxRetries)
      · rfl
      · rfl
  · simp only [isTransient, verdict, Bool.and_false, Bool.false_and, Bool.false_eq_true, if_false]

/-- The loop with `left` attempts after this one. -/
theorem retryLoop_eq {left : ℕ} {attempt : UInt64} (h : attempt.toNat + left = maxRetries.toNat) (s : σ) :
    retryLoop maxRetries fn retryable (left + 1) attempt s =
      (verdict (retry fn (fun o => retryable && isTransient o) left s).1,
        (retry fn (fun o => retryable && isTransient o) left s).2) := by
  induction left generalizing attempt s with
  | zero =>
    -- `attempt` stands at `max_retries`
    have hlast : ¬attempt < maxRetries := by
      rw [UInt64.lt_iff_toNat_lt]
      omega
    rw [retryLoop_succ, decide_eq_false hlast, Bool.and_false, if_neg Bool.false_ne_true, retry]
  | succ left ih =>
    have hmore : attempt < maxRetries := by
      rw [UInt64.lt_iff_toNat_lt]
      omega
    have hnext : (attempt + 1).toNat + left = maxRetries.toNat := by
      have hlt := maxRetries.toNat_lt
      rw [UInt64.toNat_add, UInt64.toNat_one, Nat.mod_eq_of_lt (by omega)]
      omega
    rw [retryLoop_succ, decide_eq_true hmore, Bool.and_true, retry]
    split
    · exact ih hnext _
    · rfl

/-- **`RunWithRetry` is a bounded retry.** -/
theorem runWithRetry_eq (s : σ) :
    runWithRetry maxRetries fn retryable s =
      (verdict (retry fn (fun o => retryable && isTransient o) maxRetries.toNat s).1,
        (retry fn (fun o => retryable && isTransient o) maxRetries.toNat s).2) :=
  retryLoop_eq (by simp) s

/-- A body that is not retryable is executed once. -/
theorem runWithRetry_once (s : σ) : runWithRetry maxRetries fn false s = (verdict (fn s).1, (fn s).2) := by
  have hretry : retry fn (fun o => false && isTransient o) maxRetries.toNat s = fn s :=
    retry_of_not_again (Bool.false_and _)
  rw [runWithRetry_eq, hretry]

/-- **What is known of the attempts**, given their outcomes in order and the answer. -/
structure Attempted (maxRetries : UInt64) (retryable : Bool) (outcomes : List (Except Str Unit))
    (answer : Bool × Option RepoError) : Prop where
  once : retryable = false → outcomes.length = 1
  bound : outcomes.length ≤ maxRetries.toNat + 1
  last : ∃ before last, outcomes = before ++ [last] ∧ (∀ o ∈ before, isTransient o = true) ∧
    (retryable = true → outcomes.length ≤ maxRetries.toNat → isTransient last = false) ∧ answer = verdict last

theorem attempted_runWithRetry (fn : σ → Except Str Unit × σ) (s : σ) :
    Attempted maxRetries retryable (runWithRetry maxRetries (logged fn) retryable ([], s)).2.1
      (runWithRetry maxRetries (logged fn) retryable ([], s)).1 := by
  obtain ⟨n, hstops, heq⟩ :=
    exists_stops (logged fn) (fun o => retryable && isTransient o) maxRetries.toNat ([], s)
  have hbefore : ∀ i < n, (retryable && isTransient (outcome fn i s)) = true := by
    intro i hi
    rw [← outcome_logged]
    exact hstops.before i hi
  have hlog : (retry (logged fn) (fun o => retryable && isTransient o) maxRetries.toNat ([], s)).2.1 =
      (List.range n).map (outcome fn · s) ++ [outcome fn n s] := by
    rw [heq, stateAfter_logged]
    rfl
  have hlast :
      (retry (logged fn) (fun o => retryable && isTransient o) maxRetries.toNat ([], s)).1 = outcome fn n s := by
    rw [heq, stateAfter_logged]
    rfl
  have hlength : ((List.range n).map (outcome fn · s) ++ [outcome fn n s]).length = n + 1 := by simp
  rw [runWithRetry_eq, hlog, hlast]
  refine ⟨fun hretryable => ?_, ?_, _, _, rfl, ?_, ?_, rfl⟩
  · -- another attempt would be one of a retryable body
    have hzero : n = 0 := by
      by_contra hne
      have h := hbefore 0 (Nat.pos_of_ne_zero hne)
      rw [hretryable, Bool.false_and] at h
      cases h
    rw [hlength, hzero]
  · rw [hlength]
    exact Nat.succ_le_succ hstops.le
  · intro o ho
    obtain ⟨i, hi, rfl⟩ := List.mem_map.1 ho
    exact (Bool.and_eq_true_iff.1 (hbefore i (List.mem_range.1 hi))).2
  · intro hretryable hle
    rw [hlength] at hle
    have h := hstops.last hle
    rwa [outcome_logged, hretryable, Bool.true_and] at h

end Loop

/-! ## Statements -/

/-- The driver, writing down the statements that it is given. -/
def recorded {DB : Type} (soci : Soci DB) : Soci (List Statement × DB) where
  execute statement s := ((soci.execute statement s.2).1, (s.1 ++ [statement], (soci.execute statement s.2).2))
  executeInto statement s :=
    ((soci.executeInto statement s.2).1, (s.1 ++ [statement], (soci.executeInto statement s.2).2))
  prepare statement s := ((soci.prepare statement s.2).1, (s.1 ++ [statement], (soci.prepare statement s.2).2))

section Changes

variable {DB : Type} (soci : Soci DB) (maxRetries : UInt64) (sql : Str) (db : DB)

theorem insertLink_recorded (row : SqlRow) :
    (insertLink (recorded soci) maxRetries sql row ([], db)).2.1 = [insertStatement sql row] := by
  rw [insertLink, runWithRetry_once]
  rfl

theorem deleteLink_recorded (shortCode : Str) :
    (deleteLink (recorded soci) maxRetries sql shortCode ([], db)).2.1 = [codeStatement sql shortCode] := by
  rw [deleteLink, runWithRetry_once]
  rfl

/-- The count follows a change that did not fail. -/
theorem updateLink_recorded (row : SqlRow) :
    (updateLink (recorded soci) maxRetries sql row ([], db)).2.1 = [updateStatement sql row] ∨
    (updateLink (recorded soci) maxRetries sql row ([], db)).2.1 =
      [updateStatement sql row, countStatement (row.shortCode.getD [])] := by
  rw [updateLink, runWithRetry_once, updateBody]
  simp only [recorded, List.nil_append]
  rcases soci.execute (updateStatement sql row) db with ⟨what | _, db'⟩
  · exact .inl rfl
  · refine .inr ?_
    simp only
    rcases soci.executeInto (countStatement (row.shortCode.getD [])) db' with ⟨what | affected, db''⟩
    · rfl
    · simp only
      split <;> rfl

end Changes

/-- **How often a body is executed, and what is returned.** `outcomes` are those of the executions that were made;
inserts, updates and deletes reach the driver once. -/
theorem runWithRetry_attempts (maxRetries : UInt64) :
    (∀ {σ : Type} (fn : σ → Except Str Unit × σ) (retryable : Bool) (s : σ),
      Attempted maxRetries retryable (runWithRetry maxRetries (logged fn) retryable ([], s)).2.1
        (runWithRetry maxRetries (logged fn) retryable ([], s)).1) ∧
    ∀ {DB : Type} (soci : Soci DB) (sql : Str) (db : DB),
      (∀ row, (insertLink (recorded soci) maxRetries sql row ([], db)).2.1 = [insertStatement sql row]) ∧
      (∀ row, (updateLink (recorded soci) maxRetries sql row ([], db)).2.1 = [updateStatement sql row] ∨
        (updateLink (recorded soci) maxRetries sql row ([], db)).2.1 =
          [updateStatement sql row, countStatement (row.shortCode.getD [])]) ∧
      ∀ shortCode,
        (deleteLink (recorded soci) maxRetries sql shortCode ([], db)).2.1 = [codeStatement sql shortCode] := by
  refine ⟨fun fn retryable s => attempted_runWithRetry fn s, fun soci sql db => ⟨?_, ?_, ?_⟩⟩
  · exact insertLink_recorded soci maxRetries sql db
  · exact updateLink_recorded soci maxRetries sql db
  · exact deleteLink_recorded soci maxRetries sql db

/-! ## Listings -/

/-- An exception can only have this text. -/
def ThrowsOnly {α : Type} (text : Str) (x : Except Str α) : Prop := ∀ what, x = .error what → what = text

theorem ThrowsOnly.bind {α β : Type} {text : Str} {x : Except Str α} {f : α → Except Str β} (hx : ThrowsOnly text x)
    (hf : ∀ a, ThrowsOnly text (f a)) : ThrowsOnly text (x >>= f) := by
  intro what h
  cases x with
  | error e =>
    cases h
    exact hx _ rfl
  | ok a => exact hf a what h

/-- **A row can only fail to be converted by a wrong type.** -/
theorem throwsOnly_rowFromSoci (r : SociRow) : ThrowsOnly badCast (rowFromSoci r) := by
  have htext : ∀ name, ThrowsOnly badCast (getOptText r name) := by
    intro name what h
    unfold getOptText at h
    cases hr : r name <;> rw [hr] at h <;> cases h
    rfl
  have hinteger : ∀ name, ThrowsOnly badCast (getOptInteger r name) := by
    intro name what h
    unfold getOptInteger at h
    cases hr : r name <;> rw [hr] at h <;> cases h
    rfl
  unfold rowFromSoci
  -- column by column
  refine (htext _).bind fun id => (htext _).bind fun shortCode => (htext _).bind fun targetUrl => ?_
  refine (hinteger _).bind fun createdAt => (hinteger _).bind fun updatedAt => (hinteger _).bind fun expiresAt => ?_
  refine (hinteger _).bind fun isActive => (htext _).bind fun ownerId => (htext _).bind fun attributesJson => ?_
  intro what h
  cases h

section Listing

variable {DB : Type} (soci : Soci DB) (statement : Statement) (db : DB)

/-- The rowset of attempt `i`. -/
def rowSet (i : ℕ) : RowSet := outcome (soci.prepare statement) i db

theorem listBody_eq (s : List SqlRow × DB) :
    listBody soci statement s =
      ((soci.prepare statement s.2).1.result rowFromSoci,
        (s.1 ++ (soci.prepare statement s.2).1.delivered rowFromSoci, (soci.prepare statement s.2).2)) := by
  unfold listBody
  simp only [RowSet.pushInto_eq]

/-- Every attempt leaves its rows behind. -/
theorem stateAfter_listBody (n : ℕ) :
    stateAfter (listBody soci statement) n ([], db) =
      ((List.range n).flatMap fun i => (rowSet soci statement db i).delivered rowFromSoci,
        stateAfter (soci.prepare statement) n db) := by
  induction n with
  | zero => rfl
  | succ n ih =>
    rw [stateAfter_succ', ih, listBody_eq, stateAfter_succ', List.range_succ, List.flatMap_append,
      List.flatMap_singleton]
    rfl

theorem outcome_listBody (n : ℕ) :
    outcome (listBody soci statement) n ([], db) = (rowSet soci statement db n).result rowFromSoci := by
  rw [outcome, stateAfter_listBody, listBody_eq]
  rfl

end Listing

theorem verdict_none {o : Except Str Unit} (h : (verdict o).2 = none) : o = .ok () := by
  cases o with
  | ok _ => rfl
  | error what => cases h

/-- A transient failure is one of the fetching: all rows before it were converted. -/
theorem delivered_of_transient {rs : RowSet} (h : isTransient (rs.result rowFromSoci) = true) :
    rs.rows.map rowFromSoci = (rs.delivered rowFromSoci).map .ok ∧
      ∃ what ∈ rs.failure, isTransient (.error what) = true := by
  rcases rs.result_cases rowFromSoci with ⟨hmap, hresult⟩ | ⟨r, hr, what, hwhat, hresult⟩
  · refine ⟨hmap, ?_⟩
    rw [hresult] at h
    cases hfailure : rs.failure with
    | none =>
      rw [hfailure] at h
      cases h
    | some what =>
      rw [hfailure] at h
      exact ⟨what, rfl, h⟩
  · -- a wrong type is no transient failure
    rw [hresult, throwsOnly_rowFromSoci r what hwhat] at h
    exact absurd h (by decide)

/-- **A listing that succeeds** returns the rows of all its attempts; those before the last failed while fetching. -/
theorem list_of_ok {DB : Type} {soci : Soci DB} {maxRetries : UInt64} {sql : Str} {owner : Option Str}
    {includeInactive : Bool} {limit offset : UInt64} {db : DB}
    (hok : (list soci maxRetries sql owner includeInactive limit offset db).1.2 = none) :
    ∃ n ≤ maxRetries.toNat,
      let attempt := rowSet soci (listStatement sql owner includeInactive limit offset) db
      (∀ i < n, (attempt i).rows.map rowFromSoci = ((attempt i).delivered rowFromSoci).map .ok ∧
        ∃ what ∈ (attempt i).failure, isTransient (.error what) = true) ∧
      (attempt n).Reads rowFromSoci ∧
      (list soci maxRetries sql owner includeInactive limit offset db).1.1 =
        ((List.range n).flatMap fun i => (attempt i).delivered rowFromSoci) ++ (attempt n).delivered rowFromSoci := by
  set statement := listStatement sql owner includeInactive limit offset with hstatement
  obtain ⟨n, hstops, heq⟩ :=
    exists_stops (listBody soci statement) (fun o => true && isTransient o) maxRetries.toNat ([], db)
  have hbody := listBody_eq soci statement (stateAfter (listBody soci statement) n ([], db))
  rw [stateAfter_listBody] at heq hbody
  rw [hbody] at heq
  simp only [list, ← hstatement, runWithRetry_eq, heq] at hok ⊢
  -- a failure would be in `*error`
  have hlast : (rowSet soci statement db n).result rowFromSoci = .ok () := by
    refine verdict_none ?_
    split at hok <;> exact hok
  refine ⟨n, hstops.le, fun i hi => ?_, RowSet.result_ok_iff.1 hlast, ?_⟩
  · have hagain := hstops.before i hi
    rw [Bool.true_and, outcome_listBody] at hagain
    exact delivered_of_transient hagain
  · rw [rowSet, outcome] at hlast
    rw [hlast]
    rfl

/-- **A listing is the rows of its last attempt exactly when no attempt before it got a row.** -/
theorem list_rows_iff {DB : Type} (soci : Soci DB) (maxRetries : UInt64) (sql : Str) (owner : Option Str)
    (includeInactive : Bool) (limit offset : UInt64) (db : DB)
    (hok : (list soci maxRetries sql owner includeInactive limit offset db).1.2 = none) :
    ∃ n ≤ maxRetries.toNat, ∃ rows : List SqlRow,
      let attempt := rowSet soci (listStatement sql owner includeInactive limit offset) db
      (∀ i < n, ∃ what ∈ (attempt i).failure, isTransient (.error what) = true) ∧
      (attempt n).failure = none ∧ (attempt n).rows.map rowFromSoci = rows.map .ok ∧
      ((list soci maxRetries sql owner includeInactive limit offset db).1.1 = rows ↔
        ∀ i < n, (attempt i).rows = []) := by
  obtain ⟨n, hle, hbefore, hlast, hlist⟩ := list_of_ok hok
  refine ⟨n, hle, _, fun i hi => (hbefore i hi).2, hlast.failure, hlast.rows, ?_⟩
  rw [hlist, List.append_left_eq_self, List.flatMap_eq_nil_iff]
  refine forall_congr' fun i => ?_
  rw [List.mem_range]
  refine imp_congr_right fun hi => ?_
  -- all the rows of a failed attempt were converted
  have hrows := (hbefore i hi).1
  constructor
  · intro h
    rwa [h, List.map_nil, List.map_eq_nil_iff] at hrows
  · intro h
    rwa [h, List.map_nil, eq_comm, List.map_eq_nil_iff] at hrows

/-- A driver that answers queries with the rowsets of a list, one after the other. -/
def scripted : Soci (List RowSet) where
  execute _ script := (.ok (), script)
  executeInto _ script := (.ok 0, script)
  prepare _ script := (script.headD ⟨[], none⟩, script.tail)

/-- A row as the database has it. -/
def sampleRow : SociRow := fun name =>
  ([("id".toList, .text "1".toList), ("short_code".toList, .text "abc".toList),
    ("target_url".toList, .text "https://a.example/".toList), ("created_at".toList, .integer 1700000000),
    ("updated_at".toList, .integer 1700000000), ("is_active".toList, .integer 1)].lookup name).getD .null

/-- The row as the session returns it. -/
def sampleSqlRow : SqlRow :=
  { id := some "1", shortCode := some "abc", targetUrl := some "https://a.example/",
    createdAt := some 1700000000, updatedAt := some 1700000000, isActive := some 1 }

/-- The connection is lost before the first row. -/
theorem list_rows_iff_sample :
    ∃ n ≤ (1 : UInt64).toNat, ∃ rows : List SqlRow,
      let attempt := rowSet scripted (listStatement "SELECT * FROM links;" none false 10 0)
        [⟨[], some "connection lost"⟩, ⟨[sampleRow], none⟩]
      (∀ i < n, ∃ what ∈ (attempt i).failure, isTransient (.error what) = true) ∧
      (attempt n).failure = none ∧ (attempt n).rows.map rowFromSoci = rows.map .ok ∧
      ((list scripted 1 "SELECT * FROM links;" none false 10 0
        [⟨[], some "connection lost"⟩, ⟨[sampleRow], none⟩]).1.1 = rows ↔ ∀ i < n, (attempt i).rows = []) :=
  list_rows_iff scripted 1 "SELECT * FROM links;" none false 10 0
    [⟨[], some "connection lost".toList⟩, ⟨[sampleRow], none⟩] rfl

/-- The connection is lost after a row: the next attempt fetches it again. -/
theorem list_row_twice :
    rowFromSoci sampleRow = .ok sampleSqlRow ∧
    (list scripted 1 "SELECT * FROM links;".toList none false 10 0
      [⟨[sampleRow], some "connection lost".toList⟩, ⟨[sampleRow], none⟩]).1 = ([sampleSqlRow, sampleSqlRow], none) :=
  ⟨rfl, rfl⟩

end UrlShortener.Storage.PostgresSession

import UrlShortener.Spec.Storage
import UrlShortener.Caching.Ttl
import UrlShortener.Runs.Answers
import Mathlib.Algebra.Order.Group.Int

/-!
# The in-memory cache and the eager map

* `eager`: the same calls on a map that drops an entry at the moment it ends.
* `view`: the entries of the store as such a map, ended ones included; each operation of the store in terms of it
  (`view_insert`, `view_erase`, `view_clearByPrefix`).
* `serve_eager`: one call, answered alike by store and map once time has passed on both.
* `cache_refines_eager`: **every `Get` of every run returns what the eager map returns.**
-/

namespace UrlShortener.Storage

open Runs Caching

/-! ## Calls -/

/-- A call of the cache. -/
inductive CacheOp
  | get (key : Str)
  | set (key : Str) (value : CacheValue) (ttl : Option Int64)
  | delete (key : Str)
  | clearByPrefix (order : Iteration Entry) (start : Str)

/-- A call and the time at which it is made. -/
structure CacheCall where
  now : TimePoint
  op : CacheOp

/-- A `Get` yields a value and an error code, the other calls whether they succeeded. -/
inductive CacheAnswer
  | value (found : Option CacheValue) (error : CacheError)
  | done (ok : Bool)
  deriving DecidableEq

namespace CacheCall

/-- The call on the store. -/
def serve (call : CacheCall) (entries : InMemoryCacheStore) : CacheAnswer × InMemoryCacheStore :=
  match call.op with
  | .get key =>
    let reply := InMemoryCacheStore.get { now := call.now } key entries
    (.value reply.1.1 reply.1.2, reply.2)
  | .set key value ttl => (InMemoryCacheStore.set { now := call.now } key value ttl entries).map .done id
  | .delete key => (InMemoryCacheStore.delete { now := call.now } key entries).map .done id
  | .clearByPrefix order start => (InMemoryCacheStore.clearByPrefix order start entries).map .done id

/-- The call on the eager map, which time has reached first. Times are in nanoseconds. -/
def eager (call : CacheCall) (m : TtlMap Str CacheValue ℤ) : CacheAnswer × TtlMap Str CacheValue ℤ :=
  let m := m.tick call.now.toInt
  match call.op with
  | .get key => (.value (m.get key) .none, m)
  | .set key value ttl =>
    (.done true, Function.update m key (TtlMap.stored call.now.toInt value (ttl.map (·.toInt * 1000000000))))
  | .delete key => (.done true, Function.update m key none)
  | .clearByPrefix _ start => (.done true, m.clear start.isPrefixOf)

/-- The end of the entry that the call stores is a time point. -/
def Fits (call : CacheCall) : Prop :=
  ∀ key value ttl, call.op = .set key value (some ttl) → 0 < ttl → call.now.toInt + ttl.toInt * 1000000000 < 2 ^ 63

end CacheCall

/-! ## The entries as a map -/

namespace InMemoryCacheStore

/-- The entries, ended or not. -/
def view (entries : InMemoryCacheStore) : TtlMap Str CacheValue ℤ := fun key =>
  (entries.lookup key).map fun entry => (entry.value, entry.expiresAt.map Int64.toInt)

variable {entries : InMemoryCacheStore} {key : Str}

/-- `insert` as the map sees it. -/
theorem view_insert (entry : Entry) : view (entries.insert key entry)
    = Function.update (view entries) key (some (entry.value, entry.expiresAt.map Int64.toInt)) := by
  funext k
  by_cases hk : k = key
  · subst hk
    simp [view]
  · simp [view, hk, Finmap.lookup_insert_of_ne]

/-- `erase` as the map sees it. -/
theorem view_erase : view (entries.erase key) = Function.update (view entries) key none := by
  funext k
  by_cases hk : k = key
  · subst hk
    simp [view]
  · simp [view, hk, Finmap.lookup_erase_ne]

/-- The loop erases the keys it visits that have the prefix. -/
theorem lookup_erase_foldl (start : Str) (visited : List (Σ _ : Str, Entry)) (entries : InMemoryCacheStore)
    (key : Str) :
    (visited.foldl (fun entries entry => if start.isPrefixOf entry.1 then entries.erase entry.1 else entries)
        entries).lookup key
      = if key ∈ visited.map Sigma.fst ∧ start.isPrefixOf key = true then none else entries.lookup key := by
  induction visited generalizing entries with
  | nil => simp
  | cons entry visited ih =>
    rw [List.foldl_cons, ih]
    by_cases hkey : key = entry.1
    · subst hkey
      by_cases hstart : start.isPrefixOf entry.1 = true <;> simp [hstart]
    · have hother : (if start.isPrefixOf entry.1 = true then entries.erase entry.1 else entries).lookup key
          = entries.lookup key := by
        split
        · exact Finmap.lookup_erase_ne hkey
        · rfl
      rw [hother]
      simp only [List.map_cons, List.mem_cons, hkey, false_or]

/-- The loop clears the keys with the prefix. -/
theorem view_clearByPrefix (order : Iteration Entry) (start : Str) (entries : InMemoryCacheStore) :
    view (clearByPrefix order start entries).2 = (view entries).clear start.isPrefixOf := by
  funext key
  have hvisited : entries.lookup key ≠ none → key ∈ (order.visit entries).map Sigma.fst := by
    intro hkey
    have hmem : key ∈ entries.entries.map Sigma.fst :=
      Finmap.mem_def.1 (Finmap.mem_iff.2 (Option.ne_none_iff_exists'.1 hkey))
    rwa [← order.visits, Multiset.map_coe] at hmem
  simp only [view, clearByPrefix, lookup_erase_foldl, TtlMap.clear]
  by_cases hstart : start.isPrefixOf key = true
  · by_cases hkey : entries.lookup key = none
    · simp [hkey]
    · simp [hvisited hkey, hstart]
  · simp [hstart]

end InMemoryCacheStore

/-- An entry is live where `Get` does not find it past its time. -/
theorem live_entry (now : TimePoint) (entry : Entry) :
    TtlMap.live now.toInt (entry.value, entry.expiresAt.map Int64.toInt) = !entry.expiresAt.any (· ≤ now) := by
  cases hlast : entry.expiresAt with
  | none => rfl
  | some last =>
    show decide (now.toInt < last.toInt) = !decide (last ≤ now)
    rw [← decide_not, decide_eq_decide, Int64.le_iff_toInt_le, Int.not_le]

/-! ## One call -/

section Step

variable {call : CacheCall} {entries : InMemoryCacheStore} {m : TtlMap Str CacheValue ℤ}

open InMemoryCacheStore

/-- A `Get` finds what the map has, and drops at most what the map has dropped. -/
theorem get_eager (now : TimePoint) (key : Str) (entries : InMemoryCacheStore) :
    (InMemoryCacheStore.get { now } key entries).1 = (((view entries).tick now.toInt).get key, .none) ∧
      (view (InMemoryCacheStore.get { now } key entries).2).tick now.toInt = (view entries).tick now.toInt := by
  unfold InMemoryCacheStore.get
  cases hentry : entries.lookup key with
  | none =>
    have hmiss : (view entries).tick now.toInt key = none := by simp [TtlMap.tick, view, hentry]
    exact ⟨by simp [TtlMap.get, hmiss], rfl⟩
  | some entry =>
    have hfound : (view entries).tick now.toInt key
        = if entry.expiresAt.any (· ≤ now) then none else some (entry.value, entry.expiresAt.map Int64.toInt) := by
      simp only [TtlMap.tick, view, hentry, Option.map_some, Option.filter_some, live_entry]
      split <;> simp_all
    by_cases hover : entry.expiresAt.any (· ≤ now) = true
    · simp only [hover, if_true] at hfound ⊢
      refine ⟨by simp [TtlMap.get, hfound], ?_⟩
      rw [view_erase, TtlMap.tick_update, Option.filter_none, ← hfound, Function.update_eq_self]
    · simp only [hover] at hfound ⊢
      exact ⟨by simp [TtlMap.get, hfound], rfl⟩

/-- What `Set` stores. -/
theorem set_eager (entries : InMemoryCacheStore) (hfits : call.Fits) {key : Str} {value : CacheValue}
    {ttl : Option Int64} (hop : call.op = .set key value ttl) :
    (InMemoryCacheStore.set { now := call.now } key value ttl entries).1 = true ∧
      view (InMemoryCacheStore.set { now := call.now } key value ttl entries).2 = Function.update (view entries) key
        (TtlMap.stored call.now.toInt value (ttl.map (·.toInt * 1000000000))) := by
  unfold InMemoryCacheStore.set
  cases ttl with
  | none => exact ⟨rfl, view_insert _⟩
  | some ttl =>
    have hsign : ttl ≤ 0 ↔ ttl.toInt * 1000000000 ≤ 0 := by
      rw [Int64.le_iff_toInt_le, Int64.toInt_zero]
      omega
    simp only [Option.map_some, TtlMap.stored, ← hsign]
    by_cases hpos : ttl ≤ 0
    · rw [if_pos hpos, if_pos hpos]
      exact ⟨rfl, view_erase⟩
    · rw [if_neg hpos, if_neg hpos]
      refine ⟨rfl, ?_⟩
      have hend : (call.now + ttl * nanosecondsPerSecond).toInt = call.now.toInt + ttl.toInt * 1000000000 := by
        have hlast := hfits key value ttl hop (Int64.not_le.1 hpos)
        have hfirst := call.now.le_toInt
        rw [hsign] at hpos
        rw [Int64.toInt_add, Int64.toInt_mul, show nanosecondsPerSecond.toInt = 1000000000 from rfl, Int.add_bmod_bmod,
          Int.bmod_eq_of_le (by omega) (by omega)]
      rw [view_insert, Option.map_some, hend]

/-- **One call**, answered alike where store and map agree at its time. -/
theorem serve_eager (hfits : call.Fits) (h : m.tick call.now.toInt = (view entries).tick call.now.toInt) :
    (call.serve entries).1 = (call.eager m).1 ∧
      (call.eager m).2 = (view (call.serve entries).2).tick call.now.toInt := by
  unfold CacheCall.serve CacheCall.eager
  rw [h]
  cases hop : call.op with
  | get key =>
    obtain ⟨hanswer, hstate⟩ := get_eager call.now key entries
    simp only [hanswer, hstate, and_self]
  | set key value ttl =>
    obtain ⟨hanswer, hstate⟩ := set_eager entries hfits hop
    simp only [Prod.map_fst, Prod.map_snd, hanswer, id, hstate, TtlMap.tick_update, TtlMap.filter_stored, and_self]
  | delete key =>
    refine ⟨rfl, ?_⟩
    show _ = (view (entries.erase key)).tick _
    rw [view_erase, TtlMap.tick_update, Option.filter_none]
  | clearByPrefix order start =>
    refine ⟨rfl, ?_⟩
    show _ = (view (clearByPrefix order start entries).2).tick _
    rw [view_clearByPrefix, TtlMap.tick_clear]

end Step

/-! ## Runs -/

/-- **The store refines the eager map**: over every run whose times do not decrease and whose ends of entries are time
points, each call is answered as the eager map answers it. -/
theorem cache_refines_eager (calls : List CacheCall) (hfits : ∀ call ∈ calls, call.Fits)
    (hsorted : calls.Pairwise fun a b => a.now ≤ b.now) :
    (answers CacheCall.serve ∅ calls).map (·.2) = (answers CacheCall.eager (fun _ => none) calls).map (·.2) := by
  refine answers_agree (R := fun past entries m => ∀ now, (∀ c ∈ past, c.now.toInt ≤ now) →
    m.tick now = (InMemoryCacheStore.view entries).tick now) ?_ ?_
  · intro now _
    rfl
  · rintro past call rest entries m rfl hR
    have hpast : ∀ c ∈ past, c.now.toInt ≤ call.now.toInt := fun c hc =>
      Int64.le_iff_toInt_le.1 ((List.pairwise_append.1 hsorted).2.2 c hc call (by simp))
    obtain ⟨hanswer, hstate⟩ := serve_eager (hfits call (by simp)) (hR _ hpast)
    refine ⟨hanswer, fun now hnow => ?_⟩
    rw [hstate, TtlMap.tick_tick (hnow call (by simp))]

/-- A value for one second, read a nanosecond before its end and at its end. -/
def sampleCacheCalls : List CacheCall :=
  [⟨0, .set "k" ⟨"https://a.io", none, true, none⟩ (some 1)⟩, ⟨999999999, .get "k"⟩,
    ⟨1000000000, .get "k"⟩]

theorem sampleCacheCalls_refine :
    (answers CacheCall.serve ∅ sampleCacheCalls).map (·.2)
        = [.done true, .value (some ⟨"https://a.io", none, true, none⟩) .none, .value none .none] ∧
      (answers CacheCall.serve ∅ sampleCacheCalls).map (·.2)
        = (answers CacheCall.eager (fun _ => none) sampleCacheCalls).map (·.2) := by
  refine ⟨by decide +kernel, cache_refines_eager sampleCacheCalls ?_ (by decide +kernel)⟩
  refine List.forall_mem_cons.2 ⟨?_, List.forall_mem_cons.2 ⟨?_, List.forall_mem_singleton.2 ?_⟩⟩
  · rintro key value ttl ⟨⟩ _
    decide
  · rintro key value ttl ⟨⟩
  · rintro key value ttl ⟨⟩

end UrlShortener.Storage

import UrlShortener.Proof.CacheStores

/-!
# The cache of `LinkService` is transparent

Whatever the cache drops and whichever of its `Get` and `Set` calls fail, a `Resolve` answers what the
repository alone gives.

* `Looks`, `Fills`: `Resolve` reads the repository at most once, and a `Set` that follows stores a copy of
  the record it read.
* `resolve_served`, `step_served`: so every operation keeps every key served.
* `answersAt_resolve`: at a served key the answer is the `verdict` on the stored record, at an instant
  within the call.
* `ServesOn.answersAt`: a run and a `Resolve` that follows, for any cache that serves what it was filled with.
-/

namespace UrlShortener.Storage

open Calls Caching

variable {Cache : Type} {store : ICacheStore Cache} {okKey : Str → Prop} {okRecord : LinkRecord → Prop}
  {entry : Cache → Str → Option CacheValue} {weather : ℕ → Moment} {s : Ports Cache} {code key : Str} {α : Type}

/-- What is cached under `key` serves the record of that code. -/
def Served (entry : Cache → Str → Option CacheValue) (s : Ports Cache) (key : Str) : Prop :=
  CoherentAt Serves s.repo.getByShortCode (entry s.cache) key

/-- Every record of the repository is one of those in use. -/
def InUse (okRecord : LinkRecord → Prop) (repo : InMemoryMetadataRepository) : Prop :=
  ∀ code r, repo.getByShortCode code = some r → okRecord r

/-! ## One call -/

/-- Calls that neither write to the repository nor fill the cache. -/
def PortCall.Quiet : PortCall → Prop
  | .cacheSet _ _ _ | .updateLink _ | .deleteLink _ => False
  | _ => True

@[simp] theorem handle_calls (c : PortCall) : (handle store weather c s).2.calls = s.calls + 1 := rfl

theorem handle_repo {c : PortCall} (hc : c.Quiet) : (handle store weather c s).2.repo = s.repo := by
  cases c with
  | cacheSet k v ttl => cases hc
  | updateLink r => cases hc
  | deleteLink k => cases hc
  | _ => rfl

theorem handle_kept (hl : store.ServesOn okKey okRecord entry) {c : PortCall} (hc : c.Quiet) :
    Kept (entry s.cache) (entry (handle store weather c s).2.cache) key := by
  cases c with
  | cacheGet k => exact hl.get_kept _ _ _ _
  | cacheDelete k => exact hl.delete_kept _ _ _ _
  | getByShortCode k => exact Kept.refl _ _
  | now => exact Kept.refl _ _
  | emit e => exact Kept.refl _ _
  | cacheSet k v ttl => cases hc
  | updateLink r => cases hc
  | deleteLink k => cases hc

theorem Served.quiet (h : Served entry s key) (hl : store.ServesOn okKey okRecord entry) {c : PortCall}
    (hc : c.Quiet) : Served entry (handle store weather c s).2 key := by
  unfold Served
  rw [handle_repo hc]
  exact h.vanish (handle_kept hl hc)

/-- A fill with a copy of the stored record keeps every key served. -/
theorem Served.fill (h : Served entry s key) (hl : store.ServesOn okKey okRecord entry) (hcode : okKey code)
    (hkey : okKey key) {r : LinkRecord} {v : CacheValue} (hr : s.repo.getByShortCode code = some r)
    (hok : okRecord r) (hv : Mirrors r v) (ttl : Option Int64) :
    Served entry (handle store weather (.cacheSet code v ttl) s).2 key := by
  by_cases hk : key = code
  · subst hk
    rcases hl.set_self (weather s.calls) key v ttl s.cache r hok hv with ⟨w, hw, hserves⟩ | hkept
    · exact coherentAt_of_fill hr hserves hw
    · exact h.vanish hkept
  · exact h.vanish (hl.set_other _ _ _ _ _ _ hcode hkey hk)

theorem served_cacheDelete (hl : store.ServesOn okKey okRecord entry) :
    Served entry (handle store weather (.cacheDelete key) s).2 key :=
  coherentAt_of_miss (hl.delete_self _ _ _)

/-! ## The calls of `Resolve` -/

/-- After `found` was read from the repository: the cache is filled with a copy of it, if at all. It is a
copy of an active record, stored without time limit if the record has none. -/
def Fills (code : Str) (found : Option LinkRecord) : PortCall → Prop
  | .cacheSet key value ttl =>
    key = code ∧ ∃ r, found = some r ∧ Mirrors r value ∧ r.isActive = true ∧ (r.expiresAt = none → ttl = none)
  | .now | .emit _ => True
  | _ => False

theorem Fills.cases {found : Option LinkRecord} {c : PortCall} (h : Fills code found c) :
    c = .now ∨ (∃ e, c = .emit e) ∨ ∃ r v ttl, c = .cacheSet code v ttl ∧ found = some r ∧ Mirrors r v ∧
      r.isActive = true ∧ (r.expiresAt = none → ttl = none) := by
  cases c with
  | now => exact .inl rfl
  | emit e => exact .inr (.inl ⟨e, rfl⟩)
  | cacheSet k v ttl =>
    obtain ⟨rfl, r, hr, hv⟩ := h
    exact .inr (.inr ⟨r, v, ttl, rfl, hr, hv⟩)
  | _ => cases h

/-- Before the repository is read: nothing is filled. -/
inductive Looks (code : Str) : Service α → Prop
  | ret (a : α) : Looks code (.ret a)
  | quiet {c k} : c.Quiet → c ≠ .getByShortCode code → (∀ x, Looks code (k x)) → Looks code (.call c k)
  | read {k} : (∀ found, (k found).Every (Fills code found)) → Looks code (.call (.getByShortCode code) k)

open LinkService

theorem emitAnalytics_eq (code : Str) (result : ResolveResult) :
    emitAnalytics code result = .call .now fun t =>
      .call (.emit ⟨code, t, statusCode result.status, result.cacheHit, none⟩) fun _ => .ret result := rfl

theorem resolve_eq (code : Str) : resolve code = .call (.cacheGet code) (answerGet code) := rfl

theorem looks_hasPassed {expiresAt : Option TimePoint} {f : Bool → Service α} (h : ∀ b, Looks code (f b)) :
    Looks code (hasPassed expiresAt >>= f) := by
  cases expiresAt with
  | none => exact h false
  | some e => exact .quiet trivial nofun fun x => h _

theorem looks_emitAnalytics (result : ResolveResult) : Looks code (emitAnalytics code result) :=
  .quiet trivial nofun fun _ => .quiet trivial nofun fun _ => .ret _

theorem fills_emitAnalytics (found : Option LinkRecord) (result : ResolveResult) :
    (emitAnalytics code result).Every (Fills code found) :=
  ⟨trivial, fun _ => ⟨trivial, fun _ => trivial⟩⟩

theorem fills_hasPassed {found : Option LinkRecord} {expiresAt : Option TimePoint} {f : Bool → Service α}
    (h : ∀ b, (f b).Every (Fills code found)) : (hasPassed expiresAt >>= f).Every (Fills code found) := by
  cases expiresAt with
  | none => exact h false
  | some e => exact ⟨trivial, fun x => h _⟩

theorem fills_timeToLive {found : Option LinkRecord} {expiresAt : Option TimePoint}
    {f : Option Int64 → Service α}
    (h : ∀ ttl, (expiresAt = none → ttl = none) → (f ttl).Every (Fills code found)) :
    (timeToLive expiresAt >>= f).Every (Fills code found) := by
  cases expiresAt with
  | none => exact h none fun _ => rfl
  | some e => exact ⟨trivial, fun x => h _ nofun⟩

theorem fills_answerRecord (code : Str) (found : Option LinkRecord) :
    (answerRecord code found).Every (Fills code found) := by
  cases found with
  | none => exact fills_emitAnalytics _ _
  | some r =>
    simp only [answerRecord]
    split
    · exact fills_emitAnalytics _ _
    · rename_i hactive
      refine fills_hasPassed fun expired => ?_
      split
      · exact fills_emitAnalytics _ _
      · refine fills_timeToLive fun ttl httl => ⟨?_, fun _ => fills_emitAnalytics _ _⟩
        exact ⟨rfl, r, rfl, mirrors_cacheValue r, by simpa using hactive, httl⟩

theorem looks_resolveFromRepository (code : Str) : Looks code (resolveFromRepository code) :=
  .read fun found => fills_answerRecord code found

/-- A `Get` is a hit, or the repository decides. -/
theorem answerGet_cases {P : Service ResolveResult → Prop} (got : Option CacheValue × CacheError)
    (hit : ∀ v, got = (some v, .none) → P (answerCached code v)) (miss : P (resolveFromRepository code)) :
    P (answerGet code got) := by
  unfold answerGet
  split
  · exact hit _ rfl
  · exact miss

theorem looks_resolve (code : Str) : Looks code (resolve code) := by
  rw [resolve_eq]
  refine .quiet trivial nofun fun got => ?_
  refine answerGet_cases got (fun v _ => ?_) (looks_resolveFromRepository code)
  refine looks_hasPassed fun expired => ?_
  split
  · exact looks_emitAnalytics _
  -- an outdated entry is deleted before the repository is asked
  · exact .quiet trivial nofun fun _ => looks_resolveFromRepository code

/-- What is left of a `Resolve` will fill the cache with what the repository holds now, or later. -/
def Fresh (code : Str) (p : Service α) (s : Ports Cache) : Prop :=
  Looks code p ∨ p.Every (Fills code (s.repo.getByShortCode code))

/-- **One call of a `Resolve`** leaves the repository as it is. -/
theorem Fresh.step {c : PortCall} {k : c.Answer → Service α} (hp : Fresh code (.call c k) s) :
    Fresh code (k (handle store weather c s).1) (handle store weather c s).2 ∧
      (handle store weather c s).2.repo = s.repo := by
  rcases hp with hp | ⟨hc, hp⟩
  · cases hp with
    | quiet hc _ hk => exact ⟨.inl (hk _), handle_repo hc⟩
    | read hk => exact ⟨.inr (hk _), rfl⟩
  · rcases hc.cases with rfl | ⟨e, rfl⟩ | ⟨r, v, ttl, rfl, -⟩
    · exact ⟨.inr (hp _), rfl⟩
    · exact ⟨.inr (hp _), rfl⟩
    · exact ⟨.inr (hp _), rfl⟩

/-- It keeps every key served. -/
theorem Fresh.served (hl : store.ServesOn okKey okRecord entry) (hcode : okKey code) (hkey : okKey key)
    (hrepo : InUse okRecord s.repo) {c : PortCall} {k : c.Answer → Service α} (hp : Fresh code (.call c k) s)
    (h : Served entry s key) : Served entry (handle store weather c s).2 key := by
  rcases hp with hp | ⟨hc, -⟩
  · cases hp with
    | quiet hc _ _ => exact h.quiet hl hc
    | read _ => exact h.quiet hl trivial
  · rcases hc.cases with rfl | ⟨e, rfl⟩ | ⟨r, v, ttl, rfl, hr, hv, -⟩
    · exact h.quiet hl trivial
    · exact h.quiet hl trivial
    -- the copy that is stored was read from the repository as it still is
    · exact h.fill hl hcode hkey hr (hrepo code r hr) hv ttl

/-- **A whole `Resolve`** leaves the repository as it is, over any cache. -/
theorem resolve_repo (code : Str) (s : Ports Cache) :
    ((resolve code).run (handle store weather) s).2.repo = s.repo := by
  refine (Prog.run_invariant (I := fun p s' => Fresh code p s' ∧ s'.repo = s.repo) ?_
    ⟨.inl (looks_resolve code), rfl⟩).2
  rintro c k s' ⟨hp, hr⟩
  exact ⟨hp.step.1, hp.step.2.trans hr⟩

/-- **It keeps every key served.** -/
theorem resolve_served (hl : store.ServesOn okKey okRecord entry) (hcode : okKey code) (hkey : okKey key)
    (hrepo : InUse okRecord s.repo) (h : Served entry s key) :
    Served entry ((resolve code).run (handle store weather) s).2 key := by
  refine (Prog.run_invariant (I := fun p s' => (Fresh code p s' ∧ s'.repo = s.repo) ∧ Served entry s' key) ?_
    ⟨⟨.inl (looks_resolve code), rfl⟩, h⟩).2
  rintro c k s' ⟨⟨hp, hr⟩, hs⟩
  have hrepo' : InUse okRecord s'.repo := by rw [hr]; exact hrepo
  exact ⟨⟨hp.step.1, hp.step.2.trans hr⟩, hp.served hl hcode hkey hrepo' hs⟩

/-! ## Operations and runs -/

theorem getByShortCode_updateLink_other {repo : InMemoryMetadataRepository} {record : LinkRecord}
    (h : key ≠ record.shortCode) :
    (committed repo (repo.updateLink record)).2.getByShortCode key = repo.getByShortCode key := by
  unfold InMemoryMetadataRepository.updateLink
  split
  · exact Finmap.lookup_insert_of_ne _ h
  · rfl

theorem getByShortCode_deleteLink_other {repo : InMemoryMetadataRepository} (h : key ≠ code) :
    (repo.deleteLink code).getByShortCode key = repo.getByShortCode key :=
  Finmap.lookup_erase_ne h

/-- A record is created only where there is none. -/
theorem getByShortCode_createLink {repo : InMemoryMetadataRepository} {request : CreateLinkRequest} {id : Str}
    {now : TimePoint} {r : LinkRecord} (h : repo.getByShortCode key = some r) :
    (committed repo (repo.createLink request id now)).2.getByShortCode key = some r := by
  unfold InMemoryMetadataRepository.createLink
  split
  · exact h
  · split
    · exact h
    · rename_i hnew
      have hk : key ≠ request.shortCode := by
        rintro rfl
        exact hnew (by rw [show repo.byCode.lookup _ = some r from h]; rfl)
      exact (Finmap.lookup_insert_of_ne _ hk).trans h

/-- The record that `CreateLink` stores. -/
def CreateLinkRequest.record (request : CreateLinkRequest) (id : Str) (now : TimePoint) : LinkRecord :=
  { id, shortCode := request.shortCode, targetUrl := request.targetUrl, createdAt := now, updatedAt := now,
    expiresAt := request.expiresAt, owner := request.owner, attributes := request.attributes,
    isActive := request.isActive }

/-- **The records an operation leaves behind** were there before, are those of an `Update`, or are new. -/
theorem step_record {op : ServiceOp} {record : LinkRecord}
    (h : (op.step store weather s).repo.getByShortCode code = some record) :
    s.repo.getByShortCode code = some record ∨ op = .update record ∨
      ∃ request id now, op = .createLink request id now ∧ record = request.record id now := by
  cases op with
  | resolve c =>
    left
    rwa [← resolve_repo c s]
  | update r =>
    replace h : (committed s.repo (s.repo.updateLink r)).2.getByShortCode code = some record := h
    by_cases hcode : code = r.shortCode
    · subst hcode
      unfold InMemoryMetadataRepository.updateLink at h
      split at h
      · cases (Finmap.lookup_insert _).symm.trans h
        exact .inr (.inl rfl)
      · exact .inl h
    · rw [getByShortCode_updateLink_other hcode] at h
      exact .inl h
  | delete c =>
    replace h : (s.repo.deleteLink c).getByShortCode code = some record := h
    by_cases hcode : code = c
    · subst hcode
      cases (Finmap.lookup_erase _ _).symm.trans h
    · rw [getByShortCode_deleteLink_other hcode] at h
      exact .inl h
  | createLink request id now =>
    replace h : (committed s.repo (s.repo.createLink request id now)).2.getByShortCode code = some record := h
    unfold InMemoryMetadataRepository.createLink at h
    split at h
    · exact .inl h
    split at h
    · exact .inl h
    by_cases hcode : code = request.shortCode
    · subst hcode
      cases (Finmap.lookup_insert _).symm.trans h
      exact .inr (.inr ⟨request, id, now, rfl, rfl⟩)
    · exact .inl ((Finmap.lookup_insert_of_ne _ hcode).symm.trans h)

/-- The operation keeps to the keys and records in use. -/
def ServiceOp.InUse (okKey : Str → Prop) (okRecord : LinkRecord → Prop) : ServiceOp → Prop
  | .resolve code => okKey code
  | .update record => okRecord record
  | .delete _ => True
  | .createLink request id now => okRecord (request.record id now)

theorem step_inUse {op : ServiceOp} (hop : op.InUse okKey okRecord) (hs : InUse okRecord s.repo) :
    InUse okRecord (op.step store weather s).repo := by
  intro code r h
  rcases step_record h with h | rfl | ⟨request, id, now, rfl, rfl⟩
  · exact hs code r h
  · exact hop
  · exact hop

/-- An invalidation after a repository write leaves nothing under the written key, and the others are not
touched. -/
theorem served_write (hl : store.ServesOn okKey okRecord entry) (h : Served entry s key) {c : PortCall}
    (hcache : (handle store weather c s).2.cache = s.cache)
    (hrepo : key ≠ code → (handle store weather c s).2.repo.getByShortCode key = s.repo.getByShortCode key) :
    Served entry (handle store weather (.cacheDelete code) (handle store weather c s).2).2 key := by
  by_cases hk : key = code
  · subst hk
    exact served_cacheDelete hl
  · refine Served.quiet ?_ hl trivial
    exact h.congr (hrepo hk) (by rw [hcache])

/-- **Every operation keeps every key served.** -/
theorem step_served (hl : store.ServesOn okKey okRecord entry) {op : ServiceOp} (hop : op.InUse okKey okRecord)
    (hkey : okKey key) (hs : InUse okRecord s.repo) (h : Served entry s key) :
    Served entry (op.step store weather s) key := by
  cases op with
  | resolve code => exact resolve_served hl hop hkey hs h
  | update record => exact served_write hl h (c := .updateLink record) rfl getByShortCode_updateLink_other
  | delete code => exact served_write hl h (c := .deleteLink code) rfl getByShortCode_deleteLink_other
  | createLink request id now =>
    -- no entry is touched: a cached code has a record, so it is not the one created
    intro v hv
    obtain ⟨r, hr, hm⟩ := h v hv
    exact ⟨r, getByShortCode_createLink hr, hm⟩

theorem portsAfter_served (hl : store.ServesOn okKey okRecord entry) {ops : List ServiceOp}
    (hops : ∀ op ∈ ops, op.InUse okKey okRecord) (hkey : okKey key) (hs : InUse okRecord s.repo)
    (h : Served entry s key) : Served entry (portsAfter store weather s ops) key := by
  refine (Runs.after_invariant_mem (P := fun s => InUse okRecord s.repo ∧ Served entry s key) ?_ ⟨hs, h⟩).2
  rintro op hop s' ⟨hs', h'⟩
  exact ⟨step_inUse (hops op hop) hs', step_served hl (hops op hop) hkey hs' h'⟩

/-- Over a lawful store all operations, keys and records are in use. -/
theorem ICacheStore.Lawful.portsAfter_served (hl : store.Lawful entry) (h : Served entry s key)
    (ops : List ServiceOp) : Served entry (portsAfter store weather s ops) key :=
  Storage.portsAfter_served hl (fun op _ => by cases op <;> trivial) trivial (fun _ _ _ => trivial) h

/-! ## What `Resolve` answers -/

/-- Status and target. -/
def ResolveResult.outcome (r : ResolveResult) : ResolveStatus × Option Str := (r.status, r.targetUrl)

/-- What a service with no cache answers at the instant `t`. -/
def resolveUncached (t : TimePoint) (repo : InMemoryMetadataRepository) (code : Str) : ResolveResult :=
  ((resolve code).run (handle noopCacheStore fun _ => { now := t }) { repo, cache := () }).1

/-- The program, run from `s`, has the outcome that `o` gives at the instant of one of its calls. -/
def AnswersAt (store : ICacheStore Cache) (weather : ℕ → Moment) (s : Ports Cache) (p : Service ResolveResult)
    (o : TimePoint → ResolveStatus × Option Str) : Prop :=
  ∃ i, s.calls ≤ i ∧ i < (p.run (handle store weather) s).2.calls ∧
    (p.run (handle store weather) s).1.outcome = o (weather i).now

/-- The calls before may be counted in. -/
theorem AnswersAt.call {c : PortCall} {k : c.Answer → Service ResolveResult}
    {o : TimePoint → ResolveStatus × Option Str}
    (h : AnswersAt store weather (handle store weather c s).2 (k (handle store weather c s).1) o) :
    AnswersAt store weather s (.call c k) o := by
  obtain ⟨i, hi, hi', ho⟩ := h
  rw [handle_calls] at hi
  exact ⟨i, by omega, hi', ho⟩

/-- An outcome that was settled at the first call of the rest of the program. -/
theorem AnswersAt.of_first {p : Service ResolveResult} {o : TimePoint → ResolveStatus × Option Str}
    (h : AnswersAt store weather s p fun _ => o (weather s.calls).now) : AnswersAt store weather s p o := by
  obtain ⟨i, hi, hi', ho⟩ := h
  exact ⟨s.calls, le_rfl, by omega, ho⟩

theorem answersAt_emitAnalytics {result : ResolveResult} {o : TimePoint → ResolveStatus × Option Str}
    (h : result.outcome = o (weather s.calls).now) : AnswersAt store weather s (emitAnalytics code result) o :=
  ⟨s.calls, le_rfl, by simp only [emitAnalytics_eq, Prog.run_call, Prog.run_ret, handle_calls]; omega, h⟩

/-- The outcome is settled by the reading that decides whether the expiry has passed, or later. -/
theorem answersAt_hasPassed {expiresAt : Option TimePoint} {f : Bool → Service ResolveResult}
    {o : TimePoint → ResolveStatus × Option Str}
    (h : ∀ t, ∀ s' : Ports Cache, s'.repo = s.repo →
      AnswersAt store weather s' (f (expiresAt.any (· ≤ t))) (fun _ => o t) ∨
        AnswersAt store weather s' (f (expiresAt.any (· ≤ t))) o) :
    AnswersAt store weather s (hasPassed expiresAt >>= f) o := by
  cases expiresAt with
  | none =>
    rcases h (weather s.calls).now s rfl with h | h
    · exact h.of_first
    · exact h
  | some e =>
    rcases h (weather s.calls).now (handle store weather .now s).2 rfl with h | h
    · exact AnswersAt.of_first h.call
    · exact h.call

/-- Once the repository has answered, the verdict on its answer is returned. -/
theorem answersAt_answerRecord (found : Option LinkRecord) :
    AnswersAt store weather s (answerRecord code found) fun t => verdict t found := by
  cases found with
  | none => exact answersAt_emitAnalytics rfl
  | some r =>
    simp only [answerRecord]
    split
    · rename_i ha
      exact answersAt_emitAnalytics (by simp only [verdict, if_pos ha]; rfl)
    · rename_i ha
      refine answersAt_hasPassed fun t s' _ => .inl ?_
      simp only [verdict, if_neg ha]
      split
      · exact answersAt_emitAnalytics rfl
      · cases r.expiresAt with
        | none => exact AnswersAt.call (answersAt_emitAnalytics rfl)
        | some e => exact AnswersAt.call (AnswersAt.call (answersAt_emitAnalytics rfl))

theorem answersAt_resolveFromRepository (code : Str) :
    AnswersAt store weather s (resolveFromRepository code) fun t => verdict t (s.repo.getByShortCode code) :=
  AnswersAt.call (answersAt_answerRecord _)

/-- **At a served key** `Resolve` returns the verdict on the stored record. -/
theorem answersAt_resolve (hl : store.ServesOn okKey okRecord entry) (h : Served entry s code) :
    AnswersAt store weather s (resolve code) fun t => verdict t (s.repo.getByShortCode code) := by
  have hrepo : (handle store weather (.cacheGet code) s).2.repo = s.repo := rfl
  rw [resolve_eq]
  refine AnswersAt.call (answerGet_cases (P := fun p => AnswersAt store weather _ p _) _ (fun v hget => ?_)
    (answersAt_resolveFromRepository code))
  obtain ⟨r, hr, hserves⟩ := h v (hl.get_hit _ _ _ v hget)
  refine answersAt_hasPassed fun t s' hs' => ?_
  split
  · rename_i hv
    left
    rw [hr, hserves t hv]
    exact answersAt_emitAnalytics rfl
  -- a value that no longer counts is dropped, and the repository decides
  · right
    refine AnswersAt.call ?_
    rw [← hrepo, ← hs']
    exact answersAt_resolveFromRepository code

/-- Without a cache the verdict on the stored record is all there is. -/
theorem resolveUncached_outcome (t : TimePoint) (repo : InMemoryMetadataRepository) (code : Str) :
    (resolveUncached t repo code).outcome = verdict t (repo.getByShortCode code) := by
  have h : AnswersAt noopCacheStore (fun _ => { now := t }) { repo, cache := () } (resolve code)
      fun t => verdict t (repo.getByShortCode code) :=
    answersAt_resolve noopCacheStore_lawful (coherentAt_of_miss rfl)
  obtain ⟨i, -, -, ho⟩ := h
  exact ho

/-! ## The cached service simulates the uncached one -/

theorem step_repo (store : ICacheStore Cache) (weather weather' : ℕ → Moment) (op : ServiceOp) {u : Ports Unit}
    (h : s.repo = u.repo) :
    (op.step store weather s).repo = (op.step noopCacheStore weather' u).repo := by
  cases op with
  | resolve code => exact ((resolve_repo code s).trans h).trans (resolve_repo code u).symm
  | update record => exact congrArg (fun repo => (committed repo (repo.updateLink record)).2) h
  | delete code => exact congrArg (fun repo => repo.deleteLink code) h
  | createLink request id now =>
    exact congrArg (fun repo => (committed repo (repo.createLink request id now)).2) h

/-- The writes of a run do not depend on the cache. -/
theorem portsAfter_repo (store : ICacheStore Cache) (weather weather' : ℕ → Moment) (ops : List ServiceOp)
    {u : Ports Unit} (h : s.repo = u.repo) :
    (portsAfter store weather s ops).repo = (portsAfter noopCacheStore weather' u ops).repo := by
  induction ops generalizing s u with
  | nil => exact h
  | cons op ops ih => exact ih (step_repo store weather weather' op h)

/-- A run and a `Resolve` that follows: the answer is the one of the service with no cache. -/
theorem ICacheStore.ServesOn.answersAt (hl : store.ServesOn okKey okRecord entry) {repo : InMemoryMetadataRepository}
    (hrepo : InUse okRecord repo) {cache : Cache} (hempty : ∀ key, entry cache key = none) {ops : List ServiceOp}
    (hops : ∀ op ∈ ops, op.InUse okKey okRecord) (hcode : okKey code) (weather' : ℕ → Moment) :
    AnswersAt store weather (portsAfter store weather { repo, cache } ops) (resolve code) fun t =>
      (resolveUncached t (portsAfter noopCacheStore weather' { repo, cache := () } ops).repo code).outcome := by
  have hstart : Served entry { repo, cache } code := coherentAt_of_miss (hempty code)
  have hsame : (portsAfter store weather { repo, cache } ops).repo =
      (portsAfter noopCacheStore weather' { repo, cache := () } ops).repo :=
    portsAfter_repo store weather weather' ops rfl
  simp only [resolveUncached_outcome, ← hsame]
  exact answersAt_resolve hl (portsAfter_served hl hops hcode hrepo hstart)

/-- **Cache transparency.** Take any run over the in-memory stores, with any clock, any failing `Get` and
`Set` calls and any vanishing cache entries, and the run of the same operations with no cache. A `Resolve`
that follows has the status and the target that the service with no cache gives at an instant within that
`Resolve`. -/
theorem resolve_transparent (weather weather' : ℕ → Moment) (repo : InMemoryMetadataRepository)
    (ops : List ServiceOp) (code : Str) :
    AnswersAt inMemoryCacheStore.unreliable weather
      (portsAfter inMemoryCacheStore.unreliable weather { repo, cache := ∅ } ops) (resolve code) fun t =>
        (resolveUncached t (portsAfter noopCacheStore weather' { repo, cache := () } ops).repo
          code).outcome := by
  have hl := inMemoryCacheStore_lawful.unreliable
  refine hl.answersAt (fun _ _ _ => trivial) (fun key => ?_) (fun op _ => ?_) trivial weather'
  · simp [InMemoryCacheStore.held]
  · cases op <;> trivial

end UrlShortener.Storage

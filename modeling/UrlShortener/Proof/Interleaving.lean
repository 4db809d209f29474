import UrlShortener.Proof.Transparency

/-!
# A `Resolve` and a write on shared stores

Two server processes share repository and cache. One runs `Resolve`, the other `Update` or `Delete` of
the same code, and their port calls interleave in any order.

The write deletes the cache entry after it has changed the repository, so an entry that was there before
does no harm. What can go wrong is the *stale fill*: the `Resolve` reads the record before the write and
stores its copy after the deletion.

* `Sound.step`: what one call of either process preserves.
* `interleaving_served`: without a stale fill the code is served once both have returned.
* `later_resolve_current`: so every later `Resolve` answers what the repository holds.
-/

namespace UrlShortener.Storage

open Calls Caching LinkService
open scoped List

/-- The two processes. -/
inductive Party
  | reader
  | writer
  deriving DecidableEq

/-- What each returns. -/
def Party.Result : Party → Type
  | .reader => ResolveResult
  | .writer => Except RepoError Unit

/-- The two writes of the service. -/
inductive Write
  | update (record : LinkRecord)
  | delete (shortCode : Str)

namespace Write

/-- The code it writes to. -/
def code : Write → Str
  | update record => record.shortCode
  | delete shortCode => shortCode

/-- The call of the service. -/
def prog : Write → Service (Except RepoError Unit)
  | update record => LinkService.update record
  | delete shortCode => LinkService.delete shortCode

/-- Its call to the repository. -/
def call : Write → PortCall
  | update record => .updateLink record
  | delete shortCode => .deleteLink shortCode

end Write

/-- The two at work on shared stores. -/
abbrev Processes (Cache : Type) := Pool PortCall PortCall.Answer Party.Result (Ports Cache)

/-- Both processes at their start. -/
def processes {Cache : Type} (code : Str) (w : Write) (s : Ports Cache) : Processes Cache where
  prog
    | .reader => resolve code
    | .writer => w.prog
  state := s

variable {Cache : Type} {store : ICacheStore Cache} {entry : Cache → Str → Option CacheValue}
  {weather : ℕ → Moment} {w : Write}

/-- The read of the record. -/
def readCall (w : Write) : Party × PortCall := (.reader, .getByShortCode w.code)

/-- The two calls of the write, in their order. -/
def writeCalls (w : Write) : List (Party × PortCall) := [(.writer, w.call), (.writer, .cacheDelete w.code)]

/-- The record is read before the repository is written, and its copy is stored after the entry has been
deleted. -/
def StaleFill (w : Write) (trace : List (Party × PortCall)) : Prop :=
  ∃ value ttl, readCall w :: writeCalls w ++ [(.reader, .cacheSet w.code value ttl)] <+ trace

/-- How far the write has come: the calls it has made, and its program after them. -/
inductive Progress (w : Write) : List (Party × PortCall) → Service (Except RepoError Unit) → Prop
  | start : Progress w [] w.prog
  | written (r : Except RepoError Unit) :
    Progress w [(.writer, w.call)] (.call (.cacheDelete w.code) fun _ => .ret r)
  | returned (r : Except RepoError Unit) : Progress w (writeCalls w) (.ret r)

theorem Progress.step {done : List (Party × PortCall)} {c : PortCall}
    {k : c.Answer → Service (Except RepoError Unit)} (h : Progress w done (.call c k)) (x : c.Answer) :
    Progress w (done ++ [(.writer, c)]) (k x) ∧ (done = [] ∨ c = .cacheDelete w.code) := by
  generalize hp : Prog.call c k = p at h
  cases h with
  | start =>
    cases w with
    | update record => cases hp; exact ⟨.written _, .inl rfl⟩
    | delete code => cases hp; exact ⟨.written _, .inl rfl⟩
  | written r => cases hp; exact ⟨.returned r, .inr rfl⟩
  | returned r => cases hp

theorem Progress.done_of_ret {done : List (Party × PortCall)} {r : Except RepoError Unit}
    (h : Progress w done (.ret r)) : done = writeCalls w := by
  generalize hp : Prog.ret r = p at h
  cases h with
  | start => cases w <;> cases hp
  | written r => cases hp
  | returned r => rfl

/-- What the `Resolve` has in hand: nothing yet, or a record it has read. That record is the current one,
or it was read before the write. -/
def InHand (w : Write) (done t : List (Party × PortCall)) (p : Service ResolveResult) (s : Ports Cache) :
    Prop :=
  Looks w.code p ∨ ∃ found, p.Every (Fills w.code found) ∧
    (found = s.repo.getByShortCode w.code ∧ [readCall w] <+ t ∨ done ≠ [] ∧ readCall w :: done <+ t)

theorem InHand.mono {done t : List (Party × PortCall)} {p : Service ResolveResult} {s s' : Ports Cache}
    (h : InHand w done t p s) (hr : s'.repo = s.repo) (x : Party × PortCall) :
    InHand w done (t ++ [x]) p s' := by
  unfold InHand
  rw [hr]
  rcases h with h | ⟨found, hp, ⟨hf, ht⟩ | ⟨hd, ht⟩⟩
  · exact .inl h
  · exact .inr ⟨found, hp, .inl ⟨hf, ht.trans (List.sublist_append_left _ _)⟩⟩
  · exact .inr ⟨found, hp, .inr ⟨hd, ht.trans (List.sublist_append_left _ _)⟩⟩

/-- When the write takes its next call, a record in hand was read before that call. -/
theorem InHand.write {done t : List (Party × PortCall)} {p : Service ResolveResult} {s : Ports Cache}
    {c : PortCall} (h : InHand w done t p s) (hc : done = [] ∨ c = .cacheDelete w.code) :
    InHand w (done ++ [(.writer, c)]) (t ++ [(.writer, c)]) p (handle store weather c s).2 := by
  rcases h with h | ⟨found, hp, ⟨hf, ht⟩ | ⟨hd, ht⟩⟩
  · exact .inl h
  · rcases hc with rfl | rfl
    · exact .inr ⟨found, hp, .inr ⟨by simp, ht.append (List.Sublist.refl _)⟩⟩
    -- the deletion from the cache leaves the repository, and so the current record, as it is
    · exact .inr ⟨found, hp, .inl ⟨hf, ht.trans (List.sublist_append_left _ _)⟩⟩
  · exact .inr ⟨found, hp, .inr ⟨by simp, ht.append (List.Sublist.refl _)⟩⟩

/-- **One call of the `Resolve`.** Without a stale fill, a code that is served after the deletion stays
so. -/
theorem InHand.read (hl : store.Lawful entry) {done t : List (Party × PortCall)} {s : Ports Cache}
    {c : PortCall} {k : c.Answer → Service ResolveResult} (h : InHand w done t (.call c k) s)
    (hstale : ¬ StaleFill w (t ++ [(.reader, c)])) :
    InHand w done (t ++ [(.reader, c)]) (k (handle store weather c s).1) (handle store weather c s).2 ∧
      (done = writeCalls w → Served entry s w.code →
        Served entry (handle store weather c s).2 w.code) := by
  rcases h with h | ⟨found, ⟨hc, hk⟩, hf⟩
  · cases h with
    | quiet hc _ hk =>
      have hin : InHand w done t (k (handle store weather c s).1) s := .inl (hk _)
      exact ⟨hin.mono (handle_repo hc) _, fun _ h => h.quiet hl hc⟩
    | read hk =>
      exact ⟨.inr ⟨_, hk _, .inl ⟨rfl, List.sublist_append_right _ _⟩⟩, fun _ h => h.quiet hl trivial⟩
  · have hin : InHand w done t (k (handle store weather c s).1) s := .inr ⟨found, hk _, hf⟩
    rcases hc.cases with rfl | ⟨e, rfl⟩ | ⟨r, v, ttl, rfl, rfl, hv, -⟩
    · exact ⟨hin.mono rfl _, fun _ h => h.quiet hl trivial⟩
    · exact ⟨hin.mono rfl _, fun _ h => h.quiet hl trivial⟩
    · refine ⟨hin.mono rfl _, fun hd h => ?_⟩
      rcases hf with ⟨hf, -⟩ | ⟨-, ht⟩
      · exact h.fill hl trivial trivial hf.symm trivial hv ttl
      · -- read before the write and stored after the deletion
        subst hd
        exact absurd ⟨v, ttl, ht.append (List.Sublist.refl _)⟩ hstale

/-- What holds while no stale fill has happened. -/
def Sound (entry : Cache → Str → Option CacheValue) (w : Write) (P : Processes Cache)
    (t : List (Party × PortCall)) : Prop :=
  ∃ done, Progress w done (P.prog .writer) ∧ InHand w done t (P.prog .reader) P.state ∧
    (done = writeCalls w → Served entry P.state w.code)

theorem StaleFill.append {t : List (Party × PortCall)} (h : StaleFill w t) (t' : List (Party × PortCall)) :
    StaleFill w (t ++ t') := by
  obtain ⟨value, ttl, h⟩ := h
  exact ⟨value, ttl, h.trans (List.sublist_append_left _ _)⟩

/-- **One call of either process.** -/
theorem Sound.step (hl : store.Lawful entry) {P : Processes Cache} {t : List (Party × PortCall)} {i : Party}
    {c : PortCall} {k : c.Answer → Service i.Result} (hi : P.prog i = .call c k)
    (hstale : ¬ StaleFill w (t ++ [(i, c)])) (h : Sound entry w P t) :
    Sound entry w (P.advance (handle store weather) i) (t ++ [(i, c)]) := by
  obtain ⟨done, hw, hr, hc⟩ := h
  unfold Sound
  rw [Pool.advance_state hi]
  cases i with
  | reader =>
    rw [hi] at hr
    obtain ⟨hr', hc'⟩ := hr.read hl hstale
    rw [Pool.advance_prog_self hi, Pool.advance_prog_other hi (by decide)]
    exact ⟨done, hw, hr', fun hd => hc' hd (hc hd)⟩
  | writer =>
    rw [hi] at hw
    obtain ⟨hw', hcall⟩ := hw.step (handle store weather c P.state).1
    rw [Pool.advance_prog_self hi, Pool.advance_prog_other hi (by decide)]
    refine ⟨_, hw', hr.write hcall, fun hd => ?_⟩
    -- the call that completes the write is the deletion
    have hdelete : c = .cacheDelete w.code := by
      rcases hcall with rfl | hcall
      · simp [writeCalls] at hd
      · exact hcall
    subst hdelete
    exact served_cacheDelete hl

/-- **Without a stale fill** the code is served once both processes have returned. -/
theorem interleaving_served (hl : store.Lawful entry) (s : Ports Cache) (schedule : List Party)
    (hreturned : ((processes w.code w s).interleave (handle store weather) schedule).Returned)
    (hstale : ¬ StaleFill w ((processes w.code w s).trace (handle store weather) schedule)) :
    Served entry ((processes w.code w s).interleave (handle store weather) schedule).state w.code := by
  have hstart : Sound entry w (processes w.code w s) [] :=
    ⟨[], .start, .inl (looks_resolve w.code), fun hd => by simp [writeCalls] at hd⟩
  have hend := Pool.interleave_invariant (I := fun P t => ¬ StaleFill w t → Sound entry w P t)
    (fun P t i c k hi ih hstale => (ih fun h => hstale (h.append _)).step hl hi hstale)
    (fun _ => hstart) schedule hstale
  obtain ⟨done, hw, -, hc⟩ := hend
  have hret := hreturned .writer
  unfold Pool.next at hret
  split at hret
  · rename_i r hr
    rw [hr] at hw
    exact hc hw.done_of_ret
  · cases hret

/-- **Once both have returned, later look-ups are current**, unless a stale fill happened: after any later
operations, a `Resolve` of the code gives what a service with no cache gives on the same repository. -/
theorem later_resolve_current (weather : ℕ → Moment) (w : Write) (s : Ports InMemoryCacheStore)
    (schedule : List Party) (ops : List ServiceOp)
    (hreturned : ((processes w.code w s).interleave (handle inMemoryCacheStore.unreliable weather)
      schedule).Returned)
    (hstale : ¬ StaleFill w ((processes w.code w s).trace (handle inMemoryCacheStore.unreliable weather)
      schedule)) :
    let later := portsAfter inMemoryCacheStore.unreliable weather
      ((processes w.code w s).interleave (handle inMemoryCacheStore.unreliable weather) schedule).state ops
    AnswersAt inMemoryCacheStore.unreliable weather later (resolve w.code) fun t =>
      (resolveUncached t later.repo w.code).outcome := by
  intro later
  have hl : inMemoryCacheStore.unreliable.Lawful InMemoryCacheStore.held := inMemoryCacheStore_lawful.unreliable
  have hserved : Served InMemoryCacheStore.held later w.code :=
    hl.portsAfter_served (interleaving_served hl s schedule hreturned hstale) ops
  simp only [resolveUncached_outcome]
  exact answersAt_resolve hl hserved

/-- The record of a sample code with the given target. -/
def sampleRecord (targetUrl : String) : LinkRecord where
  id := "1"
  shortCode := "abc"
  targetUrl := targetUrl.toList

/-- A repository with the sample record, and an empty cache. -/
def samplePorts : Ports InMemoryCacheStore where
  repo := { byCode := Finmap.singleton "abc" (sampleRecord "https://old") }
  cache := ∅

/-- An `Update` to another target. -/
def sampleUpdate : Write := .update (sampleRecord "https://new")

/-- A `Resolve` and that `Update` after the given turns, with working stores and a still clock. -/
def sampleAfter (schedule : List Party) : Processes InMemoryCacheStore :=
  (processes sampleUpdate.code sampleUpdate samplePorts).interleave
    (handle inMemoryCacheStore.unreliable fun _ => {}) schedule

/-- The `Resolve` misses the cache, the repository is written, the `Resolve` reads the new record, the entry is
deleted, and then the copy is stored. -/
theorem later_resolve_current_sample :
    AnswersAt inMemoryCacheStore.unreliable (fun _ => {})
      (sampleAfter [.reader, .writer, .reader, .writer, .reader, .reader, .reader]).state
      (resolve sampleUpdate.code) fun _ => (.redirect, some "https://new") := by
  refine later_resolve_current (fun _ => {}) sampleUpdate samplePorts
    [.reader, .writer, .reader, .writer, .reader, .reader, .reader] [] (by rintro (_ | _) <;> rfl) ?_
  rintro ⟨v, ttl, h⟩
  -- the record is not read before it is written
  have hread := (List.sublist_append_left _ _).trans h
  revert hread
  decide

/-- The record is read, the `Update` runs, and then the old copy is stored: both processes have returned,
and the next `Resolve` redirects to the replaced target. -/
theorem update_undone_by_fill :
    let P := sampleAfter [.reader, .reader, .writer, .writer, .reader, .reader, .reader]
    P.Returned ∧ ¬ AnswersAt inMemoryCacheStore.unreliable (fun _ => {}) P.state (resolve sampleUpdate.code)
      fun t => (resolveUncached t P.state.repo sampleUpdate.code).outcome := by
  refine ⟨by rintro (_ | _) <;> rfl, ?_⟩
  rintro ⟨i, -, -, h⟩
  dsimp only at h
  revert h
  decide

end UrlShortener.Storage

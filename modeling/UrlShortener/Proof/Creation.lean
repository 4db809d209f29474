import UrlShortener.Spec.StoreCalls

/-!
# Concurrent `CreateLink`

The check for a free slug may be stale when the link is written. What counts is the second check inside
the write.

* `createLink_run`: alone, the program is the command.
* `Stage.advance`: what one store call does, by how far its command has come.
* `creates_serialized`: **at most one command per slug succeeds**, its record stays, and a command that
  loses at the write reports a conflict and leaves the repository as it is.
-/

namespace UrlShortener

open Calls

variable {config : ServerConfig} {env : Env} {command : CreateLinkCommand} {st st' : LinkStore} {l l' : Link}

/-! ## The program alone -/

theorem slugExists_bind_run {α : Type} (slug : Str) (f : Bool → StoreProg α) (st : LinkStore) :
    (StoreProg.slugExists slug >>= f).run StoreCall.handle st =
      (f (LegacyLinkStore.slugExists slug st)).run StoreCall.handle st := rfl

@[simp] theorem create_run (l : Link) (st : LinkStore) :
    (StoreProg.create l).run StoreCall.handle st = (StoreCall.create l).handle st := rfl

theorem tryGenerated_run (slugs : List Str) (st : LinkStore) :
    (StoreProg.tryGenerated slugs).run StoreCall.handle st =
      (match slugs.find? fun slug => !LegacyLinkStore.slugExists slug st && !isReservedSlug slug with
        | some slug => .ok slug
        | none => .error ⟨.internal, "unable to generate a unique slug"⟩, st) := by
  induction slugs with
  | nil => rfl
  | cons slug slugs ih =>
    rw [StoreProg.tryGenerated, slugExists_bind_run, List.find?_cons]
    cases !LegacyLinkStore.slugExists slug st && !isReservedSlug slug with
    | true => rfl
    | false => exact ih

theorem chooseSlug_run (config : ServerConfig) (env : Env) (command : CreateLinkCommand) (st : LinkStore) :
    (StoreProg.chooseSlug config env command).run StoreCall.handle st =
      (chooseSlug config env command st, st) := by
  unfold StoreProg.chooseSlug chooseSlug
  cases command.slug with
  | none => exact tryGenerated_run _ st
  | some slug =>
    simp only
    split
    · rfl
    · split
      · rfl
      · rw [slugExists_bind_run]
        split <;> rfl

/-- **Alone, the program of store calls is the command.** -/
theorem createLink_run (config : ServerConfig) (env : Env) (command : CreateLinkCommand) (st : LinkStore) :
    (StoreProg.createLink config env command).run StoreCall.handle st =
      createLink config env command st := by
  unfold StoreProg.createLink createLink buildLink
  cases normalizeTargetUrl command.targetUrl config with
  | none => rfl
  | some url =>
    simp only [Prog.run_bind, chooseSlug_run]
    cases chooseSlug config env command st with
    | error e => rfl
    | ok slug =>
      simp only
      cases newLink config env command url slug with
      | error e => rfl
      | ok link =>
        simp only [StoreProg.storeLink, Prog.run_bind, create_run, StoreCall.handle]
        cases LegacyLinkStore.create link st with
        | error e => rfl
        | ok st' => rfl

/-! ## One store call -/

/-- **A write** takes a slug and an identifier that are both free, or it reports a conflict. -/
theorem create_cases (l : Link) (st : LinkStore) :
    (st.repository.slugToId.lookup l.slug = none ∧ st.repository.byId.lookup l.id = none ∧
      LegacyLinkStore.create l st = .ok { st with repository :=
        { slugToId := st.repository.slugToId.insert l.slug l.id, byId := st.repository.byId.insert l.id l } }) ∨
    LegacyLinkStore.create l st = .error ⟨.slugConflict, "slug already in use"⟩ := by
  unfold LegacyLinkStore.create InMemoryMetadataRepository.create
  by_cases htaken : (st.repository.slugToId.lookup l.slug).isSome ∨ (st.repository.byId.lookup l.id).isSome
  · exact .inr (by rw [if_pos htaken])
  · refine .inl ⟨?_, ?_, by rw [if_neg htaken]⟩
    · exact Option.not_isSome_iff_eq_none.1 fun h => htaken (.inl h)
    · exact Option.not_isSome_iff_eq_none.1 fun h => htaken (.inr h)

theorem create_ok (h : LegacyLinkStore.create l st = .ok st') :
    st.repository.getBySlug l.slug = none ∧ st'.repository.getBySlug l.slug = some l := by
  rcases create_cases l st with ⟨hslug, -, hok⟩ | herr
  · rw [h] at hok
    cases hok
    simp [InMemoryMetadataRepository.getBySlug, hslug]
  · rw [h] at herr
    cases herr

theorem create_error {e : AppError} (h : LegacyLinkStore.create l st = .error e) :
    e = ⟨.slugConflict, "slug already in use"⟩ := by
  rcases create_cases l st with ⟨-, -, hok⟩ | herr
  · rw [h] at hok
    cases hok
  · rw [h] at herr
    cases herr
    rfl

/-- **No store call overwrites a record.** -/
theorem handle_getBySlug (c : StoreCall) {slug : Str} (h : st.repository.getBySlug slug = some l) :
    (c.handle st).2.repository.getBySlug slug = some l := by
  cases c with
  | slugExists s => exact h
  | invalidateCache s => exact h
  | create link =>
    simp only [StoreCall.handle]
    rcases create_cases link st with ⟨hslug, hid, hok⟩ | herr
    · rw [hok]
      unfold InMemoryMetadataRepository.getBySlug at h ⊢
      cases hs : st.repository.slugToId.lookup slug with
      | none =>
        rw [hs] at h
        cases h
      | some id =>
        rw [hs] at h
        simp only at h
        have hne : slug ≠ link.slug := fun he => by rw [he, hslug] at hs; cases hs
        have hne' : id ≠ link.id := fun he => by rw [he, hid] at h; cases h
        simp only [Finmap.lookup_insert_of_ne _ hne, hs, Finmap.lookup_insert_of_ne _ hne', h]
    · rw [herr]
      exact h

/-! ## How far a command has come -/

/-- Before its write a command has checked slugs, or it has failed. -/
inductive Stage (config : ServerConfig) (env : Env) : StoreProg (Result LinkView) → Prop
  | failed (e : AppError) : Stage config env (.ret (.error e))
  | checking (slug : Str) (k : Bool → StoreProg (Result LinkView)) (hk : ∀ taken, Stage config env (k taken)) :
    Stage config env (.call (.slugExists slug) k)
  | writing (l : Link) : Stage config env (StoreProg.storeLink config env l)

/-- After it has written `l`, a command clears the cache and returns `l`. -/
inductive Written (config : ServerConfig) (env : Env) (l : Link) : StoreProg (Result LinkView) → Prop
  | clearing : Written config env l
    (.call (.invalidateCache l.slug) fun _ => .ret (.ok (toView config l (env.clock 2))))
  | returned : Written config env l (.ret (.ok (toView config l (env.clock 2))))

theorem Stage.of_slug {p : StoreProg (Result Str)} {k : Result Str → StoreProg (Result LinkView)}
    (hk : ∀ r, Stage config env (k r)) (hp : p.Every fun c => ∃ slug, c = .slugExists slug) :
    Stage config env (p >>= k) := by
  induction p with
  | ret r => exact hk r
  | call c f ih =>
    obtain ⟨⟨slug, rfl⟩, hf⟩ := hp
    exact .checking slug _ fun taken => ih taken (hf taken)

theorem tryGenerated_every (slugs : List Str) :
    (StoreProg.tryGenerated slugs).Every fun c => ∃ slug, c = .slugExists slug := by
  induction slugs with
  | nil => trivial
  | cons slug slugs ih =>
    refine ⟨⟨slug, rfl⟩, fun taken => ?_⟩
    change Prog.Every _ (if !taken && !isReservedSlug slug then pure (.ok slug)
      else StoreProg.tryGenerated slugs)
    split
    · trivial
    · exact ih

theorem chooseSlug_every (config : ServerConfig) (env : Env) (command : CreateLinkCommand) :
    (StoreProg.chooseSlug config env command).Every fun c => ∃ slug, c = .slugExists slug := by
  unfold StoreProg.chooseSlug
  split
  · rename_i slug _
    split
    · trivial
    · split
      · trivial
      · refine ⟨⟨slug, rfl⟩, fun taken => ?_⟩
        cases taken <;> trivial
  · exact tryGenerated_every _

theorem createLink_stage (config : ServerConfig) (env : Env) (command : CreateLinkCommand) :
    Stage config env (StoreProg.createLink config env command) := by
  unfold StoreProg.createLink
  split
  · exact .failed _
  · refine Stage.of_slug (fun r => ?_) (chooseSlug_every config env command)
    split
    · exact .failed _
    · split
      · exact .failed _
      · exact .writing _

/-! ## Several commands -/

section

variable {ι : Type} {party : ι → ServerConfig × Env × CreateLinkCommand}

/-- Concurrent calls of `createLink`. -/
abbrev Creators (ι : Type) := Pool StoreCall StoreCall.Answer (fun _ : ι => Result LinkView) LinkStore

/-- Every party is at the start of its own command. -/
def creators (party : ι → ServerConfig × Env × CreateLinkCommand) (st : LinkStore) : Creators ι where
  prog i := StoreProg.createLink (party i).1 (party i).2.1 (party i).2.2
  state := st

/-- `won i` is the link that party `i` has written, if it has: it is in the repository, and no two have
the same slug. -/
structure Serial (party : ι → ServerConfig × Env × CreateLinkCommand) (won : ι → Option Link) (P : Creators ι) :
    Prop where
  before : ∀ i, won i = none → Stage (party i).1 (party i).2.1 (P.prog i)
  written : ∀ i l, won i = some l → Written (party i).1 (party i).2.1 l (P.prog i)
  stored : ∀ i l, won i = some l → P.state.repository.getBySlug l.slug = some l
  unique : ∀ i j l l', won i = some l → won j = some l' → l.slug = l'.slug → i = j

theorem creators_serial (party : ι → ServerConfig × Env × CreateLinkCommand) (st : LinkStore) :
    Serial party (fun _ => none) (creators party st) where
  before i _ := createLink_stage _ _ _
  written i l h := by cases h
  stored i l h := by cases h
  unique i j l l' h := by cases h

variable {won : ι → Option Link} {P : Creators ι}

/-- A party that has returned a view has won, with the link of the view. -/
theorem Serial.of_ret (h : Serial party won P) {i : ι} {v : LinkView} (hi : P.prog i = .ret (.ok v)) :
    ∃ l, won i = some l ∧ v = toView (party i).1 l ((party i).2.1.clock 2) := by
  cases hwon : won i with
  | none =>
    have hs := h.before i hwon
    rw [hi] at hs
    cases hs
  | some l =>
    have hw := h.written i l hwon
    rw [hi] at hw
    cases hw
    exact ⟨l, rfl, rfl⟩

/-- A party that is about to write has not won yet. -/
theorem Serial.of_next (h : Serial party won P) {i : ι} (hi : P.next i = some (.create l)) :
    won i = none ∧ P.prog i = StoreProg.storeLink (party i).1 (party i).2.1 l := by
  unfold Pool.next at hi
  cases hwon : won i with
  | none =>
    have hs := h.before i hwon
    generalize P.prog i = p at hi hs
    refine ⟨rfl, ?_⟩
    cases hs with
    | failed e => cases hi
    | checking slug k hk => cases hi
    | writing l' => cases hi; rfl
  | some l' =>
    have hw := h.written i l' hwon
    generalize P.prog i = p at hi hw
    cases hw <;> cases hi

variable [DecidableEq ι]

/-- A call that writes nothing leaves everyone where they are, but for the caller's own program. -/
theorem Serial.quiet (h : Serial party won P) {i : ι} {c : StoreCall}
    {k : c.Answer → StoreProg (Result LinkView)} (hi : P.prog i = .call c k)
    (hbefore : won i = none → Stage (party i).1 (party i).2.1 (k (c.handle P.state).1))
    (hwritten : ∀ l, won i = some l → Written (party i).1 (party i).2.1 l (k (c.handle P.state).1)) :
    Serial party won (P.advance StoreCall.handle i) where
  before j hj := by
    by_cases hji : j = i
    · subst hji
      rw [Pool.advance_prog_self hi]
      exact hbefore hj
    · rw [Pool.advance_prog_other hi hji]
      exact h.before j hj
  written j l hj := by
    by_cases hji : j = i
    · subst hji
      rw [Pool.advance_prog_self hi]
      exact hwritten l hj
    · rw [Pool.advance_prog_other hi hji]
      exact h.written j l hj
  stored j l hj := by
    rw [Pool.advance_state hi]
    exact handle_getBySlug c (h.stored j l hj)
  unique := h.unique

/-- What the caller of a write is left with. -/
theorem advance_write {i : ι} (hi : P.prog i = StoreProg.storeLink config env l) :
    (∀ st', LegacyLinkStore.create l P.state = .ok st' →
      (P.advance StoreCall.handle i).state = st' ∧ Written config env l ((P.advance StoreCall.handle i).prog i)) ∧
    (∀ e, LegacyLinkStore.create l P.state = .error e →
      (P.advance StoreCall.handle i).state = P.state ∧ (P.advance StoreCall.handle i).prog i =
        .ret (.error ⟨.slugConflict, "slug already in use"⟩)) := by
  have hstate : (P.advance StoreCall.handle i).state = _ := Pool.advance_state hi
  have hself : (P.advance StoreCall.handle i).prog i = _ := Pool.advance_prog_self hi
  refine ⟨fun st' hok => ?_, fun e herr => ?_⟩
  · simp only [StoreCall.handle, hok] at hstate hself
    rw [hstate, hself]
    exact ⟨rfl, .clearing⟩
  · simp only [StoreCall.handle, herr, create_error herr] at hstate hself
    rw [hstate, hself]
    exact ⟨rfl, rfl⟩

/-- A party whose write succeeds has won. -/
theorem Serial.win (h : Serial party won P) {i : ι} (hwon : won i = none)
    (hi : P.prog i = StoreProg.storeLink (party i).1 (party i).2.1 l)
    (hok : LegacyLinkStore.create l P.state = .ok st') :
    Serial party (Function.update won i (some l)) (P.advance StoreCall.handle i) := by
  obtain ⟨hstate, hself⟩ := (advance_write hi).1 st' hok
  obtain ⟨hfree, hnew⟩ := create_ok hok
  have hother : ∀ j ≠ i, (P.advance StoreCall.handle i).prog j = P.prog j := fun j hj =>
    Pool.advance_prog_other hi hj
  -- no earlier winner has the slug, since it was free
  have hfresh : ∀ j m, won j = some m → m.slug ≠ l.slug := by
    intro j m hj hslug
    have hstored := h.stored j m hj
    rw [hslug, hfree] at hstored
    cases hstored
  have hkeep : ∀ s m, P.state.repository.getBySlug s = some m →
      (P.advance StoreCall.handle i).state.repository.getBySlug s = some m := by
    intro s m hm
    rw [Pool.advance_state hi]
    exact handle_getBySlug _ hm
  refine ⟨fun j hj => ?_, fun j m hj => ?_, fun j m hj => ?_, fun j j' m m' hj hj' hslug => ?_⟩
  · have hji : j ≠ i := by
      rintro rfl
      rw [Function.update_self] at hj
      cases hj
    rw [Function.update_of_ne hji] at hj
    rw [hother j hji]
    exact h.before j hj
  · by_cases hji : j = i
    · subst hji
      rw [Function.update_self] at hj
      cases hj
      exact hself
    · rw [Function.update_of_ne hji] at hj
      rw [hother j hji]
      exact h.written j m hj
  · by_cases hji : j = i
    · subst hji
      rw [Function.update_self] at hj
      cases hj
      rw [hstate]
      exact hnew
    · rw [Function.update_of_ne hji] at hj
      exact hkeep _ _ (h.stored j m hj)
  · by_cases hji : j = i <;> by_cases hji' : j' = i
    · rw [hji, hji']
    · subst hji
      rw [Function.update_self] at hj
      rw [Function.update_of_ne hji'] at hj'
      cases hj
      exact absurd hslug.symm (hfresh j' m' hj')
    · subst hji'
      rw [Function.update_self] at hj'
      rw [Function.update_of_ne hji] at hj
      cases hj'
      exact absurd hslug (hfresh j m hj)
    · rw [Function.update_of_ne hji] at hj
      rw [Function.update_of_ne hji'] at hj'
      exact h.unique j j' m m' hj hj' hslug

/-- **One call**: the parties stay serialized, and one more has won if it was a successful write. -/
theorem Serial.advance (h : Serial party won P) (i : ι) :
    ∃ won', Serial party won' (P.advance StoreCall.handle i) ∧ ∀ j l, won j = some l → won' j = some l := by
  cases hi : P.prog i with
  | ret a =>
    rw [Pool.advance_ret hi]
    exact ⟨won, h, fun _ _ hj => hj⟩
  | call c k =>
    cases hwon : won i with
    | some l =>
      have hw := h.written i l hwon
      rw [hi] at hw
      generalize hp : Prog.call c k = p at hw
      cases hw with
      | returned => cases hp
      | clearing =>
        cases hp
        refine ⟨won, h.quiet hi (fun hn => ?_) (fun l' hl' => ?_), fun _ _ hj => hj⟩
        · rw [hwon] at hn
          cases hn
        · rw [hwon] at hl'
          cases hl'
          exact .returned
    | none =>
      have hs := h.before i hwon
      have hnone : ∀ l', won i = some l' → False := fun l' hl' => by rw [hwon] at hl'; cases hl'
      rw [hi] at hs
      generalize hp : Prog.call c k = p at hs
      cases hs with
      | failed e => cases hp
      | checking slug k' hk =>
        cases hp
        exact ⟨won, h.quiet hi (fun _ => hk _) fun l' hl' => (hnone l' hl').elim, fun _ _ hj => hj⟩
      | writing l =>
        cases hc : LegacyLinkStore.create l P.state with
        | error e =>
          cases hp
          refine ⟨won, h.quiet hi (fun _ => ?_) fun l' hl' => (hnone l' hl').elim, fun _ _ hj => hj⟩
          simp only [StoreCall.handle, hc]
          exact .failed _
        | ok st' =>
          rw [hp] at hi
          refine ⟨_, h.win hwon hi hc, fun j m hj => ?_⟩
          rw [Function.update_of_ne, hj]
          rintro rfl
          exact hnone m hj

/-- After every schedule the parties are serialized, and whoever had won still has. -/
theorem Serial.interleave (h : Serial party won P) (schedule : List ι) :
    ∃ won', Serial party won' (P.interleave StoreCall.handle schedule) ∧
      ∀ j l, won j = some l → won' j = some l := by
  refine Runs.after_invariant (P := fun P : Creators ι => ∃ won', Serial party won' P ∧
    ∀ j l, won j = some l → won' j = some l) ?_ ⟨won, h, fun _ _ hj => hj⟩ schedule
  rintro i P ⟨won', h', hkeep⟩
  obtain ⟨won'', h'', hkeep'⟩ := h'.advance i
  exact ⟨won'', h'', fun j l hj => hkeep' j l (hkeep j l hj)⟩

/-- **Concurrent creations are serialized.** However the store calls of any number of `CreateLink` commands
interleave, from any state of the store:
no two that return success have the same slug;
the record of a slug is the one its winner has returned;
a command whose write succeeds returns success, and its record stays whatever the others do;
a command whose write fails returns a slug conflict, and the write leaves both indexes as they are. -/
theorem creates_serialized (party : ι → ServerConfig × Env × CreateLinkCommand) (st : LinkStore)
    (schedule : List ι) :
    (∀ i j v v', ((creators party st).interleave StoreCall.handle schedule).prog i = .ret (.ok v) →
      ((creators party st).interleave StoreCall.handle schedule).prog j = .ret (.ok v') →
      v.slug = v'.slug → i = j) ∧
    (∀ i v, ((creators party st).interleave StoreCall.handle schedule).prog i = .ret (.ok v) →
      ∃ l, v = toView (party i).1 l ((party i).2.1.clock 2) ∧
        ((creators party st).interleave StoreCall.handle schedule).state.repository.getBySlug v.slug = some l) ∧
    ∀ pre i post l, schedule = pre ++ i :: post →
      ((creators party st).interleave StoreCall.handle pre).next i = some (.create l) →
      (∀ st', LegacyLinkStore.create l ((creators party st).interleave StoreCall.handle pre).state = .ok st' →
        ((creators party st).interleave StoreCall.handle schedule).state.repository.getBySlug l.slug = some l ∧
        ∀ r, ((creators party st).interleave StoreCall.handle schedule).prog i = .ret r →
          r = .ok (toView (party i).1 l ((party i).2.1.clock 2))) ∧
      ∀ e, LegacyLinkStore.create l ((creators party st).interleave StoreCall.handle pre).state = .error e →
        ((creators party st).interleave StoreCall.handle schedule).prog i =
          .ret (.error ⟨.slugConflict, "slug already in use"⟩) ∧
        ((creators party st).interleave StoreCall.handle (pre ++ [i])).state.repository =
          ((creators party st).interleave StoreCall.handle pre).state.repository := by
  obtain ⟨won, h, -⟩ := (creators_serial party st).interleave schedule
  refine ⟨?_, ?_, ?_⟩
  · intro i j v v' hi hj hslug
    obtain ⟨l, hl, rfl⟩ := h.of_ret hi
    obtain ⟨l', hl', rfl⟩ := h.of_ret hj
    exact h.unique i j l l' hl hl' hslug
  · intro i v hi
    obtain ⟨l, hl, rfl⟩ := h.of_ret hi
    exact ⟨l, rfl, h.stored i l hl⟩
  · rintro pre i post l rfl hnext
    obtain ⟨wonPre, hpre, -⟩ := (creators_serial party st).interleave pre
    obtain ⟨hnone, hi⟩ := hpre.of_next hnext
    have hlast : (creators party st).interleave StoreCall.handle (pre ++ [i]) =
        ((creators party st).interleave StoreCall.handle pre).advance StoreCall.handle i :=
      Runs.after_append _ _ _
    have hrest : (creators party st).interleave StoreCall.handle (pre ++ i :: post) =
        (((creators party st).interleave StoreCall.handle pre).advance StoreCall.handle i).interleave
          StoreCall.handle post :=
      Runs.after_append _ _ _
    rw [hlast, hrest]
    refine ⟨fun st' hok => ?_, fun e herr => ?_⟩
    · obtain ⟨won', h', hkeep⟩ := (hpre.win hnone hi hok).interleave post
      have hwon := hkeep i l (Function.update_self _ _ _)
      refine ⟨h'.stored i l hwon, fun r hr => ?_⟩
      have hw := h'.written i l hwon
      rw [hr] at hw
      cases hw
      rfl
    · obtain ⟨hstate, hself⟩ := (advance_write hi).2 e herr
      exact ⟨Pool.interleave_ret hself post, by rw [hstate]⟩

/-- Two commands for the slug `abc`. -/
def sampleCreators (_ : Bool) : ServerConfig × Env × CreateLinkCommand :=
  ({}, .still, { targetUrl := "http://example.com", slug := some "abc" })

/-- Both find the slug free, and the second write loses. -/
theorem creates_serialized_sample :
    ((creators sampleCreators {}).interleave StoreCall.handle [false, true, false, true, false]).prog true =
        .ret (.error ⟨.slugConflict, "slug already in use"⟩) ∧
      ∀ i v, ((creators sampleCreators {}).interleave StoreCall.handle [false, true, false, true, false]).prog i =
        .ret (.ok v) → i = false := by
  obtain ⟨-, -, hwrite⟩ := creates_serialized sampleCreators {} [false, true, false, true, false]
  have hlose := ((hwrite [false, true, false] true [false] _ rfl rfl).2 _ rfl).1
  refine ⟨hlose, fun i v hi => ?_⟩
  cases i with
  | false => rfl
  | true =>
    rw [hlose] at hi
    cases hi

end

end UrlShortener

import UrlShortener.Proof.Paging
import UrlShortener.Proof.Transparency

/-!
# Live links: `Resolve` and `ListLinks`

Three fields of a record say that its link is gone: `is_active`, `expires_at` and `deleted_at`. `ListLinks`
filters by the first and the last, `Resolve` by the first two, and the cached copy has no `deleted_at`.

* `mem_listLinks`, `not_mem_listLinks`: which records a listing of the live links has.
* `record_of_redirect`: a redirect is to the stored record, and that is active.
* `redirect_listed`: a redirect is to a listed record unless an `Update` has marked an active record deleted.
-/

namespace UrlShortener.Storage

open Caching LinkService

variable {weather : ℕ → Moment} {repo : InMemoryMetadataRepository} {record : LinkRecord} {code : Str}

/-! ## The listing -/

/-- A query for the links that are neither inactive nor deleted, whoever owns them. -/
structure ListLinksQuery.LiveOnly (query : ListLinksQuery) : Prop where
  owner : query.owner = none
  includeInactive : query.includeInactive = false
  includeDeleted : query.includeDeleted = false

/-- A page that has room for the whole repository. -/
def ListLinksQuery.Whole (query : ListLinksQuery) (repo : InMemoryMetadataRepository) : Prop :=
  query.offset = 0 ∧ repo.byCode.entries.card ≤ query.limit.toNat

section Listing

variable (iteration : Iteration LinkRecord) {query : ListLinksQuery}

theorem mem_visit (h : repo.getByShortCode code = some record) :
    record ∈ (iteration.visit repo.byCode).map Sigma.snd := by
  refine List.mem_map.2 ⟨⟨code, record⟩, ?_, rfl⟩
  rw [← Multiset.mem_coe, iteration.visits]
  exact Finmap.lookup_eq_some_iff.1 h

/-- **What is live is listed.** -/
theorem mem_listLinks (hquery : query.LiveOnly) (hpage : query.Whole repo)
    (h : repo.getByShortCode code = some record) (hactive : record.isActive = true)
    (hdeleted : record.deletedAt = none) : record ∈ repo.listLinks iteration query := by
  obtain ⟨howner, -, -⟩ := hquery
  obtain ⟨hoffset, hlimit⟩ := hpage
  have hlength := (length_selectedRecords_le repo iteration query).trans hlimit
  rw [listLinks_eq, hoffset, UInt64.toNat_zero, List.drop_zero, List.take_of_length_le hlength, selectedRecords,
    List.mem_insertionSort, List.mem_filter]
  refine ⟨mem_visit iteration h, ?_⟩
  simp [ListLinksQuery.selects, howner, hactive, hdeleted]

/-- **What is deleted is not.** -/
theorem not_mem_listLinks (hquery : query.includeDeleted = false) (hdeleted : record.deletedAt ≠ none) :
    record ∉ repo.listLinks iteration query := by
  intro h
  rw [listLinks_eq] at h
  have hselected := (List.mem_insertionSort _).1 (List.mem_of_mem_drop (List.mem_of_mem_take h))
  have hpass := (List.mem_filter.1 hselected).2
  simp [ListLinksQuery.selects, hquery, hdeleted] at hpass

end Listing

/-! ## Redirects -/

/-- **A redirect is to an active record.** The cached copy has the flag of the stored record. -/
theorem record_of_redirect {s : Ports InMemoryCacheStore} (hs : Served InMemoryCacheStore.held s code)
    (h : ((resolve code).run (handle inMemoryCacheStore weather) s).1.status = .redirect) :
    ∃ record, s.repo.getByShortCode code = some record ∧ record.isActive = true := by
  have hanswers : AnswersAt inMemoryCacheStore weather s (resolve code) fun t =>
      verdict t (s.repo.getByShortCode code) := answersAt_resolve inMemoryCacheStore_lawful hs
  obtain ⟨i, -, -, houtcome⟩ := hanswers
  have hverdict : (verdict (weather i).now (s.repo.getByShortCode code)).1 = .redirect := by
    exact (congrArg Prod.fst houtcome).symm.trans h
  cases hrecord : s.repo.getByShortCode code with
  | none =>
    rw [hrecord] at hverdict
    cases hverdict
  | some record =>
    refine ⟨record, rfl, ?_⟩
    cases hactive : record.isActive with
    | true => rfl
    | false => simp [hrecord, verdict, hactive] at hverdict

/-! ## Runs -/

/-- An `Update` that marks a record deleted makes it inactive too. -/
def ServiceOp.DeletesInactive : ServiceOp → Prop
  | .update record => record.deletedAt = none ∨ record.isActive = false
  | _ => True

/-- No active record is marked deleted. -/
def DeletedInactive (s : Ports InMemoryCacheStore) : Prop :=
  ∀ code record, s.repo.getByShortCode code = some record → record.isActive = true → record.deletedAt = none

theorem step_deletedInactive {s : Ports InMemoryCacheStore} {op : ServiceOp} (hop : op.DeletesInactive)
    (hs : DeletedInactive s) : DeletedInactive (op.step inMemoryCacheStore weather s) := by
  intro code record h hactive
  rcases step_record h with h | rfl | ⟨request, id, now, -, rfl⟩
  · exact hs code record h hactive
  · rcases hop with hop | hop
    · exact hop
    · rw [hactive] at hop
      cases hop
  · rfl

/-- The adapters after a run that began with nothing stored. -/
def portsFrom (weather : ℕ → Moment) (ops : List ServiceOp) : Ports InMemoryCacheStore :=
  portsAfter inMemoryCacheStore weather { repo := {}, cache := ∅ } ops

theorem portsFrom_deletedInactive {ops : List ServiceOp} (hops : ∀ op ∈ ops, op.DeletesInactive) :
    DeletedInactive (portsFrom weather ops) := by
  refine Runs.after_invariant_mem (fun op hop s hs => step_deletedInactive (hops op hop) hs) ?_
  intro code record h
  cases h

/-- **Redirects and the listing.** Let `Resolve` answer a redirect after any run. Then there is a record, and
every listing of the live links has it if it is not marked deleted, and otherwise none. In particular, if
every `Update` of the run that marked a record deleted made it inactive as well, every listing has it. -/
theorem redirect_listed (weather : ℕ → Moment) (ops : List ServiceOp) (code : Str)
    (h : ((resolve code).run (handle inMemoryCacheStore weather) (portsFrom weather ops)).1.status = .redirect) :
    ∃ record, (portsFrom weather ops).repo.getByShortCode code = some record ∧
      (record.deletedAt = none → ∀ iteration (query : ListLinksQuery), query.LiveOnly →
        query.Whole (portsFrom weather ops).repo →
          record ∈ (portsFrom weather ops).repo.listLinks iteration query) ∧
      (record.deletedAt ≠ none → ∀ iteration (query : ListLinksQuery), query.LiveOnly →
        record ∉ (portsFrom weather ops).repo.listLinks iteration query) ∧
      ((∀ op ∈ ops, op.DeletesInactive) → ∀ iteration (query : ListLinksQuery), query.LiveOnly →
        query.Whole (portsFrom weather ops).repo →
          record ∈ (portsFrom weather ops).repo.listLinks iteration query) := by
  have hserved : Served InMemoryCacheStore.held (portsFrom weather ops) code :=
    inMemoryCacheStore_lawful.portsAfter_served (coherentAt_of_miss (by simp [InMemoryCacheStore.held])) ops
  obtain ⟨record, hrecord, hactive⟩ := record_of_redirect hserved h
  refine ⟨record, hrecord, ?_, ?_, ?_⟩
  · intro hdeleted iteration query hquery hpage
    exact mem_listLinks iteration hquery hpage hrecord hactive hdeleted
  · intro hdeleted iteration query hquery
    exact not_mem_listLinks iteration hquery.includeDeleted hdeleted
  · intro hops iteration query hquery hpage
    have hdeleted := portsFrom_deletedInactive hops code record hrecord hactive
    exact mem_listLinks iteration hquery hpage hrecord hactive hdeleted

/-- A clock that stands still. -/
def atFour : ℕ → Moment := fun _ => { now := 4 }

/-- A link that is created, and another that is created and then marked deleted, active or not. -/
def sampleDeletion (isActive : Bool) : List ServiceOp :=
  [.createLink { shortCode := "abc", targetUrl := "https://a.io" } "1" 1,
    .createLink { shortCode := "old", targetUrl := "https://b.io" } "2" 2, .resolve "old",
    .update
      { id := "2", shortCode := "old", targetUrl := "https://b.io", createdAt := 2,
        updatedAt := 3, deletedAt := some 3, isActive }]

theorem sampleDeletion_listed :
    ((resolve "abc").run (handle inMemoryCacheStore atFour)
        (portsFrom atFour (sampleDeletion false))).1.status = .redirect ∧
      ∃ record, (portsFrom atFour (sampleDeletion false)).repo.getByShortCode "abc"
          = some record ∧
        ∀ iteration (query : ListLinksQuery), query.LiveOnly →
          query.Whole (portsFrom atFour (sampleDeletion false)).repo →
            record ∈ (portsFrom atFour (sampleDeletion false)).repo.listLinks iteration query := by
  have hredirect : ((resolve "abc").run (handle inMemoryCacheStore atFour)
      (portsFrom atFour (sampleDeletion false))).1.status = .redirect := by decide +kernel
  obtain ⟨record, hrecord, -, -, hlisted⟩ := redirect_listed _ _ _ hredirect
  refine ⟨hredirect, record, hrecord, hlisted ?_⟩
  simp [sampleDeletion, ServiceOp.DeletesInactive]

/-- **A deleted link that redirects**, although no listing of the live links has it. -/
theorem deleted_redirects :
    ((resolve "old").run (handle inMemoryCacheStore atFour)
        (portsFrom atFour (sampleDeletion true))).1
      = ⟨.redirect, some "https://b.io", false⟩ ∧
      ∃ record, (portsFrom atFour (sampleDeletion true)).repo.getByShortCode "old"
          = some record ∧ record.deletedAt = some 3 ∧
        ∀ iteration (query : ListLinksQuery), query.LiveOnly →
          record ∉ (portsFrom atFour (sampleDeletion true)).repo.listLinks iteration query := by
  refine ⟨by decide +kernel, ?_⟩
  have hfound : ((portsFrom atFour (sampleDeletion true)).repo.getByShortCode "old").map
      (·.deletedAt) = some (some 3) := by decide +kernel
  obtain ⟨record, hrecord, hdeleted⟩ := Option.map_eq_some_iff.1 hfound
  refine ⟨record, hrecord, hdeleted, fun iteration query hquery => ?_⟩
  exact not_mem_listLinks iteration hquery.includeDeleted (by simp [hdeleted])

end UrlShortener.Storage

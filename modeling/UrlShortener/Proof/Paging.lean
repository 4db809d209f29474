import UrlShortener.Spec.Storage
import UrlShortener.Sql.Table

/-!
# Pages of a listing

`ListLinks` of `InMemoryMetadataRepository` called with growing offsets.

* `listLinks_eq`: a listing is a part of all the records that the query selects, sorted by their creation.
* `pages_complete`: **the pages up to the first empty one are these records, each once.** No offset up to that page
  leaves the 64 bits of `std::size_t`.
-/

namespace UrlShortener.Storage

variable (repo : InMemoryMetadataRepository) (iteration : Iteration LinkRecord)
  (query : ListLinksQuery)

/-- The record passes the filters of the query. -/
def ListLinksQuery.selects (query : ListLinksQuery) (record : LinkRecord) : Bool :=
  (query.owner.isNone || record.owner == query.owner) && (query.includeInactive || record.isActive) &&
    (query.includeDeleted || record.deletedAt.isNone)

/-- All the records that a query selects, sorted. -/
def selectedRecords : List LinkRecord :=
  (((iteration.visit repo.byCode).map Sigma.snd).filter query.selects).insertionSort
    fun lhs rhs => lhs.createdAt ≤ rhs.createdAt

/-- **A listing is a part of the selected records.** -/
theorem listLinks_eq :
    repo.listLinks iteration query =
      ((selectedRecords repo iteration query).drop query.offset.toNat).take query.limit.toNat := by
  have hfilter : (fun record : LinkRecord => !(!query.includeDeleted && record.deletedAt.isSome) &&
      !(!query.includeInactive && !record.isActive) && !(query.owner.isSome && record.owner != query.owner)) =
      query.selects := by
    funext record
    unfold ListLinksQuery.selects
    cases query.owner <;> cases query.includeInactive <;> cases query.includeDeleted <;> cases record.isActive <;>
      cases record.deletedAt <;> simp [bne]
  have hrecords : (((iteration.visit repo.byCode).map Sigma.snd).filter query.selects).insertionSort
      (fun lhs rhs => lhs.createdAt ≤ rhs.createdAt) = selectedRecords repo iteration query := rfl
  simp only [InMemoryMetadataRepository.listLinks, hfilter, hrecords]
  split
  case isTrue hlen => rw [List.drop_eq_nil_of_le hlen, List.take_nil]
  case isFalse =>
    rw [← List.take_take]
    congr 1
    exact List.take_of_length_le (by rw [List.length_drop])

theorem selectedRecords_sorted : (selectedRecords repo iteration query).Pairwise (·.createdAt ≤ ·.createdAt) := by
  have htrans : IsTrans LinkRecord fun lhs rhs => lhs.createdAt ≤ rhs.createdAt := ⟨fun _ _ _ => Int64.le_trans⟩
  have htotal : Std.Total fun lhs rhs : LinkRecord => lhs.createdAt ≤ rhs.createdAt :=
    ⟨fun lhs rhs => Int64.le_total lhs.createdAt rhs.createdAt⟩
  exact List.pairwise_insertionSort _ _

/-- Every record that passes the filters, once. -/
theorem coe_selectedRecords :
    (selectedRecords repo iteration query : Multiset LinkRecord) =
      (repo.byCode.entries.map Sigma.snd).filter fun record => query.selects record = true := by
  rw [← iteration.visits, Multiset.map_coe, Multiset.filter_coe, Multiset.coe_eq_coe]
  refine (List.perm_insertionSort _ _).trans (List.Perm.of_eq (List.filter_congr fun record _ => ?_))
  rw [Bool.decide_eq_true]

theorem length_selectedRecords_le : (selectedRecords repo iteration query).length ≤ repo.byCode.entries.card := by
  rw [← Multiset.coe_card, coe_selectedRecords]
  exact (Multiset.card_le_card (Multiset.filter_le _ _)).trans (Multiset.card_map _ _).le

/-! ## Pages -/

/-- Page `i` of the given size. -/
def listedPage (size : UInt64) (i : ℕ) : List LinkRecord :=
  repo.listLinks iteration { query with limit := size, offset := UInt64.ofNat (i * size.toNat) }

variable {repo iteration query} in
theorem listedPage_eq {size : UInt64} {i : ℕ} (h : i * size.toNat < 2 ^ 64) :
    listedPage repo iteration query size i =
      ((selectedRecords repo iteration query).drop (i * size.toNat)).take size.toNat := by
  rw [listedPage, listLinks_eq, UInt64.toNat_ofNat_of_lt' h]
  rfl

/-- As many pages of one size as it takes to cover the rows. -/
theorem exists_page_count {size : ℕ} (hsize : 0 < size) (length : ℕ) :
    ∃ n, length ≤ n * size ∧ ∀ i < n, i * size < length := by
  have hcover : ∃ n, length ≤ n * size := ⟨length, Nat.le_mul_of_pos_right length hsize⟩
  refine ⟨Nat.find hcover, Nat.find_spec hcover, fun i hi => ?_⟩
  exact Nat.lt_of_not_le (Nat.find_min hcover hi)

/-- `records.reserve(by_code_.size())` does not throw: no vector has more elements than its differences can count. -/
def InMemoryMetadataRepository.Reservable (repo : InMemoryMetadataRepository) : Prop :=
  repo.byCode.entries.card ≤ 2 ^ 63 - 1

instance : Decidable repo.Reservable := inferInstanceAs (Decidable (_ ≤ _))

/-- The offset of the page behind the last row fits 64 bits. -/
theorem offset_lt {n length : ℕ} {size : UInt64} (hlength : length ≤ 2 ^ 63 - 1)
    (hbefore : ∀ i < n, i * size.toNat < length) : n * size.toNat < 2 ^ 64 := by
  have hsize := size.toNat_lt
  rcases n with _ | _ | n
  · omega
  · omega
  · -- the page before begins within the rows, and so does the second one: a page is shorter than they are
    have hlast := hbefore (n + 1) (by omega)
    have hsecond := hbefore 1 (by omega)
    rw [Nat.succ_mul]
    omega

/-- **The pages up to the first empty one are the selected records, each once and sorted.** -/
theorem pages_complete (size : UInt64) (hsize : 1 ≤ size) (hrepo : repo.Reservable) :
    ∃ n, n * size.toNat < 2 ^ 64 ∧ listedPage repo iteration query size n = [] ∧
      (∀ i < n, listedPage repo iteration query size i ≠ []) ∧
      (((List.range n).flatMap (listedPage repo iteration query size) : List LinkRecord) : Multiset LinkRecord) =
        (repo.byCode.entries.map Sigma.snd).filter (fun record => query.selects record = true) ∧
      ((List.range n).flatMap (listedPage repo iteration query size)).Pairwise (·.createdAt ≤ ·.createdAt) := by
  have hpositive : 0 < size.toNat := UInt64.le_iff_toNat_le.1 hsize
  obtain ⟨n, hcover, hbefore⟩ := exists_page_count hpositive (selectedRecords repo iteration query).length
  have hfits : n * size.toNat < 2 ^ 64 :=
    offset_lt ((length_selectedRecords_le repo iteration query).trans hrepo) hbefore
  have hpages : (List.range n).flatMap (listedPage repo iteration query size) =
      selectedRecords repo iteration query := by
    rw [← List.take_of_length_le hcover, ← Sql.flatMap_pages]
    refine List.flatMap_congr fun i hi => listedPage_eq ?_
    have hle : i * size.toNat ≤ n * size.toNat := Nat.mul_le_mul_right _ (List.mem_range.1 hi).le
    omega
  refine ⟨n, hfits, ?_, fun i hi => ?_, ?_, ?_⟩
  · rw [listedPage_eq hfits, List.drop_eq_nil_of_le hcover, List.take_nil]
  · have hstart := hbefore i hi
    have hle : i * size.toNat ≤ n * size.toNat := Nat.mul_le_mul_right _ hi.le
    rw [listedPage_eq (by omega), ne_eq, List.take_eq_nil_iff, List.drop_eq_nil_iff]
    omega
  · rw [hpages]
    exact coe_selectedRecords repo iteration query
  · rw [hpages]
    exact selectedRecords_sorted repo iteration query

/-- One of the orders in which a hash table may be visited. -/
noncomputable def someOrder : Iteration LinkRecord where
  visit m := m.entries.toList
  visits _ := Multiset.coe_toList _

/-- Two links. -/
def twoLinks : InMemoryMetadataRepository where
  byCode := ((∅ : UnorderedMap Str LinkRecord).insert "abc".toList
    { id := "1".toList, shortCode := "abc".toList, targetUrl := "https://a.example/".toList, createdAt := 2 }).insert
      "def".toList
        { id := "2".toList, shortCode := "def".toList, targetUrl := "https://b.example/".toList, createdAt := 1 }

theorem pages_complete_sample :
    twoLinks.Reservable ∧ ∃ n, n * (1 : UInt64).toNat < 2 ^ 64 ∧ listedPage twoLinks someOrder {} 1 n = [] ∧
      (∀ i < n, listedPage twoLinks someOrder {} 1 i ≠ []) ∧
      (((List.range n).flatMap (listedPage twoLinks someOrder {} 1) : List LinkRecord) : Multiset LinkRecord) =
        (twoLinks.byCode.entries.map Sigma.snd).filter
          (fun record => ListLinksQuery.selects {} record = true) ∧
      ((List.range n).flatMap (listedPage twoLinks someOrder {} 1)).Pairwise (·.createdAt ≤ ·.createdAt) :=
  ⟨by decide, pages_complete twoLinks someOrder {} 1 (by decide) (by decide)⟩

end UrlShortener.Storage

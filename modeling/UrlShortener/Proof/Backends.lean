import UrlShortener.Sorting.Keys
import UrlShortener.Spec.SqlMetadata
import UrlShortener.Proof.Paging
import UrlShortener.Proof.Time
import UrlShortener.Runs.Answers
import UrlShortener.Sql.Groups
import UrlShortener.Sql.Index

/-!
# The metadata backends

`InMemoryMetadataRepository` and `SqlMetadataRepository` over SQLite, call by call.

* `fromRow_row`: a record that the columns can express is read back from its row.
* `Backed`: the links held, once as a hash table and once as rows. The table `held` between the two is what both
  are about.
* `backends_agree`: **in every run whose calls the columns can express, the two give the same answers.**
-/

namespace UrlShortener.Storage

open PropertyTree Sql

variable {T : Type} {json : Library T} {integers : SociIntegers}

/-! ## The payload column -/

theorem mem_sortedItems {m : UnorderedMap Str Str} {item : Str × Str} :
    item ∈ sortedItems m ↔ m.lookup item.1 = some item.2 := by
  rw [Finmap.lookup_eq_some_iff]
  simp only [sortedItems, List.mem_map, Multiset.mem_sort, Multiset.mem_map]
  constructor
  · rintro ⟨_, ⟨e, he, rfl⟩, rfl⟩
    exact he
  · intro he
    exact ⟨_, ⟨_, he, rfl⟩, rfl⟩

theorem sortedItems_keys_nodup (m : UnorderedMap Str Str) : ((sortedItems m).map (·.1)).Nodup := by
  have hkeys : (((sortedItems m).map (·.1) : List Str) : Multiset Str) = m.entries.map Sigma.fst := by
    rw [sortedItems, List.map_map, ← Multiset.map_coe, Multiset.sort_eq, Multiset.map_map]
    rfl
  rw [← Multiset.coe_nodup, hkeys]
  exact m.nodupKeys.nodup_keys

theorem foldl_insert_sortedItems (m : UnorderedMap Str Str) :
    (sortedItems m).foldl (fun (m : UnorderedMap Str Str) item => m.insert item.1 item.2) ∅ = m := by
  refine Finmap.ext_lookup fun key => Option.ext fun value => ?_
  exact (lookup_toMap (sortedItems_keys_nodup m) key value).trans mem_sortedItems

/-- The `id` and the attributes survive the text of the payload: the keys are no paths, and the texts are of the
character set of the parser. -/
structure Expressible (json : Library T) (id : Str) (attributes : UnorderedMap Str Str) : Prop where
  id : json.isText id = true
  attributes : ∀ e ∈ attributes.entries,
    isPlainKey e.1 = true ∧ json.isText e.1 = true ∧ json.isText e.2 = true

theorem Expressible.items {id : Str} {attributes : UnorderedMap Str Str} (h : Expressible json id attributes)
    {item : Str × Str} (hitem : item ∈ sortedItems attributes) :
    isPlainKey item.1 = true ∧ json.isText item.1 = true ∧ json.isText item.2 = true :=
  h.attributes ⟨item.1, item.2⟩ (Finmap.lookup_eq_some_iff.1 (mem_sortedItems.1 hitem))

/-- **The payload is read back.** -/
theorem deserialize_serialize {id : Str} {attributes : UnorderedMap Str Str} (h : Expressible json id attributes) :
    ∃ text, serializePayload json id attributes = some text ∧
      deserializePayload json text = some (id, attributes) := by
  have hkey : isPlainKey "id" = true := by decide
  have hkey' : isPlainKey "attributes" = true := by decide
  have htext := json.isText_ascii "id" (by decide)
  have htext' := json.isText_ascii "attributes" (by decide)
  obtain ⟨text, root, below, hwrite, hread, hid, hbelow, hitems⟩ := json.read_write hkey hkey' (by decide) htext h.id
    htext' (fun item hitem => h.items hitem) (sortedItems_keys_nodup attributes)
  refine ⟨text, hwrite, ?_⟩
  simp only [deserializePayload, hread, hid, hbelow, hitems, foldl_insert_sortedItems]

/-! ## Records and rows -/

/-- The seconds of the time fit what SOCI reads from an `INTEGER` column. -/
def SociIntegers.Holds (integers : SociIntegers) (tp : TimePoint) : Prop :=
  integers = .dtLongLong ∨ (-2 ^ 31 ≤ toEpochSeconds tp ∧ toEpochSeconds tp < 2 ^ 31)

/-- A time in whole seconds. -/
def Whole (tp : TimePoint) : Prop := tp.toInt % 1000000000 = 0

instance (tp : TimePoint) : Decidable (integers.Holds tp) := inferInstanceAs (Decidable (_ ∨ _))

instance (tp : TimePoint) : Decidable (Whole tp) := inferInstanceAs (Decidable (_ = _))

theorem SociIntegers.Holds.getLL {tp : TimePoint} (h : integers.Holds tp) :
    integers.getLL (toEpochSeconds tp) = toEpochSeconds tp := by
  cases integers with
  | dtLongLong => rfl
  | dtInteger =>
    obtain ⟨hlow, hhigh⟩ := h.resolve_left (by decide)
    exact Int32.toInt_ofInt_of_le hlow hhigh

/-- A time is stored in seconds and read back. -/
theorem fromEpochSeconds_getLL {tp : TimePoint} (h : integers.Holds tp) (hwhole : Whole tp) :
    fromEpochSeconds (integers.getLL (toEpochSeconds tp)) = tp := by
  rw [h.getLL]
  exact fromTimeT_toTimeT hwhole

/-- A record that the columns can express. -/
structure LinkRecord.Kept (json : Library T) (integers : SociIntegers) (record : LinkRecord) : Prop where
  createdAt : Whole record.createdAt ∧ integers.Holds record.createdAt
  updatedAt : Whole record.updatedAt ∧ integers.Holds record.updatedAt
  expiresAt : ∀ tp ∈ record.expiresAt, Whole tp ∧ integers.Holds tp
  payload : Expressible json record.id record.attributes
  deletedAt : record.deletedAt = none
  version : record.version = 1

/-- A link as both repositories hold it. The `id` column keeps the identifier that the link was created with. -/
structure Held where
  record : LinkRecord
  idColumn : Str

/-- The code it is held under. -/
def Held.code (h : Held) : Str := h.record.shortCode

/-- The row of a link. -/
def Held.row (json : Library T) (h : Held) : LinksRow where
  id := h.idColumn
  shortCode := h.record.shortCode
  targetUrl := h.record.targetUrl
  createdAt := toEpochSeconds h.record.createdAt
  updatedAt := toEpochSeconds h.record.updatedAt
  expiresAt := h.record.expiresAt.map toEpochSeconds
  isActive := if h.record.isActive then 1 else 0
  ownerId := h.record.owner
  attributesJson := serializePayload json h.record.id h.record.attributes

theorem expiresAt_readBack {expiresAt : Option TimePoint} (h : ∀ tp ∈ expiresAt, Whole tp ∧ integers.Holds tp) :
    ((expiresAt.map toEpochSeconds).map integers.getLL).map fromEpochSeconds = expiresAt := by
  cases expiresAt with
  | none => rfl
  | some tp =>
    obtain ⟨hwhole, hholds⟩ := h tp rfl
    exact congrArg some (fromEpochSeconds_getLL hholds hwhole)

/-- **A record is read back from its row.** -/
theorem fromRow_row {h : Held} (hkept : h.record.Kept json integers) :
    SqlMetadataRowMapper.fromRow json (SqliteSession.rowFromSoci integers (h.row json)) = .ok h.record := by
  obtain ⟨text, hwrite, hread⟩ := deserialize_serialize hkept.payload
  have hactive : ((if h.record.isActive then 1 else 0 : Int) != 0) = h.record.isActive := by
    cases h.record.isActive <;> rfl
  simp only [SqlMetadataRowMapper.fromRow, SqliteSession.rowFromSoci, Held.row, hwrite, hread, hactive,
    fromEpochSeconds_getLL hkept.createdAt.2 hkept.createdAt.1,
    fromEpochSeconds_getLL hkept.updatedAt.2 hkept.updatedAt.1, expiresAt_readBack hkept.expiresAt]
  -- the columns that are not there have their defaults in the record
  rw [← hkept.deletedAt, ← hkept.version]

/-! ## The links held -/

/-- **One table, held twice**: as a hash table by the code, and as rows. -/
structure Backed (json : Library T) (integers : SociIntegers) (held : Table Held) (repo : InMemoryMetadataRepository)
    (links : Table LinksRow) : Prop where
  rows : links = held.map (Held.row json)
  index : Indexed Held.code Held.record held repo.byCode
  kept : ∀ h ∈ held, h.record.Kept json integers

variable {held : Table Held} {repo : InMemoryMetadataRepository} {links : Table LinksRow}

theorem row_code (code : Str) (h : Held) : ((h.row json).shortCode == code) = (h.code == code) := rfl

theorem Backed.empty : Backed json integers [] {} [] := ⟨rfl, .empty, by simp⟩

theorem Backed.first (hb : Backed json integers held repo links) (code : Str) :
    first (·.shortCode == code) links = (first (Held.code · == code) held).map (Held.row json) := by
  rw [hb.rows, first_image (row_code code)]

theorem Backed.count (hb : Backed json integers held repo links) (code : Str) :
    count (·.shortCode == code) links = 0 ↔ repo.byCode.lookup code = none := by
  rw [hb.rows, count_image (row_code code)]
  exact hb.index.count_eq_zero

theorem Backed.mem_code (hb : Backed json integers held repo links) {h : Held} (hmem : h ∈ held) :
    repo.byCode.lookup h.code = some h.record :=
  hb.index.lookup_mem hmem

/-! ## Changes -/

/-- The primary key refuses a row exactly when the hash table has the code. -/
theorem Backed.insert (hb : Backed json integers held repo links) (h : Held) :
    Sql.insert LinksRow.clash (h.row json) links
      = if (repo.byCode.lookup h.code).isSome then none else some (links ++ [h.row json]) := by
  have hclash : links.any (LinksRow.clash (h.row json)) = (repo.byCode.lookup h.code).isSome := by
    rw [Bool.eq_iff_iff, List.any_eq_true, ← Option.ne_none_iff_isSome, ne_eq, hb.index.lookup_eq_none, hb.rows]
    simp only [List.mem_map, exists_exists_and_eq_and, LinksRow.clash, beq_iff_eq, not_forall, not_not, exists_prop]
    exact exists_congr fun h' => and_congr_right fun _ => eq_comm
  rw [Sql.insert]
  rw [hclash]

/-- A new link at the end of the table. -/
theorem Backed.append (hb : Backed json integers held repo links) {h : Held}
    (hnew : repo.byCode.lookup h.code = none) (hkept : h.record.Kept json integers) :
    Backed json integers (held ++ [h]) { byCode := repo.byCode.insert h.code h.record } (links ++ [h.row json]) where
  rows := by rw [hb.rows, List.map_append, List.map_singleton]
  index := hb.index.insert hnew
  kept h' hmem := by
    rcases List.mem_append.1 hmem with hold | hlast
    · exact hb.kept h' hold
    · rw [List.mem_singleton.1 hlast]
      exact hkept

/-- A record in the place of the one with its code. -/
theorem Backed.update (hb : Backed json integers held repo links) {record : LinkRecord} {set : LinksRow → LinksRow}
    (hthere : repo.byCode.lookup record.shortCode ≠ none) (hkept : record.Kept json integers)
    (hset : ∀ h ∈ held, h.code = record.shortCode → set (h.row json) = Held.row json { h with record }) :
    Backed json integers (update (Held.code · == record.shortCode) (fun h => { h with record }) held)
      { byCode := repo.byCode.insert record.shortCode record }
      (update (·.shortCode == record.shortCode) set links) where
  rows := by
    rw [hb.rows]
    exact update_image (row_code _) fun h hmem hcode => hset h hmem (eq_of_beq hcode)
  index := hb.index.replace hthere (fun _ _ => rfl) fun _ _ => rfl
  kept h' hmem := by
    obtain ⟨h, hold, rfl⟩ := List.mem_map.1 hmem
    split
    case isTrue => exact hkept
    case isFalse => exact hb.kept h hold

theorem Backed.delete (hb : Backed json integers held repo links) (code : Str) :
    Backed json integers (delete (Held.code · == code) held) (repo.deleteLink code)
      (delete (·.shortCode == code) links) where
  rows := by rw [hb.rows, delete_image (row_code code)]
  index := hb.index.delete code
  kept h hmem := hb.kept h (List.mem_of_mem_filter hmem)

/-! ## Listings -/

/-- The links in the repository were created at different times. -/
def InMemoryMetadataRepository.DistinctCreations (repo : InMemoryMetadataRepository) : Prop :=
  ∀ e ∈ repo.byCode.entries, ∀ e' ∈ repo.byCode.entries, e.2.createdAt = e'.2.createdAt → e.1 = e'.1

instance : Decidable repo.DistinctCreations :=
  inferInstanceAs (Decidable (∀ e ∈ _, ∀ e' ∈ _, _ → _))

theorem Backed.eq_of_createdAt (hb : Backed json integers held repo links) (hdistinct : repo.DistinctCreations)
    {h h' : Held} (hmem : h ∈ held) (hmem' : h' ∈ held) (heq : h.record.createdAt = h'.record.createdAt) : h = h' := by
  refine hb.index.unique.eq_of_column hmem hmem' ?_
  exact hdistinct ⟨h.code, h.record⟩ (Finmap.lookup_eq_some_iff.1 (hb.mem_code hmem)) ⟨h'.code, h'.record⟩
    (Finmap.lookup_eq_some_iff.1 (hb.mem_code hmem')) heq

/-- The links that a query asks for. -/
def ListLinksQuery.wants (query : ListLinksQuery) (h : Held) : Bool :=
  (query.owner.isNone || h.record.owner == query.owner) && (query.includeInactive || h.record.isActive)

/-- The links that a query asks for, in the order of their creation. -/
def ListLinksQuery.listed (query : ListLinksQuery) (held : Table Held) : List Held :=
  orderBy (toEpochSeconds ·.record.createdAt) (held.filter query.wants)

theorem ListLinksQuery.mem_listed {query : ListLinksQuery} {h : Held} (hmem : h ∈ query.listed held) : h ∈ held :=
  List.mem_of_mem_filter ((List.mem_insertionSort _).1 hmem)

section InMemory

variable (query : ListLinksQuery) (iteration : Iteration LinkRecord)

/-- The records that the in-memory repository finds: those of the links, in the order of the hash table. -/
theorem Backed.visit_filter (hb : Backed json integers held repo links) :
    (((iteration.visit repo.byCode).map Sigma.snd).filter query.selects).Perm
      ((held.filter query.wants).map Held.record) := by
  have hvisit : ((iteration.visit repo.byCode).map Sigma.snd).Perm (held.map Held.record) := by
    rw [← Multiset.coe_eq_coe, ← Multiset.map_coe, iteration.visits, hb.index.entries]
  refine (hvisit.filter _).trans (List.Perm.of_eq ?_)
  rw [List.filter_map]
  congr 1
  refine List.filter_congr fun h hmem => ?_
  -- no link that is held was marked as deleted
  simp [(hb.kept h hmem).deletedAt, ListLinksQuery.wants, ListLinksQuery.selects]

/-- **The order of the hash table does not matter**: the records are sorted by times that are all different. -/
theorem Backed.sort_eq (hb : Backed json integers held repo links) (hdistinct : repo.DistinctCreations)
    {records : List LinkRecord} (hperm : records.Perm ((held.filter query.wants).map Held.record)) :
    records.insertionSort (fun lhs rhs => lhs.createdAt ≤ rhs.createdAt)
      = (query.listed held).map Held.record := by
  let le : LinkRecord → LinkRecord → Prop := fun lhs rhs => lhs.createdAt ≤ rhs.createdAt
  have htrans : IsTrans LinkRecord le := ⟨fun _ _ _ => Int64.le_trans⟩
  have htotal : Std.Total le := ⟨fun lhs rhs => Int64.le_total lhs.createdAt rhs.createdAt⟩
  have hmap : (query.listed held).map Held.record
      = ((held.filter query.wants).map Held.record).insertionSort le := by
    refine List.map_insertionSort _ _ _ _ fun h hmem h' hmem' => ?_
    exact toTimeT_le_iff (hb.kept h (List.mem_of_mem_filter hmem)).createdAt.1
      (hb.kept h' (List.mem_of_mem_filter hmem')).createdAt.1
  rw [hmap]
  refine Sorting.insertionSort_congr hperm fun a ha b hb' hab hba => ?_
  obtain ⟨h, hmem, rfl⟩ := List.mem_map.1 (hperm.mem_iff.1 ha)
  obtain ⟨h', hmem', rfl⟩ := List.mem_map.1 (hperm.mem_iff.1 hb')
  rw [hb.eq_of_createdAt hdistinct (List.mem_of_mem_filter hmem) (List.mem_of_mem_filter hmem')
    (Int64.le_antisymm hab hba)]

theorem Backed.inMemory_listLinks (hb : Backed json integers held repo links) (hdistinct : repo.DistinctCreations) :
    repo.listLinks iteration query
      = (((query.listed held).drop query.offset.toNat).take query.limit.toNat).map Held.record := by
  rw [listLinks_eq, selectedRecords, hb.sort_eq query hdistinct (hb.visit_filter query iteration), List.map_take,
    List.map_drop]

end InMemory

/-- The rows of the links are mapped to their records. -/
theorem mapRows_rows {hs : List Held} (hkept : ∀ h ∈ hs, h.record.Kept json integers) :
    SqlMetadataRepository.mapRows json ((hs.map (Held.row json)).map (SqliteSession.rowFromSoci integers))
      = .ok (hs.map Held.record) := by
  induction hs with
  | nil => rfl
  | cons h hs ih =>
    have hhead := fromRow_row (hkept h List.mem_cons_self)
    have hrest := ih fun h' hmem => hkept h' (List.mem_cons_of_mem _ hmem)
    simp only [List.map_cons, SqlMetadataRepository.mapRows, hhead, hrest]
    rfl

theorem staticCastInt_eq {n : UInt64} (h : n.toNat < 2 ^ 31) : staticCastInt n = n.toNat :=
  Int32.toInt_ofInt_of_le (by omega) (by omega)

theorem Backed.sqlite_listLinks (hb : Backed json integers held repo links) {query : ListLinksQuery}
    (hlimit : query.limit.toNat < 2 ^ 31) (hoffset : query.offset.toNat < 2 ^ 31) :
    SqlMetadataRepository.listLinks json integers query links
      = ((((query.listed held).drop query.offset.toNat).take query.limit.toNat).map Held.record, none) := by
  have hfilter : links.filter (fun r => (query.owner.isNone || r.ownerId == query.owner) &&
      (query.includeInactive || r.isActive == 1)) = (held.filter query.wants).map (Held.row json) := by
    rw [hb.rows, List.filter_map]
    congr 1
    refine List.filter_congr fun h _ => ?_
    cases hactive : h.record.isActive <;> simp [ListLinksQuery.wants, Held.row, hactive]
  have horder : orderBy (fun r : LinksRow => r.createdAt) ((held.filter query.wants).map (Held.row json))
      = (query.listed held).map (Held.row json) := orderBy_image fun _ _ _ _ => Iff.rfl
  have hpage : page (staticCastInt query.limit) (staticCastInt query.offset) (query.listed held)
      = ((query.listed held).drop query.offset.toNat).take query.limit.toNat := by
    rw [staticCastInt_eq hlimit, staticCastInt_eq hoffset, page, if_neg (by omega)]
    rfl
  rw [SqlMetadataRepository.listLinks, SqliteSession.list, hfilter, horder, page_image, hpage, mapRows_rows]
  intro h hmem
  exact hb.kept h (ListLinksQuery.mem_listed (List.mem_of_mem_drop (List.mem_of_mem_take hmem)))

/-! ## Calls -/

namespace MetadataCall

/-- The times that a call hands over. -/
def times : MetadataCall → List TimePoint
  | .createLink request _ now => now :: request.expiresAt.toList
  | .updateLink record =>
    record.createdAt :: record.updatedAt :: (record.expiresAt.toList ++ record.deletedAt.toList)
  | _ => []

/-- Times in whole seconds, and links that were created at different times. -/
structure Proper (call : MetadataCall) (repo : InMemoryMetadataRepository) : Prop where
  whole : ∀ tp ∈ call.times, Whole tp
  distinct : repo.DistinctCreations

instance (call : MetadataCall) (repo : InMemoryMetadataRepository) : Decidable (call.Proper repo) :=
  -- by the list of the times: they are finitely many values, but too many to try
  have : Decidable (∀ tp ∈ call.times, Whole tp) := List.decidableBAll Whole call.times
  decidable_of_iff (_ ∧ _) ⟨fun h => ⟨h.1, h.2⟩, fun h => ⟨h.whole, h.distinct⟩⟩

/-- **What the columns can express.** The times fit the integers that are read, the texts and keys survive the
payload, an update keeps what has no column or is not set, and a page is asked for with `int` numbers. -/
def Expressed (json : Library T) (integers : SociIntegers) : MetadataCall → InMemoryMetadataRepository → Prop
  | .createLink request id now, _ => request.isValid = true →
    integers.Holds now ∧ (∀ tp ∈ request.expiresAt, integers.Holds tp) ∧ Expressible json id request.attributes
  | .updateLink record, repo => Expressible json record.id record.attributes ∧
    ∀ stored, repo.getByShortCode record.shortCode = some stored →
      record.createdAt = stored.createdAt ∧ record.deletedAt = none ∧ record.version = 1 ∧
        integers.Holds record.updatedAt ∧ ∀ tp ∈ record.expiresAt, integers.Holds tp
  | .listLinks query _, _ => query.limit.toNat < 2 ^ 31 ∧ query.offset.toNat < 2 ^ 31
  | _, _ => True

end MetadataCall

open MetadataCall

/-- Both answer alike, and the links they hold are the same again. -/
def Agrees (json : Library T) (integers : SociIntegers) (call : MetadataCall) (repo : InMemoryMetadataRepository)
    (links : Table LinksRow) : Prop :=
  (call.sqlite json integers links).1 = some (call.inMemory repo).1 ∧
    ∃ held, Backed json integers held (call.inMemory repo).2 (call.sqlite json integers links).2

/-- The link that a request creates. -/
def CreateLinkRequest.link (request : CreateLinkRequest) (id : Str) (now : TimePoint) : Held where
  record :=
    { id, shortCode := request.shortCode, targetUrl := request.targetUrl, createdAt := now, updatedAt := now,
      expiresAt := request.expiresAt, owner := request.owner, attributes := request.attributes,
      isActive := request.isActive }
  idColumn := id

/-- A request that is valid and can be expressed inserts the row of its link. -/
theorem sqlite_createLink {request : CreateLinkRequest} {id : Str} (hvalid : request.isValid = true)
    (hpayload : Expressible json id request.attributes) (now : TimePoint) (links : Table LinksRow) :
    SqlMetadataRepository.createLink json request id now links
      = match Sql.insert LinksRow.clash ((request.link id now).row json) links with
        | some links => (some (true, none), links)
        | none => (some (false, some .alreadyExists), links) := by
  obtain ⟨text, hwrite, -⟩ := deserialize_serialize hpayload
  have hunique : SqliteErrorMapper.mapException SqliteSession.uniqueFailed = .alreadyExists := by decide
  have hrow : (request.link id now).row json =
      { id, shortCode := request.shortCode, targetUrl := request.targetUrl, createdAt := toEpochSeconds now,
        updatedAt := toEpochSeconds now, expiresAt := request.expiresAt.map toEpochSeconds,
        isActive := if request.isActive then 1 else 0, ownerId := request.owner, attributesJson := some text } := by
    rw [← hwrite]
    rfl
  rw [hrow]
  simp only [SqlMetadataRepository.createLink, hvalid, SqlMetadataRowMapper.toCreateRow, hwrite,
    SqliteSession.insertLink, Option.map_some, Option.getD_some, Bool.not_true, Bool.false_eq_true, if_false, hunique]
  generalize Sql.insert _ _ links = inserted
  cases inserted <;> rfl

theorem Backed.createLink (hb : Backed json integers held repo links) {request : CreateLinkRequest} {id : Str}
    {now : TimePoint} (hwhole : ∀ tp ∈ (MetadataCall.createLink request id now).times, Whole tp)
    (hexpressed : (MetadataCall.createLink request id now).Expressed json integers repo) :
    Agrees json integers (.createLink request id now) repo links := by
  cases hvalid : request.isValid with
  | false =>
    have hmemory : repo.createLink request id now = .error .invalidArgument := by
      simp [InMemoryMetadataRepository.createLink, hvalid]
    have hsql : SqlMetadataRepository.createLink json request id now links
        = (some (false, some .invalidArgument), links) := by
      simp [SqlMetadataRepository.createLink, hvalid]
    simp only [Agrees, inMemory, sqlite, hmemory, hsql, changeAnswer, true_and]
    exact ⟨held, hb⟩
  | true =>
    obtain ⟨hnow, hexpires, hpayload⟩ := hexpressed hvalid
    have hsql := sqlite_createLink hvalid hpayload now links
    have hcode : (request.link id now).code = request.shortCode := rfl
    rw [hb.insert, hcode] at hsql
    cases hlookup : repo.byCode.lookup request.shortCode with
    | some stored =>
      have hmemory : repo.createLink request id now = .error .alreadyExists := by
        simp [InMemoryMetadataRepository.createLink, hvalid, hlookup]
      simp only [hlookup, Option.isSome_some, if_true] at hsql
      simp only [Agrees, inMemory, sqlite, hmemory, hsql, changeAnswer, true_and]
      exact ⟨held, hb⟩
    | none =>
      have hkept : (request.link id now).record.Kept json integers := by
        have hwhole_now : Whole now := hwhole now List.mem_cons_self
        refine ⟨⟨hwhole_now, hnow⟩, ⟨hwhole_now, hnow⟩, fun tp htp => ⟨hwhole tp ?_, hexpires tp htp⟩, hpayload,
          rfl, rfl⟩
        exact List.mem_cons_of_mem _ (Option.mem_toList.2 htp)
      have hmemory : repo.createLink request id now
          = .ok { byCode := repo.byCode.insert request.shortCode (request.link id now).record } := by
        simp [InMemoryMetadataRepository.createLink, hvalid, hlookup, CreateLinkRequest.link]
      simp only [hlookup, Option.isSome_none, Bool.false_eq_true, if_false] at hsql
      simp only [Agrees, inMemory, sqlite, hmemory, hsql, changeAnswer, true_and]
      exact ⟨held ++ [request.link id now], hb.append hlookup hkept⟩

/-- An update that can be expressed is one statement on the row with the code. -/
theorem sqlite_updateLink {record : LinkRecord} (hpayload : Expressible json record.id record.attributes)
    (links : Table LinksRow) :
    SqlMetadataRepository.updateLink json record links
      = (some (if count (·.shortCode == record.shortCode) links = 0 then (false, some .notFound) else (true, none)),
        update (·.shortCode == record.shortCode) (fun r =>
          { Held.row json ⟨record, r.id⟩ with shortCode := r.shortCode, createdAt := r.createdAt }) links) := by
  obtain ⟨text, hwrite, -⟩ := deserialize_serialize hpayload
  simp only [SqlMetadataRepository.updateLink, SqlMetadataRowMapper.toUpdateRow, hwrite, SqliteSession.updateLink,
    Option.map_some, Option.getD_some, Held.row]

theorem Backed.updateLink (hb : Backed json integers held repo links) {record : LinkRecord}
    (hwhole : ∀ tp ∈ (MetadataCall.updateLink record).times, Whole tp)
    (hexpressed : (MetadataCall.updateLink record).Expressed json integers repo) :
    Agrees json integers (.updateLink record) repo links := by
  obtain ⟨hpayload, hcolumns⟩ := hexpressed
  have hsql := sqlite_updateLink hpayload links
  have hcount := hb.count record.shortCode
  cases hlookup : repo.byCode.lookup record.shortCode with
  | none =>
    have hmemory : repo.updateLink record = .error .notFound := by
      simp [InMemoryMetadataRepository.updateLink, hlookup]
    -- no row has the code, so the statement changes none
    rw [if_pos (hcount.2 hlookup), update_of_count_eq_zero (hcount.2 hlookup)] at hsql
    simp only [Agrees, inMemory, sqlite, hmemory, hsql, changeAnswer, true_and]
    exact ⟨held, hb⟩
  | some stored =>
    obtain ⟨hcreated, hdeleted, hversion, hupdated, hexpires⟩ := hcolumns stored hlookup
    have hthere : repo.byCode.lookup record.shortCode ≠ none := by simp [hlookup]
    have hmemory : repo.updateLink record = .ok { byCode := repo.byCode.insert record.shortCode record } := by
      simp [InMemoryMetadataRepository.updateLink, hlookup]
    have hstored : ∀ h ∈ held, h.code = record.shortCode → h.record = stored := by
      intro h hmem hcode
      have := hb.mem_code hmem
      rw [hcode, hlookup] at this
      exact (Option.some.inj this).symm
    have hkept : record.Kept json integers := by
      have hcreatedWhole : Whole record.createdAt := hwhole _ List.mem_cons_self
      have hupdatedWhole : Whole record.updatedAt := hwhole _ (List.mem_cons_of_mem _ List.mem_cons_self)
      have hexpiresWhole : ∀ tp ∈ record.expiresAt, Whole tp := by
        intro tp htp
        refine hwhole tp (List.mem_cons_of_mem _ (List.mem_cons_of_mem _ (List.mem_append_left _ ?_)))
        exact Option.mem_toList.2 htp
      obtain ⟨h, hmem, hcode, hrecord⟩ := (hb.index.lookup _ _).1 hlookup
      have hholds : integers.Holds record.createdAt := by
        rw [hcreated, ← hrecord]
        exact (hb.kept h hmem).createdAt.2
      exact ⟨⟨hcreatedWhole, hholds⟩, ⟨hupdatedWhole, hupdated⟩, fun tp htp => ⟨hexpiresWhole tp htp, hexpires tp htp⟩,
        hpayload, hdeleted, hversion⟩
    rw [if_neg fun hzero => hthere (hcount.1 hzero)] at hsql
    simp only [Agrees, inMemory, sqlite, hmemory, hsql, changeAnswer, true_and]
    refine ⟨_, hb.update hthere hkept fun h hmem hcode => ?_⟩
    have hsame : h.record.createdAt = record.createdAt := by rw [hstored h hmem hcode, hcreated]
    have hcode' : h.record.shortCode = record.shortCode := hcode
    simp only [Held.row, hsame, hcode']

theorem Backed.getByShortCode (hb : Backed json integers held repo links) (code : Str) :
    Agrees json integers (.getByShortCode code) repo links := by
  refine ⟨?_, held, hb⟩
  have hlookup : repo.getByShortCode code = (Sql.first (Held.code · == code) held).map Held.record :=
    hb.index.lookup_first code
  simp only [sqlite, inMemory, SqlMetadataRepository.getByShortCode, SqliteSession.selectByShortCode, hb.first code,
    hlookup]
  cases hfirst : Sql.first (Held.code · == code) held with
  | none => rfl
  | some h =>
    have hread := fromRow_row (hb.kept h (first_eq_some hfirst).1)
    simp only [Option.map_some, hread]
    rfl

theorem Backed.linkExists (hb : Backed json integers held repo links) (code : Str) :
    Agrees json integers (.linkExists code) repo links := by
  refine ⟨?_, held, hb⟩
  have hexists : SqlMetadataRepository.linkExists code links = repo.linkExists code := by
    rw [Bool.eq_iff_iff, InMemoryMetadataRepository.linkExists, ← Option.ne_none_iff_isSome,
      SqlMetadataRepository.linkExists, SqliteSession.linkExists, decide_eq_true_iff, Nat.pos_iff_ne_zero]
    exact not_congr (hb.count code)
  simp only [sqlite, inMemory, hexists]

/-- **One call.** -/
theorem Backed.agrees (hb : Backed json integers held repo links) {call : MetadataCall} (hproper : call.Proper repo)
    (hexpressed : call.Expressed json integers repo) : Agrees json integers call repo links := by
  cases call with
  | createLink request id now => exact hb.createLink hproper.whole hexpressed
  | updateLink record => exact hb.updateLink hproper.whole hexpressed
  | deleteLink code => exact ⟨rfl, _, hb.delete code⟩
  | getByShortCode code => exact hb.getByShortCode code
  | linkExists code => exact hb.linkExists code
  | listLinks query iteration =>
    refine ⟨?_, held, hb⟩
    simp only [sqlite, inMemory, hb.sqlite_listLinks hexpressed.1 hexpressed.2,
      hb.inMemory_listLinks query iteration hproper.distinct]

/-- **The backends are interchangeable** as far as the columns reach: in every run with times in whole seconds and
links created at different times, whose calls the columns can express, SQLite answers every call as the in-memory
repository does: the same flag, error code and records, and no exception. -/
theorem backends_agree (json : Library T) (integers : SociIntegers) {calls : List MetadataCall}
    (hproper : Runs.Along inMemory Proper {} calls)
    (hexpressed : Runs.Along inMemory (Expressed json integers) {} calls) :
    Runs.answers (sqlite json integers) [] calls
      = (Runs.answers inMemory {} calls).map fun answer => ⟨answer.1, some answer.2⟩ := by
  have hstart : ∃ held, Backed json integers held {} [] := ⟨[], .empty⟩
  have hagree : (Runs.answers inMemory {} calls).map
        (fun answer => (⟨answer.1, some answer.2⟩ : (call : MetadataCall) × Option call.Answer))
      = (Runs.answers (sqlite json integers) [] calls).map id := by
    refine Runs.answers_agree_along (R := fun repo links => ∃ held, Backed json integers held repo links) hstart
      (hproper.and hexpressed) ?_
    rintro call repo links ⟨held, hb⟩ ⟨hcall, hcolumns⟩
    obtain ⟨hanswer, hnext⟩ := hb.agrees hcall hcolumns
    exact ⟨by rw [hanswer]; rfl, hnext⟩
  rw [hagree, List.map_id]

/-- A request with defaults. -/
def plainRequest : CreateLinkRequest where
  shortCode := "abc"
  targetUrl := "https://a"

/-- The link of the request, created in the first second. -/
def plainRecord : LinkRecord := (plainRequest.link "id1" (fromTimeT 1)).record

/-- Each kind of call. -/
noncomputable def plainCalls : List MetadataCall :=
  [.createLink plainRequest "id1" (fromTimeT 1),
    .updateLink { plainRecord with targetUrl := "https://b", updatedAt := fromTimeT 2 },
    .listLinks {} someOrder, .deleteLink "abc", .getByShortCode "abc"]

theorem backends_agree_sample :
    Runs.answers (sqlite Format.json.library .dtInteger) [] plainCalls
      = (Runs.answers inMemory {} plainCalls).map fun answer => ⟨answer.1, some answer.2⟩ := by
  have hpayload : Expressible Format.json.library plainRecord.id plainRecord.attributes := ⟨rfl, by decide⟩
  have hproper : Runs.Along inMemory Proper {} plainCalls := by decide +kernel
  have hexpressed : Runs.Along inMemory (Expressed Format.json.library .dtInteger) {} plainCalls := by
    refine ⟨fun _ => ⟨by decide +kernel, by simp [plainRequest], hpayload⟩, ⟨hpayload, ?_⟩, ?_, trivial, trivial,
      trivial⟩
    · intro stored hstored
      obtain rfl : plainRecord = stored := Option.some.inj hstored
      exact ⟨rfl, rfl, rfl, by decide +kernel, fun tp htp => by cases htp⟩
    · exact ⟨by decide, by decide⟩
  exact backends_agree Format.json.library .dtInteger hproper hexpressed

/-- A link that is updated with a time of deletion. -/
def softDeletion : List MetadataCall :=
  [.createLink plainRequest "id1" (fromTimeT 1),
    .updateLink { plainRecord with updatedAt := fromTimeT 2, deletedAt := some (fromTimeT 2) }]

/-- **SQLite forgets the time of deletion**, which has no column: the record that is read back has none. -/
theorem deletion_time_lost :
    Runs.Along inMemory Proper {} (softDeletion ++ [.getByShortCode "abc"]) ∧
      (inMemory (.getByShortCode "abc") (Runs.final inMemory {} softDeletion)).1
        = (some { plainRecord with updatedAt := fromTimeT 2, deletedAt := some (fromTimeT 2) }, none) ∧
      (sqlite Format.json.library .dtInteger (.getByShortCode "abc")
          (Runs.final (sqlite Format.json.library .dtInteger) [] softDeletion)).1
        = some (some { plainRecord with updatedAt := fromTimeT 2 }, none) := by
  decide +kernel

end UrlShortener.Storage

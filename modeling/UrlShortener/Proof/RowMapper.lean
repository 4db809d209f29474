import UrlShortener.Proof.Backends

/-!
# Round trip of the row mapper

A request is written to a row by `ToCreateRow` and read back by `FromRow`. The attributes pass through a property tree,
whose `put` takes a key as a path; the library is `Format.library`, with any format for its trees.

* `isPlainKey_of_readBack`: attributes that are read back have keys that are no paths. A key with a dot is never the
  key of a child, and the empty key names the tree itself.
* `fromRow_toCreateRow_iff`: **the record is read back exactly when the keys of the attributes are no paths.**
-/

namespace UrlShortener.Storage

open PropertyTree Sql

/-- The record is what was asked for, with its times in whole seconds. -/
structure Created (request : CreateLinkRequest) (id : Str) (now : TimePoint) (record : LinkRecord) : Prop where
  id : record.id = id
  shortCode : record.shortCode = request.shortCode
  targetUrl : record.targetUrl = request.targetUrl
  owner : record.owner = request.owner
  isActive : record.isActive = request.isActive
  attributes : record.attributes = request.attributes
  createdAt : record.createdAt = wholeSeconds now
  updatedAt : record.updatedAt = wholeSeconds now
  expiresAt : record.expiresAt = request.expiresAt.map wholeSeconds

/-- The tree that the attributes are put into. -/
def attributesTree (attributes : UnorderedMap Str Str) : Ptree :=
  (sortedItems attributes).foldl (fun (t : Ptree) item => t.put item.1 item.2) {}

/-- The attributes as they come back. -/
def attributesReadBack (attributes : UnorderedMap Str Str) : UnorderedMap Str Str :=
  toMap ((attributesTree attributes).children.toList.map fun kv => (kv.1, kv.2.data))

section Keys

variable {attributes : UnorderedMap Str Str}

theorem forall_sortedItems {P : Str → Prop} :
    (∀ item ∈ sortedItems attributes, P item.1) ↔ ∀ e ∈ attributes.entries, P e.1 := by
  constructor
  · rintro h ⟨key, value⟩ he
    exact h (key, value) (mem_sortedItems.2 (Finmap.lookup_eq_some_iff.2 he))
  · intro h item hitem
    exact h ⟨item.1, item.2⟩ (Finmap.lookup_eq_some_iff.1 (mem_sortedItems.1 hitem))

/-- A key that is read back is the first step of a path that was put. -/
theorem exists_path_of_readBack {key value : Str}
    (h : (attributesReadBack attributes).lookup key = some value) :
    ∃ item ∈ sortedItems attributes, item.1 ≠ [] ∧ (fragments item.1).head? = some key := by
  obtain ⟨kv, hkv, heq⟩ := List.mem_map.1 (mem_of_lookup_toMap h)
  refine Ptree.mem_keys_foldl_put (List.mem_map.2 ⟨kv, hkv, ?_⟩)
  exact (Prod.mk.inj heq).1

/-- **Attributes that are read back have plain keys.** -/
theorem isPlainKey_of_readBack (h : attributesReadBack attributes = attributes) :
    ∀ item ∈ sortedItems attributes, isPlainKey item.1 = true := by
  have hpath : ∀ item ∈ sortedItems attributes,
      ∃ item' ∈ sortedItems attributes, item'.1 ≠ [] ∧ (fragments item'.1).head? = some item.1 := by
    intro item hitem
    have hvalue := mem_sortedItems.1 hitem
    rw [← h] at hvalue
    exact exists_path_of_readBack hvalue
  have hdot : ∀ item ∈ sortedItems attributes, '.' ∉ item.1 := by
    intro item hitem
    obtain ⟨item', -, -, hhead⟩ := hpath item hitem
    exact not_mem_fragment (List.mem_of_mem_head? hhead)
  intro item hitem
  refine isPlainKey_iff.2 ⟨?_, hdot item hitem⟩
  -- the path is a key too, so it has no dot and is its only step
  obtain ⟨item', hitem', hne, hhead⟩ := hpath item hitem
  rw [fragments_plain (isPlainKey_iff.2 ⟨hne, hdot item' hitem'⟩), List.head?_cons, Option.some.injEq] at hhead
  rwa [← hhead]

end Keys

/-- Attributes whose keys are no paths are leaves. -/
theorem attributesTree_of_plain {attributes : UnorderedMap Str Str}
    (h : ∀ item ∈ sortedItems attributes, isPlainKey item.1 = true) :
    attributesTree attributes = ⟨[], .ofLeaves (sortedItems attributes)⟩ :=
  Ptree.foldl_put h (sortedItems_keys_nodup attributes)

theorem attributesReadBack_of_plain {attributes : UnorderedMap Str Str}
    (h : ∀ item ∈ sortedItems attributes, isPlainKey item.1 = true) : attributesReadBack attributes = attributes := by
  rw [attributesReadBack, attributesTree_of_plain h, Children.toList_ofLeaves, List.map_map]
  exact (congrArg toMap (List.map_id _)).trans (foldl_insert_sortedItems attributes)

/-- The record of a request with these attributes. -/
def createdRecord (request : CreateLinkRequest) (id : Str) (now : TimePoint) (attributes : UnorderedMap Str Str) :
    LinkRecord where
  id := id
  shortCode := request.shortCode
  targetUrl := request.targetUrl
  createdAt := wholeSeconds now
  updatedAt := wholeSeconds now
  expiresAt := request.expiresAt.map wholeSeconds
  owner := request.owner
  attributes := attributes
  isActive := request.isActive

theorem created_createdRecord_iff {request : CreateLinkRequest} {id : Str} {now : TimePoint}
    {attributes : UnorderedMap Str Str} :
    Created request id now (createdRecord request id now attributes) ↔ attributes = request.attributes := by
  constructor
  · intro h
    exact h.attributes
  · intro h
    exact ⟨rfl, rfl, rfl, rfl, rfl, h, rfl, rfl, rfl⟩

section Mapper

variable {json : Format} {request : CreateLinkRequest} {id : Str} {now : TimePoint}

theorem payloadTree_eq (id : Str) (attributes : UnorderedMap Str Str) :
    payloadTree json.library id attributes = ⟨[], .child "id" id .none
      (.child "attributes" (attributesTree attributes).data (attributesTree attributes).children .none)⟩ :=
  Ptree.addChild_put (by decide) id "attributes" (attributesTree attributes)

theorem payloadTree_isWritable (json : Format) {attributes : UnorderedMap Str Str}
    (h : ∀ item ∈ sortedItems attributes, isPlainKey item.1 = true) (id : Str) :
    (payloadTree json.library id attributes).isWritable = true := by
  simp [payloadTree_eq, attributesTree_of_plain h, Ptree.isWritable, Children.unmixed, Children.unmixed_ofLeaves]

/-- What is read from the payload: the keys and the data of the children. -/
theorem deserializePayload_of_read {text id : Str} {attributes : UnorderedMap Str Str}
    (h : json.read text = some (payloadTree json.library id attributes)) :
    deserializePayload json.library text = some (id, attributesReadBack attributes) := by
  have hread : json.library.read text = some (payloadTree json.library id attributes) := h
  rw [deserializePayload, hread, payloadTree_eq]
  rfl

/-- `write_json` throws, and the mapper with it. -/
theorem toCreateRow_of_not_writable (h : ¬(payloadTree json.library id request.attributes).isWritable = true) :
    SqlMetadataRowMapper.toCreateRow json.library request id now = none := by
  have hwrite : json.library.write (payloadTree json.library id request.attributes) = none := if_neg h
  rw [SqlMetadataRowMapper.toCreateRow, serializePayload, hwrite]
  rfl

/-- The row of a request whose payload is read back as a tree. -/
theorem exists_row_of_writable (now : TimePoint)
    (hwritable : (payloadTree json.library id request.attributes).isWritable = true)
    (hread : json.read (json.write (payloadTree json.library id request.attributes)) =
      some (payloadTree json.library id request.attributes)) :
    ∃ row, SqlMetadataRowMapper.toCreateRow json.library request id now = some row ∧
      SqlMetadataRowMapper.fromRow json.library row =
        .ok (createdRecord request id now (attributesReadBack request.attributes)) := by
  have hactive : ((if request.isActive then 1 else 0 : Int) != 0) = request.isActive := by
    cases request.isActive <;> rfl
  have htimes : ∀ tp, fromEpochSeconds (toEpochSeconds tp) = wholeSeconds tp := fromTimeT_toTimeT_eq
  have hexpiry : (request.expiresAt.map toEpochSeconds).map fromEpochSeconds = request.expiresAt.map wholeSeconds := by
    rw [Option.map_map]
    exact Option.map_congr fun tp _ => htimes tp
  have hwrite : json.library.write (payloadTree json.library id request.attributes) =
      some (json.write (payloadTree json.library id request.attributes)) := if_pos hwritable
  rw [SqlMetadataRowMapper.toCreateRow, serializePayload, hwrite]
  refine ⟨_, rfl, ?_⟩
  simp only [SqlMetadataRowMapper.fromRow, deserializePayload_of_read hread, hactive, htimes, hexpiry, createdRecord]

end Mapper

/-- **The row mapper inverts itself exactly on plain keys.** The format reads back every tree that it can express. -/
theorem fromRow_toCreateRow_iff (json : Format)
    (hjson : ∀ t : Ptree, t.isWritable = true → json.read (json.write t) = some t)
    (request : CreateLinkRequest) (id : Str) (now : TimePoint) :
    (∃ row record, SqlMetadataRowMapper.toCreateRow json.library request id now = some row ∧
      SqlMetadataRowMapper.fromRow json.library row = .ok record ∧ Created request id now record) ↔
    ∀ e ∈ request.attributes.entries, isPlainKey e.1 = true := by
  rw [← forall_sortedItems (P := fun key => isPlainKey key = true)]
  constructor
  · rintro ⟨row, record, hrow, hrecord, hcreated⟩
    by_cases hwritable : (payloadTree json.library id request.attributes).isWritable = true
    · obtain ⟨row', hrow', hrecord'⟩ := exists_row_of_writable now hwritable (hjson _ hwritable)
      rw [hrow] at hrow'
      cases hrow'
      rw [hrecord] at hrecord'
      cases hrecord'
      exact isPlainKey_of_readBack (created_createdRecord_iff.1 hcreated)
    · rw [toCreateRow_of_not_writable hwritable] at hrow
      cases hrow
  · intro hplain
    have hwritable := payloadTree_isWritable json hplain id
    obtain ⟨row, hrow, hrecord⟩ := exists_row_of_writable now hwritable (hjson _ hwritable)
    exact ⟨row, _, hrow, hrecord, created_createdRecord_iff.2 (attributesReadBack_of_plain hplain)⟩

theorem sortedItems_singleton (key value : Str) :
    sortedItems ((∅ : UnorderedMap Str Str).insert key value) = [(key, value)] := by
  have hentries : ((∅ : UnorderedMap Str Str).insert key value).entries = {⟨key, value⟩} := rfl
  rw [sortedItems, hentries, Multiset.map_singleton, Multiset.sort_singleton]
  rfl

/-- A link with one attribute. -/
def taggedRequest (key value : String) : CreateLinkRequest where
  shortCode := "abc"
  targetUrl := "https://a.example/"
  attributes := (∅ : UnorderedMap Str Str).insert key.toList value.toList

theorem fromRow_toCreateRow_sample :
    ∃ row record, SqlMetadataRowMapper.toCreateRow Format.json.library (taggedRequest "utm" "mail") "1"
        1500000000 = some row ∧
      SqlMetadataRowMapper.fromRow Format.json.library row = .ok record ∧
      Created (taggedRequest "utm" "mail") "1" 1500000000 record :=
  (fromRow_toCreateRow_iff Format.json Format.json_read_write (taggedRequest "utm" "mail") "1" 1500000000).2
    (by decide)

/-- A key with a dot is put below another one, and is not found again. -/
theorem dotted_key_lost :
    (taggedRequest "utm.source" "mail").attributes.lookup "utm.source".toList = some "mail".toList ∧
    ∃ row record, SqlMetadataRowMapper.toCreateRow Format.json.library (taggedRequest "utm.source" "mail") "1"
        0 = some row ∧
      SqlMetadataRowMapper.fromRow Format.json.library row = .ok record ∧
      record.attributes.lookup "utm.source".toList = none ∧ record.attributes.lookup "utm".toList = some [] := by
  have htree : attributesTree (taggedRequest "utm.source" "mail").attributes =
      ⟨[], .child "utm" [] (.child "source" "mail" .none .none) .none⟩ := by
    rw [attributesTree, taggedRequest, sortedItems_singleton]
    decide
  have hwritable : (payloadTree Format.json.library "1"
      (taggedRequest "utm.source" "mail").attributes).isWritable = true := by
    rw [payloadTree_eq, htree]
    decide
  obtain ⟨row, hrow, hrecord⟩ := exists_row_of_writable 0 hwritable (Format.json_read_write _ hwritable)
  refine ⟨by decide, row, _, hrow, hrecord, ?_, ?_⟩
  · rw [createdRecord, attributesReadBack, htree]
    decide
  · rw [createdRecord, attributesReadBack, htree]
    decide

end UrlShortener.Storage

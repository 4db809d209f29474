import UrlShortener.Proof.Fallback
import UrlShortener.Proof.UriStore

/-!
# The next start

`deserialize` ends the process when a record lacks its URI or its content type, and texts are written to the file
as they are.

* `mem_uris_step`: an operation adds no entry to the URI store but the one that a request saves.
* `restart_loads`: **if no text in the store has a later line that ends a record or empties a label, the file that is
  written after a run is loaded again**, in whatever order the store is visited.
-/

namespace UrlShortener

open Text Runs

/-! ## What a run saves -/

/-- The content type that a `POST` is saved with. -/
def savedContentType (call : Call) : Str :=
  match call.req.contentType with
  | some (c :: t) => c :: t
  | _ => "application/octet-stream"

/-- The entry that an operation saves in the URI store, if it saves one. -/
def Op.savedEntry (op : Op) : Option UriEntry :=
  match op with
  | .command _ _ _ => none
  | .request call =>
    match call.req.method, dispatch applicationRoutes call.req.method call.req.target with
    | .post, .invoke .fallbackUriStore _ =>
      if isReservedFallbackPath call.req.target then none
      else some ⟨call.req.target, call.req.body, savedContentType call⟩
    | _, _ => none

variable {op : Op} {w : World} {call : Call} {context : RouteContext} {k : Str} {v : Str × Str}

theorem lookup_insert_cases {m : UriMap} {uri : Str} {x : Str × Str} (h : (m.insert uri x).lookup k = some v) :
    m.lookup k = some v ∨ (⟨k, v⟩ : UriEntry) = ⟨uri, x⟩ := by
  by_cases hk : k = uri
  · subst hk
    rw [Finmap.lookup_insert, Option.some.injEq] at h
    exact .inr (by rw [h])
  · rw [Finmap.lookup_insert_of_ne _ hk] at h
    exact .inl h

theorem lookup_deleteData {m : UriMap} (uri : Str) (h : (m.deleteData uri).2.lookup k = some v) :
    m.lookup k = some v := by
  unfold UriMap.deleteData at h
  split at h
  · by_cases hk : k = uri
    · subst hk
      rw [Finmap.lookup_erase] at h
      cases h
    · rwa [Finmap.lookup_erase_ne hk] at h
  · exact h

/-- A `POST` is saved; nothing else adds an entry. -/
theorem handleApplicationRequest_uris (h : (handleApplicationRequest call w).2.uris.lookup k = some v) :
    w.uris.lookup k = some v ∨
      call.req.method = .post ∧ (⟨k, v⟩ : UriEntry) = ⟨call.req.target, call.req.body, savedContentType call⟩ := by
  unfold handleApplicationRequest at h
  simp only at h
  split at h
  · split at h
    · exact .inl h
    · exact .inl h
  · rename_i hmethod
    rcases lookup_insert_cases h with h | h
    · exact .inl h
    · exact .inr ⟨hmethod, h⟩
  · split at h
    · rename_i uris hdelete
      exact .inl (lookup_deleteData call.req.target (by rwa [hdelete]))
    · exact .inl h
  · exact .inl h

/-- **No operation adds an entry but the one it saves.** -/
theorem mem_uris_step (h : (step op w).2.uris.lookup k = some v) :
    w.uris.lookup k = some v ∨ op.savedEntry = some ⟨k, v⟩ := by
  cases op with
  | command config env c => exact .inl h
  | request call =>
    change (handleShortenerRequest call w).2.uris.lookup k = some v at h
    cases hd : dispatch applicationRoutes call.req.method call.req.target with
    | error status code message =>
      rw [handle_error hd] at h
      exact .inl h
    | invoke handler context =>
      rw [handle_invoke hd] at h
      by_cases hroot : handler = .rootRedirect
      · -- its route is for `GET` only
        subst hroot
        have hget := (rootRedirect_invoke hd).1
        have happ : (handleApplicationRequest call w).2.uris.lookup k = some v → w.uris.lookup k = some v := by
          intro h
          rcases handleApplicationRequest_uris h with h | ⟨hpost, -⟩
          · exact h
          · rw [hget] at hpost
            cases hpost
        simp only [Handler.run, handleRootRedirect, hget, ne_eq, not_true_eq_false, if_false] at h
        split at h
        · exact .inl (happ h)
        · split at h
          · exact .inl (happ h)
          · exact .inl (by rwa [serveLink_uris _ w.uris] at h)
      · by_cases hfallback : handler = .fallbackUriStore
        · subst hfallback
          simp only [Handler.run, handleFallbackUriStore] at h
          split at h
          · exact .inl h
          · rename_i hreserved
            rcases handleApplicationRequest_uris h with h | ⟨hpost, heq⟩
            · exact .inl h
            · rw [hpost] at hd
              simp only [Op.savedEntry, hpost, hd, if_neg hreserved, heq, or_true]
        · exact .inl (by rwa [run_uris hroot hfallback w w.uris] at h)

/-! ## Texts that look like nothing but text -/

/-- A line that ends a record, or a label without a value. -/
def isForged (line : Str) : Bool :=
  line == "RecordEnd" || line == "URI:" || line == "Content-Type:"

/-- No line but the first is forged. -/
def Orderly (text : Str) : Prop := ∀ line ∈ (text.splitOn '\n').tail, isForged line = false

/-- The texts that are written for an entry. The content type loses its trailing blanks. -/
structure OrderlyEntry (e : UriEntry) : Prop where
  uri : Orderly e.1
  data : Orderly e.2.1
  contentType : Orderly (cleanData e.2.2)

/-! ## Loading -/

/-- `s'` is set wherever `s` is. -/
structure LoadState.Keeps (s s' : LoadState) : Prop where
  uri : s.uri ≠ [] → s'.uri ≠ []
  contentType : s.contentType ≠ [] → s'.contentType ≠ []

/-- What follows a label in a line that is not the label alone. -/
theorem drop_ne_nil {label line : Str} (hstart : startsWith line label = true) (hne : line ≠ label) :
    line.drop label.length ≠ [] := by
  obtain ⟨t, rfl⟩ := List.isPrefixOf_iff_prefix.1 hstart
  rw [List.drop_left]
  rintro rfl
  exact hne (List.append_nil _)

theorem loadLine_keeps {line : Str} (h : isForged line = false) (s : LoadState) :
    ∃ s', loadLine s line = some s' ∧ s.Keeps s' := by
  simp only [isForged, Bool.or_eq_false_iff, beq_eq_false_iff_ne] at h
  obtain ⟨⟨hend, huri⟩, htype⟩ := h
  unfold loadLine
  split
  · rename_i hstart
    exact ⟨_, rfl, fun _ => drop_ne_nil hstart huri, id⟩
  split
  · rename_i hstart
    exact ⟨_, rfl, id, fun _ => drop_ne_nil hstart htype⟩
  split
  · exact ⟨_, rfl, id, id⟩
  · exact ⟨s, rfl, id, id⟩

theorem loadLines_keeps {lines : List Str} (h : ∀ line ∈ lines, isForged line = false) (s : LoadState) :
    ∃ s', loadLines lines s = some s' ∧ s.Keeps s' := by
  induction lines generalizing s with
  | nil => exact ⟨s, rfl, id, id⟩
  | cons line lines ih =>
    obtain ⟨s₁, h₁, hkeeps₁⟩ := loadLine_keeps (h line List.mem_cons_self) s
    obtain ⟨s₂, h₂, hkeeps₂⟩ := ih (fun l hl => h l (List.mem_cons_of_mem _ hl)) s₁
    refine ⟨s₂, ?_, hkeeps₂.uri ∘ hkeeps₁.uri, hkeeps₂.contentType ∘ hkeeps₁.contentType⟩
    rw [loadLines, h₁, Option.bind_some, h₂]

/-- The text after a label is loaded: its first line as the label says, the rest without harm. -/
theorem loadLines_orderly (label : Str) {text : Str} (hlabel : '\n' ∉ label) (h : Orderly text) (s : LoadState) :
    ∃ shown, ∀ s₁, loadLine s (label ++ shown) = some s₁ →
      ∃ s', loadLines ((label ++ text).splitOn '\n') s = some s' ∧ s₁.Keeps s' := by
  obtain ⟨first, later, hsplit⟩ := List.exists_cons_of_ne_nil (List.splitOn_ne_nil '\n' text)
  unfold Orderly at h
  rw [hsplit, List.tail_cons] at h
  refine ⟨first, fun s₁ h₁ => ?_⟩
  obtain ⟨s', hs', hkeeps⟩ := loadLines_keeps h s₁
  refine ⟨s', ?_, hkeeps⟩
  rw [splitOn_append_of_not_mem hlabel, hsplit, List.modifyHead_cons, loadLines, h₁, Option.bind_some, hs']

/-- **An orderly record is loaded**, and leaves the variables of the loop empty. -/
theorem loadLines_orderlyEntry {e : UriEntry} (h : OrderlyEntry e) (rest : Str) (s : LoadState) :
    ∃ m, loadLines (getLines (serializeEntry e ++ rest)) s = loadLines (getLines rest) { map := m } := by
  obtain ⟨uri, huri⟩ := loadLines_orderly "URI: ".toList (by decide) h.uri s
  obtain ⟨s₁, h₁, hkeeps₁⟩ := huri _ (loadLine_uri s uri)
  obtain ⟨data, hdata⟩ := loadLines_orderly "Content-Type: ".toList (by decide) h.data s₁
  obtain ⟨s₂, h₂, hkeeps₂⟩ := hdata _ (loadLine_contentType s₁ data)
  obtain ⟨type, htype⟩ := loadLines_orderly "Data: ".toList (by decide) h.contentType s₂
  obtain ⟨s₃, h₃, hkeeps₃⟩ := htype _ (loadLine_data s₂ type)
  -- both variables are set when the end of the record is reached
  have hset : s₃.uri ≠ [] ∧ s₃.contentType ≠ [] :=
    ⟨hkeeps₃.uri (hkeeps₂.uri (hkeeps₁.uri (List.cons_ne_nil _ _))),
      hkeeps₃.contentType (hkeeps₂.contentType (List.cons_ne_nil _ _))⟩
  have hend : loadLine s₃ "RecordEnd".toList =
      some { map := s₃.map.insert s₃.uri (s₃.contentType, s₃.data) } := if_pos hset
  have hlast : "RecordEnd".toList.splitOn '\n' = ["RecordEnd".toList] := List.splitOn_eq_singleton (by decide)
  refine ⟨s₃.map.insert s₃.uri (s₃.contentType, s₃.data), ?_⟩
  rw [serializeEntry_lines, getLines_append, getLines_append, getLines_append, getLines_append, hlast]
  rw [loadLines_append, h₁, Option.bind_some, loadLines_append, h₂, Option.bind_some, loadLines_append, h₃,
    Option.bind_some, List.singleton_append, loadLines, hend, Option.bind_some]

theorem loadLines_orderlyEntries {entries : List UriEntry} (h : ∀ e ∈ entries, OrderlyEntry e) (s : LoadState) :
    (loadLines (getLines (serialize entries)) s).isSome := by
  induction entries generalizing s with
  | nil => rfl
  | cons e entries ih =>
    obtain ⟨m, hm⟩ := loadLines_orderlyEntry (h e List.mem_cons_self) (serialize entries) s
    rw [serialize, List.flatMap_cons]
    exact hm ▸ ih (fun e he => h e (List.mem_cons_of_mem _ he)) { map := m }

/-! ## Runs -/

/-- Every entry of the store was there at the start, or is one that an operation of the run saved. -/
theorem after_uris_saved (w : World) (ops : List Op) :
    ∀ k v, (after (fun op w => (step op w).2) w ops).uris.lookup k = some v →
      w.uris.lookup k = some v ∨ ∃ op ∈ ops, op.savedEntry = some ⟨k, v⟩ := by
  refine after_invariant_mem (P := fun w' : World => ∀ k v, w'.uris.lookup k = some v →
    w.uris.lookup k = some v ∨ ∃ op ∈ ops, op.savedEntry = some ⟨k, v⟩) (fun op hop w' hw k v h => ?_) ?_
  · rcases mem_uris_step h with h | h
    · exact hw k v h
    · exact .inr ⟨op, hop, h⟩
  · exact fun k v h => .inl h

/-- **What the store may hold at the end of a run so that the next start succeeds.** -/
theorem restart_loads (ops : List Op) (entries : List UriEntry) (h : (worldAfter ops).uris.Iterates entries)
    (horderly : ∀ k v, (worldAfter ops).uris.lookup k = some v → OrderlyEntry ⟨k, v⟩) :
    ∃ m, deserialize (serialize entries) = some m := by
  have hentries : ∀ e ∈ entries, OrderlyEntry e := fun e he => horderly e.1 e.2 (h.mem_iff.1 he)
  obtain ⟨s, hs⟩ := Option.isSome_iff_exists.1 (loadLines_orderlyEntries hentries {})
  exact ⟨s.map, by rw [deserialize, hs]; rfl⟩

/-- `POST /foo` with a body whose second line ends the record. -/
def forgingPost : Op :=
  .request { config := {}, env := .still,
             req := { method := .post, target := "/foo", contentType := some "text/plain",
                      body := "x\nRecordEnd" } }

/-- What a `DELETE` has removed does no harm. -/
theorem restart_loads_sample :
    ∃ m, deserialize (serialize [⟨"/foo", ("x", "text/plain")⟩]) = some m := by
  have hstore : (worldAfter [forgingPost, sampleDelete, samplePost]).uris.Iterates
      [⟨"/foo", ("x", "text/plain")⟩] := rfl
  refine restart_loads [forgingPost, sampleDelete, samplePost] _ hstore fun k v hlookup => ?_
  have hentry : (⟨k, v⟩ : UriEntry) ∈ _ := hstore.mem_iff.2 hlookup
  have hline : ∀ text : Str, '\n' ∉ text → Orderly text := by
    intro text h line hline
    rw [List.splitOn_eq_singleton h] at hline
    cases hline
  rw [List.mem_singleton.1 hentry]
  exact ⟨hline _ (by decide), hline _ (by decide), hline _ (by decide)⟩

/-- A body with the line `RecordEnd` ends the next start. -/
theorem forged_end_exits :
    (worldAfter [forgingPost]).uris.Iterates
      [⟨"/foo", ("x\nRecordEnd", "text/plain")⟩] ∧
    deserialize (serialize [⟨"/foo", ("x\nRecordEnd", "text/plain")⟩]) = none :=
  ⟨rfl, rfl⟩

end UrlShortener

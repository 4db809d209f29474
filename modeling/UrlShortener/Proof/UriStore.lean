import UrlShortener.Spec.System
import UrlShortener.Text.Lines
import Mathlib.Data.Finset.Max

/-!
# The file of the URI store

* `loadLines_serialize`: what the loader makes of a file of tame records: **every key comes back with a
  blank in front of it**, since the label is written with a blank and cut off without it.
* `uris_survive_restart_iff`: **only the empty store survives a restart**, whatever requests built it and
  in whatever order it is written.
-/

namespace UrlShortener

open Text

/-! ## Lines -/

theorem getLines_append (text rest : Str) :
    getLines (text ++ '\n' :: rest) = text.splitOn '\n' ++ getLines rest := readTexts_append '\n' text rest

theorem mem_getLines {file line : Str} (h : line ∈ getLines file) : '\n' ∉ line := not_mem_of_mem_readTexts h

theorem loadLines_append (lines lines' : List Str) (s : LoadState) :
    loadLines (lines ++ lines') s = (loadLines lines s).bind (loadLines lines') := by
  induction lines generalizing s with
  | nil => rfl
  | cons line lines ih =>
    simp only [List.cons_append, loadLines]
    cases loadLine s line with
    | none => rfl
    | some s' => exact ih s'

/-! ## What is loaded has no line break -/

/-- No line break in what was loaded. -/
structure LoadState.OneLine (s : LoadState) : Prop where
  uri : '\n' ∉ s.uri
  contentType : '\n' ∉ s.contentType
  data : '\n' ∉ s.data
  map : ∀ k v, s.map.lookup k = some v → '\n' ∉ k ∧ '\n' ∉ v.1 ∧ '\n' ∉ v.2

theorem loadLine_oneLine {s s' : LoadState} {line : Str} (h : loadLine s line = some s') (hs : s.OneLine)
    (hline : '\n' ∉ line) : s'.OneLine := by
  have hdrop : ∀ n, '\n' ∉ line.drop n := fun n hn => hline (List.mem_of_mem_drop hn)
  -- one case per label of the file format
  unfold loadLine at h
  split at h
  · cases h
    exact ⟨hdrop 4, hs.contentType, hs.data, hs.map⟩
  split at h
  · cases h
    exact ⟨hs.uri, hdrop 13, hs.data, hs.map⟩
  split at h
  · cases h
    exact ⟨hs.uri, hs.contentType, hdrop 5, hs.map⟩
  split at h
  · split at h
    · cases h
      refine ⟨List.not_mem_nil, List.not_mem_nil, List.not_mem_nil, fun k v hkv => ?_⟩
      by_cases hk : k = s.uri
      · subst hk
        rw [Finmap.lookup_insert] at hkv
        cases hkv
        exact ⟨hs.uri, hs.contentType, hs.data⟩
      · rw [Finmap.lookup_insert_of_ne _ hk] at hkv
        exact hs.map k v hkv
    · cases h
  · cases h
    exact hs

theorem loadLines_oneLine {lines : List Str} {s s' : LoadState} (h : loadLines lines s = some s')
    (hs : s.OneLine) (hlines : ∀ line ∈ lines, '\n' ∉ line) : s'.OneLine := by
  induction lines generalizing s with
  | nil =>
    cases h
    exact hs
  | cons line lines ih =>
    obtain ⟨s₁, h₁, h⟩ := Option.bind_eq_some_iff.1 h
    exact ih h (loadLine_oneLine h₁ hs (hlines line List.mem_cons_self))
      fun l hl => hlines l (List.mem_cons_of_mem _ hl)

theorem deserialize_oneLine {file : Str} {m : UriMap} (h : deserialize file = some m) :
    ∀ k v, m.lookup k = some v → '\n' ∉ k ∧ '\n' ∉ v.1 ∧ '\n' ∉ v.2 := by
  obtain ⟨s, hs, rfl⟩ := Option.map_eq_some_iff.1 h
  have hstart : ({} : LoadState).OneLine :=
    ⟨List.not_mem_nil, List.not_mem_nil, List.not_mem_nil, by simp⟩
  exact (loadLines_oneLine hs hstart fun line => mem_getLines).map

/-! ## Loading tame records -/

/-- Without its trailing white space the text is one line. -/
def Tame (text : Str) : Prop := '\n' ∉ text.rdropWhile isTrimmed

theorem loadLine_blank {line : Str} (h : ∀ c ∈ line, isTrimmed c = true) (s : LoadState) :
    loadLine s line = some s := by
  cases line with
  | nil => rfl
  | cons c line =>
    have hc := h c List.mem_cons_self
    simp only [isTrimmed, Bool.or_eq_true, beq_iff_eq] at hc
    rcases hc with ((rfl | rfl) | rfl) | rfl <;> rfl

theorem loadLines_blank {lines : List Str} (h : ∀ line ∈ lines, ∀ c ∈ line, isTrimmed c = true)
    (s : LoadState) : loadLines lines s = some s := by
  induction lines with
  | nil => rfl
  | cons line lines ih =>
    rw [loadLines, loadLine_blank (h line List.mem_cons_self), Option.bind_some]
    exact ih fun l hl => h l (List.mem_cons_of_mem _ hl)

/-- A tame text after a label: one line that begins with the label, and blank lines. -/
theorem splitOn_tame {label text : Str} (hlabel : '\n' ∉ label) (h : Tame text) :
    ∃ shown blanks, (label ++ text).splitOn '\n' = (label ++ shown) :: blanks ∧
      ∀ line ∈ blanks, ∀ c ∈ line, isTrimmed c = true := by
  have htext := @List.rdropWhile_append_rtakeWhile _ isTrimmed text
  have hblank : ∀ c ∈ text.rtakeWhile isTrimmed, isTrimmed c = true := fun c hc => List.mem_rtakeWhile_imp hc
  set front := text.rdropWhile isTrimmed
  set back := text.rtakeWhile isTrimmed
  by_cases hback : '\n' ∈ back
  · -- the first line ends in the trailing white space, and what follows is blank
    obtain ⟨b₁, b₂, hb, hb₁⟩ := List.eq_append_cons_of_mem hback
    refine ⟨front ++ b₁, b₂.splitOn '\n', ?_, fun line hline c hc => hblank c ?_⟩
    · have hfront : '\n' ∉ label ++ (front ++ b₁) := by
        simp only [List.mem_append, not_or]
        exact ⟨hlabel, h, hb₁⟩
      rw [← List.splitOn_append_cons_self_of_not_mem hfront, ← htext, hb]
      simp only [List.append_assoc]
    · rw [hb]
      exact List.mem_append_right _ (List.mem_cons_of_mem _ (mem_of_mem_splitOn hline hc).1)
  · refine ⟨text, [], List.splitOn_eq_singleton ?_, by simp⟩
    rw [← htext]
    simp only [List.mem_append, not_or]
    exact ⟨hlabel, h, hback⟩

/-- A tame text after a label is loaded as its first line is. -/
theorem loadLines_tame (label : Str) {text : Str} (hlabel : '\n' ∉ label) (h : Tame text) (s : LoadState) :
    ∃ shown, loadLines ((label ++ text).splitOn '\n') s = loadLine s (label ++ shown) := by
  obtain ⟨shown, blanks, hsplit, hblank⟩ := splitOn_tame hlabel h
  refine ⟨shown, ?_⟩
  rw [hsplit, loadLines]
  cases loadLine s (label ++ shown) with
  | none => rfl
  | some s' => exact loadLines_blank hblank s'

theorem tame_cleanData {text : Str} (h : Tame text) : Tame (cleanData text) := by
  unfold cleanData
  split
  · exact h
  · unfold Tame
    rwa [List.rdropWhile_idempotent]

theorem serializeEntry_lines (e : UriEntry) (rest : Str) :
    serializeEntry e ++ rest =
      ("URI: " ++ e.1) ++ '\n' :: (("Content-Type: " ++ e.2.1) ++ '\n' ::
        (("Data: " ++ cleanData e.2.2) ++ '\n' :: ("RecordEnd" ++ '\n' :: rest))) := by
  have h₁ : "\nContent-Type: " = '\n' :: "Content-Type: " := rfl
  have h₂ : "\nData: " = '\n' :: "Data: " := rfl
  have h₃ : "\nRecordEnd\n" = '\n' :: ("RecordEnd" ++ ['\n']) := rfl
  unfold serializeEntry
  rw [h₁, h₂, h₃]
  simp only [List.append_assoc, List.cons_append, List.nil_append]

theorem loadLine_uri (s : LoadState) (shown : Str) :
    loadLine s ("URI: " ++ shown) = some { s with uri := ' ' :: shown } := rfl

theorem loadLine_contentType (s : LoadState) (shown : Str) :
    loadLine s ("Content-Type: " ++ shown) = some { s with contentType := ' ' :: shown } := rfl

theorem loadLine_data (s : LoadState) (shown : Str) :
    loadLine s ("Data: " ++ shown) = some { s with data := ' ' :: shown } := rfl

theorem loadLine_recordEnd (uri contentType data : Str) (m : UriMap) :
    loadLine ⟨' ' :: uri, ' ' :: contentType, data, m⟩ "RecordEnd" =
      some { map := m.insert (' ' :: uri) (' ' :: contentType, data) } := rfl

/-- **A tame record is loaded under its key with a blank in front.** -/
theorem loadLines_serializeEntry {e : UriEntry} (hk : '\n' ∉ e.1) (hb : Tame e.2.1) (hc : Tame e.2.2)
    (rest : Str) (s : LoadState) :
    ∃ v, loadLines (getLines (serializeEntry e ++ rest)) s =
      loadLines (getLines rest) { map := s.map.insert (' ' :: e.1) v } := by
  have huri : ("URI: ".toList ++ e.1).splitOn '\n' = ["URI: ".toList ++ e.1] := by
    refine List.splitOn_eq_singleton ?_
    rw [List.mem_append, not_or]
    exact ⟨by decide, hk⟩
  have hend : "RecordEnd".toList.splitOn '\n' = ["RecordEnd".toList] := List.splitOn_eq_singleton (by decide)
  obtain ⟨body, hbody⟩ := loadLines_tame "Content-Type: ".toList (by decide) hb { s with uri := ' ' :: e.1 }
  obtain ⟨data, hdata⟩ := loadLines_tame "Data: ".toList (by decide) (tame_cleanData hc)
    { s with uri := ' ' :: e.1, contentType := ' ' :: body }
  rw [loadLine_contentType] at hbody
  rw [loadLine_data] at hdata
  refine ⟨(' ' :: body, ' ' :: data), ?_⟩
  rw [serializeEntry_lines, getLines_append, getLines_append, getLines_append, getLines_append, huri, hend]
  -- the four lines one after the other
  rw [List.singleton_append, loadLines, loadLine_uri, Option.bind_some]
  rw [loadLines_append, hbody, Option.bind_some]
  rw [loadLines_append, hdata, Option.bind_some]
  rw [List.singleton_append, loadLines, loadLine_recordEnd, Option.bind_some]

/-- The keys that a file of tame records adds. -/
theorem loadLines_serialize {entries : List UriEntry}
    (h : ∀ e ∈ entries, '\n' ∉ e.1 ∧ Tame e.2.1 ∧ Tame e.2.2) (s : LoadState) :
    ∃ s', loadLines (getLines (serialize entries)) s = some s' ∧
      ∀ k, k ∈ s'.map ↔ k ∈ s.map ∨ ∃ e ∈ entries, k = ' ' :: e.1 := by
  induction entries generalizing s with
  | nil => exact ⟨s, rfl, by simp⟩
  | cons e entries ih =>
    obtain ⟨hk, hb, hc⟩ := h e List.mem_cons_self
    obtain ⟨v, hload⟩ := loadLines_serializeEntry hk hb hc (serialize entries) s
    obtain ⟨s', hs', hkeys⟩ := ih (fun e he => h e (List.mem_cons_of_mem _ he))
      { map := s.map.insert (' ' :: e.1) v }
    refine ⟨s', ?_, fun k => ?_⟩
    · rw [serialize, List.flatMap_cons]
      exact hload.trans hs'
    · rw [hkeys, Finmap.mem_insert, List.exists_mem_cons_iff]
      exact or_assoc.trans or_left_comm

/-! ## Restart -/

/-- The same keys, with bodies and content types that differ in trailing white space at most. -/
def SameUpToTrailing (m m' : UriMap) : Prop :=
  ∀ k, Option.Rel (fun v v' => v.1.rdropWhile isTrimmed = v'.1.rdropWhile isTrimmed ∧
    v.2.rdropWhile isTrimmed = v'.2.rdropWhile isTrimmed) (m.lookup k) (m'.lookup k)

theorem UriMap.Iterates.mem_iff {m : UriMap} {entries : List UriEntry} (h : m.Iterates entries)
    {e : UriEntry} :
    e ∈ entries ↔ m.lookup e.1 = some e.2 := by
  rw [Finmap.lookup_eq_some_iff, ← h, Multiset.mem_coe]

/-- A record that comes back was tame. -/
theorem SameUpToTrailing.tame {m m' : UriMap} (h : SameUpToTrailing m m') {file : Str}
    (hm' : deserialize file = some m') {k : Str} {v : Str × Str} (hk : m.lookup k = some v) :
    '\n' ∉ k ∧ Tame v.1 ∧ Tame v.2 := by
  have hrel := h k
  rw [hk] at hrel
  obtain ⟨v', hv'⟩ : ∃ v', m'.lookup k = some v' := by
    cases hl : m'.lookup k with
    | none => rw [hl] at hrel; cases hrel
    | some v' => exact ⟨v', rfl⟩
  rw [hv'] at hrel
  cases hrel with
  | some hv =>
    obtain ⟨hk', h1, h2⟩ := deserialize_oneLine hm' k v' hv'
    unfold Tame
    rw [hv.1, hv.2]
    exact ⟨hk', fun hn => h1 ((List.rdropWhile_prefix _ _).subset hn),
      fun hn => h2 ((List.rdropWhile_prefix _ _).subset hn)⟩

theorem SameUpToTrailing.mem_iff {m m' : UriMap} (h : SameUpToTrailing m m') (k : Str) : k ∈ m ↔ k ∈ m' := by
  have hrel := h k
  rw [← Finmap.lookup_isSome, ← Finmap.lookup_isSome]
  generalize m.lookup k = v, m'.lookup k = v' at hrel
  cases hrel with
  | some _ => simp
  | none => simp

/-- No map but the empty one comes back from its file. -/
theorem deserialize_serialize_iff {m : UriMap} {entries : List UriEntry} (h : m.Iterates entries) :
    (∃ m', deserialize (serialize entries) = some m' ∧ SameUpToTrailing m m') ↔ m = ∅ := by
  constructor
  · rintro ⟨m', hm', hsame⟩
    have htame : ∀ e ∈ entries, '\n' ∉ e.1 ∧ Tame e.2.1 ∧ Tame e.2.2 := fun e he =>
      hsame.tame hm' (h.mem_iff.1 he)
    obtain ⟨s, hs, hkeys⟩ := loadLines_serialize htame {}
    rw [deserialize, hs, Option.map_some, Option.some.injEq] at hm'
    subst hm'
    by_contra hne
    -- the longest key comes back with a blank in front of it
    have hkeysne : m.keys.Nonempty := by
      rw [Finset.nonempty_iff_ne_empty]
      intro hempty
      refine hne (Finmap.ext_lookup fun k => ?_)
      rw [Finmap.lookup_empty, Finmap.lookup_eq_none, ← Finmap.mem_keys, hempty]
      exact Finset.notMem_empty k
    obtain ⟨k, hk, hmax⟩ := Finset.exists_max_image m.keys List.length hkeysne
    obtain ⟨v, hv⟩ := Option.isSome_iff_exists.1 (Finmap.lookup_isSome.2 (Finmap.mem_keys.1 hk))
    have hback : ' ' :: k ∈ s.map := (hkeys _).2 (.inr ⟨⟨k, v⟩, h.mem_iff.2 hv, rfl⟩)
    have hlong := hmax (' ' :: k) (Finmap.mem_keys.2 ((hsame.mem_iff _).2 hback))
    rw [List.length_cons] at hlong
    omega
  · rintro rfl
    have hnil : entries = [] := by
      rw [← Multiset.coe_eq_zero]
      exact h
    subst hnil
    refine ⟨∅, rfl, fun k => ?_⟩
    rw [Finmap.lookup_empty]
    exact .none

/-- **Only the empty URI store survives a restart.** -/
theorem uris_survive_restart_iff (ops : List Op) (entries : List UriEntry)
    (h : (worldAfter ops).uris.Iterates entries) :
    (∃ m', deserialize (serialize entries) = some m' ∧ SameUpToTrailing (worldAfter ops).uris m') ↔
      (worldAfter ops).uris = ∅ :=
  deserialize_serialize_iff h

/-- `POST /foo` with the body `x`. -/
def samplePost : Op :=
  .request { config := {}, env := .still,
             req := { method := .post, target := "/foo", contentType := some "text/plain",
                      body := "x" } }

/-- `DELETE /foo`. -/
def sampleDelete : Op :=
  .request { config := {}, env := .still, req := { method := .delete, target := "/foo" } }

/-- An entry that is removed again leaves nothing to survive. -/
theorem uris_survive_restart_iff_empty :
    (worldAfter [samplePost]).uris ≠ ∅ ∧ ∃ m', deserialize (serialize []) = some m' ∧
      SameUpToTrailing (worldAfter [samplePost, sampleDelete]).uris m' := by
  refine ⟨fun h => ?_, (uris_survive_restart_iff [samplePost, sampleDelete] [] rfl).2 rfl⟩
  have hfound : (worldAfter [samplePost]).uris.lookup "/foo".toList = none := by rw [h]; rfl
  exact absurd hfound (by decide +kernel)

/-- The body stored under `/foo` is not found there after a restart. -/
theorem foo_lost_on_restart :
    (worldAfter [samplePost]).uris.Iterates [⟨"/foo", ("x", "text/plain")⟩] ∧
    ∃ m', deserialize (serialize [⟨"/foo", ("x", "text/plain")⟩]) = some m' ∧
      (worldAfter [samplePost]).uris.getData "/foo".toList = some ("x".toList, "text/plain".toList) ∧
      m'.getData "/foo" = none ∧
      m'.getData " /foo".toList = some (" x".toList, " text/plain".toList) :=
  ⟨rfl, _, rfl, rfl, rfl, rfl⟩

end UrlShortener

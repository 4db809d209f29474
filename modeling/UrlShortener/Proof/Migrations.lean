import UrlShortener.Sorting.Keys
import UrlShortener.Spec.Migrations

/-!
# Migrations are undone in the opposite order

* `Directory.Paired`: every migration has a base name without a point, and both of its files.
* `orderedBySuffix_eq`: both lists of files come from one list of base names, since the endings do not decide the order.
* `applyAll_undo`: scripts that undo one another one by one undo one another as a whole, in the opposite order.
* `ordered_migrations`: **the down migrations are the up migrations in reverse order.**
-/

namespace UrlShortener.Migrations

open Text

/-! ## The files of a directory -/

/-- A regular file of the name is in the directory. -/
def Directory.IsFile (dir : Directory) (name : Str) : Prop := ∃ e ∈ dir.entries, e.name = name ∧ e.isRegularFile = true

/-- **Each migration has a base name without a point, and exactly the two files.** Two entries of a directory never
have the same name. Files with other endings and entries that are no files may be there as well. -/
def Directory.Paired (dir : Directory) : Prop :=
  ∀ b, dir.IsFile (b ++ upSuffix) ∨ dir.IsFile (b ++ downSuffix) →
    '.' ∉ b ∧ dir.IsFile (b ++ upSuffix) ∧ dir.IsFile (b ++ downSuffix)

/-- The file name without the ending. -/
def baseName (suffix path : Str) : Str := path.take (path.length - suffix.length)

theorem baseName_append (suffix b : Str) : baseName suffix (b ++ suffix) = b := by
  simp [baseName]

theorem hasSuffix_iff {name suffix : Str} : hasSuffix name suffix = true ↔ ∃ b, name = b ++ suffix := by
  simp only [hasSuffix, Bool.and_eq_true, decide_eq_true_eq, beq_iff_eq]
  constructor
  · rintro ⟨-, hdrop⟩
    refine ⟨name.take (name.length - suffix.length), ?_⟩
    nth_rewrite 2 [← hdrop]
    exact (List.take_append_drop _ _).symm
  · rintro ⟨b, rfl⟩
    simp

/-- The files with an ending, as they are come across. -/
def files (dir : Directory) (suffix : Str) : List Str :=
  (dir.entries.filter fun e => e.isRegularFile && hasSuffix e.name suffix).map Entry.name

variable {dir : Directory} {suffix : Str}

theorem mem_files {name : Str} : name ∈ files dir suffix ↔ dir.IsFile name ∧ ∃ b, name = b ++ suffix := by
  simp only [files, List.mem_map, List.mem_filter, Bool.and_eq_true, hasSuffix_iff, Directory.IsFile]
  constructor
  · rintro ⟨e, ⟨he, hregular, hsuffix⟩, rfl⟩
    exact ⟨⟨e, he, rfl, hregular⟩, hsuffix⟩
  · rintro ⟨⟨e, he, rfl, hregular⟩, hsuffix⟩
    exact ⟨e, ⟨he, hregular, hsuffix⟩, rfl⟩

theorem nodup_files : (files dir suffix).Nodup := dir.nodup.sublist (List.filter_sublist.map _)

/-- The base names of the migrations. -/
def bases (dir : Directory) : List Str := (files dir upSuffix).map (baseName upSuffix)

theorem files_up : files dir upSuffix = (bases dir).map (· ++ upSuffix) := by
  rw [bases, List.map_map]
  refine ((List.map_congr_left fun name hname => ?_).trans (List.map_id _)).symm
  obtain ⟨-, b, rfl⟩ := mem_files.1 hname
  simp only [Function.comp_apply, baseName_append, id_eq]

theorem mem_bases {b : Str} : b ∈ bases dir ↔ dir.IsFile (b ++ upSuffix) := by
  constructor
  · intro hb
    have hmem : b ++ upSuffix ∈ files dir upSuffix := files_up ▸ List.mem_map_of_mem hb
    exact (mem_files.1 hmem).1
  · intro hfile
    have hmem : b ++ upSuffix ∈ files dir upSuffix := mem_files.2 ⟨hfile, b, rfl⟩
    rw [bases, ← baseName_append upSuffix b]
    exact List.mem_map_of_mem hmem

theorem nodup_bases : (bases dir).Nodup := by
  have hfiles : ((bases dir).map (· ++ upSuffix)).Nodup := files_up ▸ nodup_files
  exact List.Nodup.of_map _ hfiles

/-- The down files are there for the same base names. -/
theorem files_down (h : dir.Paired) : (files dir downSuffix).Perm ((bases dir).map (· ++ downSuffix)) := by
  have hinj : Function.Injective fun b : Str => b ++ downSuffix := List.append_left_injective _
  refine (List.perm_ext_iff_of_nodup nodup_files (nodup_bases.map hinj)).2 fun name => ?_
  rw [mem_files, List.mem_map]
  constructor
  · rintro ⟨hfile, b, rfl⟩
    exact ⟨b, mem_bases.2 (h b (.inr hfile)).2.1, rfl⟩
  · rintro ⟨b, hb, rfl⟩
    exact ⟨(h b (.inl (mem_bases.1 hb))).2.2, b, rfl⟩

/-- The base names in the order in which the migrations are applied. -/
def sortedBases (dir : Directory) : List Str :=
  (bases dir).insertionSort fun a b => a ++ upSuffix ≤ b ++ upSuffix

/-- **One list of base names gives both lists of files.** -/
theorem orderedBySuffix_eq (h : dir.Paired) :
    orderedBySuffix (some dir) upSuffix = (sortedBases dir).map (· ++ upSuffix) ∧
      orderedBySuffix (some dir) downSuffix = (sortedBases dir).map (· ++ downSuffix) := by
  have hpoint : ∀ b ∈ bases dir, '.' ∉ b := fun b hb => (h b (.inl (mem_bases.1 hb))).1
  -- both endings begin with the point that no base name holds
  have hsort : ∀ t : Str, ((bases dir).map (· ++ '.' :: t)).insertionSort (· ≤ ·) =
      (sortedBases dir).map (· ++ '.' :: t) := fun t => map_sort_append hpoint t "up.sql"
  constructor
  · change (files dir upSuffix).insertionSort (· ≤ ·) = _
    rw [files_up]
    exact hsort "up.sql"
  · change (files dir downSuffix).insertionSort (· ≤ ·) = _
    rw [Sorting.insertionSort_congr (files_down h) fun _ _ _ _ => le_antisymm]
    exact hsort "down.sql"

/-! ## Applying scripts -/

variable {S : Type} {execute : Str → S → Bool × S}

theorem applyAll_append (l m : List Str) (s : S) :
    applyAll execute (l ++ m) s =
      if (applyAll execute l s).1 then applyAll execute m (applyAll execute l s).2 else applyAll execute l s := by
  induction l generalizing s with
  | nil => rfl
  | cons text l ih =>
    rw [List.cons_append, applyAll, applyAll]
    split
    · rfl
    · exact ih _

/-- **Undone one by one, in the opposite order.** -/
theorem applyAll_undo {up down : Str → Str} {bs : List Str}
    (hundo : ∀ b ∈ bs, ∀ s s', execute (up b) s = (true, s') → execute (down b) s' = (true, s)) {s s' : S}
    (h : applyAll execute (bs.map up) s = (true, s')) :
    applyAll execute (bs.reverse.map down) s' = (true, s) := by
  -- the migration that was applied first is undone last
  induction bs generalizing s with
  | nil =>
    cases h
    rfl
  | cons b bs ih =>
    rw [List.map_cons, applyAll] at h
    split at h
    · cases h
    · rename_i s₁ hup
      have hrest := ih (fun b' hb' => hundo b' (List.mem_cons_of_mem _ hb')) h
      have hfirst := hundo b List.mem_cons_self s s₁ hup
      rw [List.reverse_cons, List.map_append, applyAll_append, hrest]
      simp only [if_true, List.map_cons, List.map_nil, applyAll, hfirst]

theorem report_eq_success {r : Bool × S} {s : S} : report r = ((true, none), s) ↔ r = (true, s) := by
  obtain ⟨_ | _, s₁⟩ := r <;> simp [report]

/-- **Down migrations are the up migrations in reverse order**: the base names of the two lists, and so, where each
down script undoes its up script, `ApplyDownToBase` undoes what `ApplyUp` did. -/
theorem ordered_migrations (dir : Directory) (h : dir.Paired) :
    (orderedDownMigrations (some dir)).map (baseName downSuffix) =
        ((orderedUpMigrations (some dir)).map (baseName upSuffix)).reverse ∧
      ∀ (S : Type) (execute : Str → S → Bool × S),
        (∀ b ∈ (orderedUpMigrations (some dir)).map (baseName upSuffix), ∀ s s',
          execute (readFile dir (b ++ upSuffix)) s = (true, s') →
          execute (readFile dir (b ++ downSuffix)) s' = (true, s)) →
        ∀ s s', applyUp execute (some dir) s = ((true, none), s') →
          applyDownToBase execute (some dir) s' = ((true, none), s) := by
  obtain ⟨hup, hdown⟩ := orderedBySuffix_eq h
  have hbases : (orderedUpMigrations (some dir)).map (baseName upSuffix) = sortedBases dir := by
    rw [orderedUpMigrations, hup, List.map_map]
    exact (List.map_congr_left fun b _ => baseName_append upSuffix b).trans (List.map_id _)
  refine ⟨?_, ?_⟩
  · rw [hbases, orderedDownMigrations, hdown, ← List.map_reverse, List.map_map]
    exact (List.map_congr_left fun b _ => baseName_append downSuffix b).trans (List.map_id _)
  · intro S execute hundo s s' hrun
    rw [hbases] at hundo
    rw [applyUp, report_eq_success, scripts, orderedUpMigrations, hup, List.map_map] at hrun
    rw [applyDownToBase, report_eq_success, scripts, orderedDownMigrations, hdown, ← List.map_reverse, List.map_map]
    exact applyAll_undo hundo hrun

/-- Two migrations, one of them with a name that continues the other's by a character below the point. -/
def twoMigrations : Directory where
  entries :=
    [⟨"1-a.down.sql", true, "b"⟩, ⟨"1.up.sql", true, "c"⟩,
      ⟨"1.down.sql", true, "d"⟩, ⟨"1-a.up.sql", true, "a"⟩]
  nodup := by decide

theorem paired_twoMigrations : twoMigrations.Paired := by
  have hup : ∀ name ∈ files twoMigrations upSuffix, '.' ∉ baseName upSuffix name ∧
      baseName upSuffix name ++ downSuffix ∈ files twoMigrations downSuffix := by
    decide +kernel
  have hdown : ∀ name ∈ files twoMigrations downSuffix, '.' ∉ baseName downSuffix name ∧
      baseName downSuffix name ++ upSuffix ∈ files twoMigrations upSuffix := by
    decide +kernel
  rintro b (hfile | hfile)
  · obtain ⟨hpoint, hother⟩ := hup _ (mem_files.2 ⟨hfile, b, rfl⟩)
    rw [baseName_append] at hpoint hother
    exact ⟨hpoint, hfile, (mem_files.1 hother).1⟩
  · obtain ⟨hpoint, hother⟩ := hdown _ (mem_files.2 ⟨hfile, b, rfl⟩)
    rw [baseName_append] at hpoint hother
    exact ⟨hpoint, (mem_files.1 hother).1, hfile⟩

/-- A session that keeps the scripts it has run, and takes one back for the script that follows it in the alphabet. -/
def ledger (text : Str) (s : List Str) : Bool × List Str :=
  if text = "b" ∨ text = "d" then (true, s.tail) else (true, text :: s)

theorem ordered_migrations_sample :
    (orderedDownMigrations (some twoMigrations)).map (baseName downSuffix) = ["1".toList, "1-a".toList] ∧
      applyUp ledger (some twoMigrations) [] = ((true, none), ["c".toList, "a".toList]) ∧
      applyDownToBase ledger (some twoMigrations) ["c".toList, "a".toList] = ((true, none), []) := by
  have hrun : applyUp ledger (some twoMigrations) [] = ((true, none), ["c".toList, "a".toList]) := by decide +kernel
  have hbases : (orderedUpMigrations (some twoMigrations)).map (baseName upSuffix) = ["1-a".toList, "1".toList] := by
    decide +kernel
  obtain ⟨hreverse, hundo⟩ := ordered_migrations twoMigrations paired_twoMigrations
  rw [hbases] at hreverse hundo
  refine ⟨hreverse, hrun, hundo _ ledger ?_ [] _ hrun⟩
  intro b hb s s' hup
  simp only [List.mem_cons, List.not_mem_nil, or_false] at hb
  rcases hb with rfl | rfl <;>
  · cases hup
    rfl

end UrlShortener.Migrations

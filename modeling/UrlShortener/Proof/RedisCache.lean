import UrlShortener.Proof.Numerals

/-!
# Round trip of cached values

A value is written as fields between bars, the last of them the address, and read back by splitting at the bars.

* `split_serialize`: the fields of a written value. The address is cut at its first bar.
* `deserializeCacheValue_serializeCacheValue_iff`: **a value is read back exactly when its address has no bar.** The
  number of bytes that is written with the address only serves to refuse a cut one.
-/

namespace UrlShortener.RedisCache

open Storage (CacheValue)
open Text

/-! ## The fields -/

theorem bar_not_mem_decimal (n : ℕ) : '|' ∉ decimal n := by
  intro hmem
  exact absurd (decimal_isDigit hmem) (by decide)

theorem bar_not_mem_toString (n : ℤ) : '|' ∉ (toString n).toList := by
  rw [toString_toList, List.mem_append, not_or]
  refine ⟨?_, bar_not_mem_decimal _⟩
  split <;> decide

/-- The field of the expiry. -/
def expiryText (v : CacheValue) : Str := v.expiresAt.elim [] fun tp => (toString (toTimeT tp)).toList

/-- The field of the version. -/
def versionText (v : CacheValue) : Str := v.version.elim [] fun version => decimal version.toNat

/-- The flag in the payload. -/
def activeText (v : CacheValue) : Str := if v.isActive then "1" else "0"

theorem bar_not_mem_expiryText (v : CacheValue) : '|' ∉ expiryText v := by
  unfold expiryText
  cases v.expiresAt with
  | none => exact List.not_mem_nil
  | some tp => exact bar_not_mem_toString _

theorem bar_not_mem_versionText (v : CacheValue) : '|' ∉ versionText v := by
  unfold versionText
  cases v.version with
  | none => exact List.not_mem_nil
  | some version => exact bar_not_mem_decimal _

/-- A field with its label has no bar if the field has none. -/
theorem bar_not_mem_field {label field : Str} (hlabel : '|' ∉ label) (hfield : '|' ∉ field) : '|' ∉ label ++ field := by
  rw [List.mem_append, not_or]
  exact ⟨hlabel, hfield⟩

/-- The text as its fields with the bars between them. -/
theorem serializeCacheValue_eq (v : CacheValue) :
    serializeCacheValue v = ("v=" ++ decimal kSchemaVersion) ++ '|' :: (("a=" ++ activeText v) ++ '|' ::
      (("e=" ++ expiryText v) ++ '|' :: (("r=" ++ versionText v) ++ '|' ::
        (("n=" ++ decimal (size v.targetUrl).toNat) ++ '|' :: ("u=" ++ v.targetUrl))))) := by
  have hactive : "|a=" = '|' :: "a=" := by decide
  have hexpiry : "|e=" = '|' :: "e=" := by decide
  have hversion : "|r=" = '|' :: "r=" := by decide
  have hsize : "|n=" = '|' :: "n=" := by decide
  have hurl : "|u=" = '|' :: "u=" := by decide
  unfold serializeCacheValue
  rw [hactive, hexpiry, hversion, hsize, hurl, ← expiryText, ← versionText, ← activeText]
  generalize "v=" = lv, "a=" = la, "e=" = le, "r=" = lr, "n=" = ln, "u=" = lu
  simp only [List.append_assoc, List.cons_append]

/-- The address up to its first bar. -/
def beforeBar (url : Str) : Str := url.takeWhile (· ≠ '|')

theorem beforeBar_eq_iff {url : Str} : beforeBar url = url ↔ '|' ∉ url := by
  rw [beforeBar, List.takeWhile_eq_self_iff]
  constructor
  · intro h hmem
    exact absurd (h '|' hmem) (by decide)
  · intro h c hc
    rw [decide_eq_true_eq]
    rintro rfl
    exact h hc

/-- Reading the last field: it is cut at the first bar of the address. -/
theorem readTexts_url (url : Str) :
    ∃ more, readTexts '|' ("u=" ++ url) = ("u=" ++ beforeBar url) :: more := by
  by_cases hbar : '|' ∈ url
  · obtain ⟨front, rest, rfl, hfront⟩ := List.eq_append_cons_of_mem hbar
    have hcut : beforeBar (front ++ '|' :: rest) = front := by
      rw [beforeBar, List.takeWhile_append_of_pos, List.takeWhile_cons_of_neg (by decide), List.append_nil]
      intro c hc
      rw [decide_eq_true_eq]
      rintro rfl
      exact hfront hc
    rw [hcut, ← List.append_assoc]
    exact ⟨_, readTexts_cons (bar_not_mem_field (by decide) hfront) rest⟩
  · rw [beforeBar_eq_iff.2 hbar]
    exact ⟨[], readTexts_singleton (bar_not_mem_field (by decide) hbar) (by simp)⟩

/-- **The fields of a written value.** -/
theorem split_serialize (v : CacheValue) :
    ∃ more, split (serializeCacheValue v) '|' = "v=1".toList :: ("a=".toList ++ activeText v) ::
      ("e=".toList ++ expiryText v) :: ("r=".toList ++ versionText v) ::
      ("n=".toList ++ decimal (size v.targetUrl).toNat) :: ("u=".toList ++ beforeBar v.targetUrl) :: more := by
  obtain ⟨more, hmore⟩ := readTexts_url v.targetUrl
  have hactive : '|' ∉ activeText v := by
    unfold activeText
    split <;> decide
  refine ⟨more, ?_⟩
  have hschema : "v=".toList ++ decimal kSchemaVersion = "v=1".toList := by decide
  rw [split, serializeCacheValue_eq, hschema, readTexts_cons (by decide),
    readTexts_cons (bar_not_mem_field (by decide) hactive),
    readTexts_cons (bar_not_mem_field (by decide) (bar_not_mem_expiryText v)),
    readTexts_cons (bar_not_mem_field (by decide) (bar_not_mem_versionText v)),
    readTexts_cons (bar_not_mem_field (by decide) (bar_not_mem_decimal _)), hmore]

/-! ## Reading them -/

theorem readExpiry_expiryText (v : CacheValue) : readExpiry (expiryText v) = some (v.expiresAt.map wholeSeconds) := by
  unfold expiryText readExpiry
  cases v.expiresAt with
  | none => rfl
  | some tp =>
    have hbounds := toTimeT_bounds tp
    have hne : (toString (toTimeT tp)).toList ≠ [] := by
      rw [toString_toList]
      exact List.append_ne_nil_of_right_ne_nil _ (decimal_ne_nil _)
    rw [Option.elim_some, if_neg hne, stoll_toString (by omega) (by omega), Option.map_some, fromTimeT_toTimeT_eq,
      Option.map_some]

theorem readVersion_versionText (v : CacheValue) : readVersion (versionText v) = some v.version := by
  unfold versionText readVersion
  cases v.version with
  | none => rfl
  | some version =>
    rw [Option.elim_some, if_neg (decimal_ne_nil _), stoull_decimal, Option.map_some]

/-- What is read back from a written value. -/
theorem deserialize_serialize (v : CacheValue) :
    deserializeCacheValue (serializeCacheValue v) =
      if size (beforeBar v.targetUrl) ≠ size v.targetUrl then none
      else some { v with targetUrl := beforeBar v.targetUrl, expiresAt := v.expiresAt.map wholeSeconds } := by
  obtain ⟨more, hparts⟩ := split_serialize v
  have hactive : decide ("a=".toList ++ activeText v = "a=1".toList) = v.isActive := by
    unfold activeText
    cases v.isActive <;> rfl
  have hflag : ¬("a=".toList ++ activeText v ≠ "a=0".toList ∧ "a=".toList ++ activeText v ≠ "a=1".toList) := by
    unfold activeText
    cases v.isActive <;> decide
  have hlabels : ∀ (label field : Str), startsWith (label ++ field) label = true := by
    intro label field
    exact List.isPrefixOf_iff_prefix.2 (List.prefix_append label field)
  have hdrop : ∀ (label field : Str), label.length = 2 → (label ++ field).drop 2 = field := by
    intro label field hlength
    rw [← hlength, List.drop_left]
  unfold deserializeCacheValue
  rw [hparts]
  simp only
  rw [if_neg (by decide), if_neg hflag, hlabels, hlabels, hlabels, hlabels, hactive, hdrop _ _ (by decide),
    hdrop _ _ (by decide), hdrop _ _ (by decide), hdrop _ _ (by decide), readExpiry_expiryText, readVersion_versionText,
    stoull_decimal]
  rfl

/-- **A value is read back exactly when its address has no bar.** -/
theorem deserializeCacheValue_serializeCacheValue_iff (v : CacheValue) :
    deserializeCacheValue (serializeCacheValue v) = some { v with expiresAt := v.expiresAt.map wholeSeconds } ↔
      '|' ∉ v.targetUrl := by
  rw [deserialize_serialize, ← beforeBar_eq_iff]
  constructor
  · intro h
    split at h
    · cases h
    · -- what is read back has the address up to the bar
      exact congrArg CacheValue.targetUrl (Option.some.inj h)
  · intro h
    rw [h, if_neg (not_not.2 rfl)]

/-- The address is refused because it was cut. -/
theorem bar_in_address :
    deserializeCacheValue (serializeCacheValue { targetUrl := "https://a.example/?q=a|b" }) = none := by
  decide

end UrlShortener.RedisCache

import UrlShortener.Spec.Handlers
import UrlShortener.Text.Labels
import UrlShortener.Text.Lines

/-!
# Query parameters

`getQueryParam` searches the query string for the text `key=`. The parameters of a query string are the texts
between ampersands, and a parameter is called what stands before its first equals sign.

* `getQueryParam_first`: the search answers with the first parameter that *holds* `key=`, wherever in it.
* `getQueryParam_named`: it is the first parameter *called* `key` if that one begins with `key=` and no bare `key`
  stands before it, and then the window and the bucket of a statistics request depend on the parameters called so only.
-/

namespace UrlShortener

open Text

variable {q key p : Str}

/-! ## Parameters -/

/-- The parameters of a query. -/
def queryParams (queryString : Str) : List Str := queryString.splitOn '&'

/-- What stands before the `=`. -/
def paramName (param : Str) : Str := param.takeWhile (· != '=')

/-- The text behind the first equals sign; empty if there is none. -/
def paramValue (param : Str) : Str := (param.dropWhile (· != '=')).drop 1

/-- The first parameter called `key`. -/
def namedParam (queryString key : Str) : Option Str := (queryParams queryString).find? fun p => paramName p == key

/-- **The value of the first parameter called `key`**, and the empty text if there is none. -/
def namedValue (queryString key : Str) : Str := ((namedParam queryString key).map paramValue).getD []

/-- The text that is searched for. -/
def keyText (key : Str) : Str := key ++ ['=']

theorem bne_of_not_mem {s : Str} {d : Char} (h : d ∉ s) : ∀ c ∈ s, (c != d) = true := by
  intro c hc
  rw [bne_iff_ne]
  rintro rfl
  exact h hc

theorem paramName_append (hkey : '=' ∉ key) (value : Str) : paramName (keyText key ++ value) = key := by
  rw [paramName, keyText, List.append_assoc, List.takeWhile_append_of_pos (bne_of_not_mem hkey)]
  simp

theorem paramValue_append (hkey : '=' ∉ key) (value : Str) : paramValue (keyText key ++ value) = value := by
  rw [paramValue, keyText, List.append_assoc, List.dropWhile_append_of_pos (bne_of_not_mem hkey)]
  simp

theorem paramValue_bare (hkey : '=' ∉ key) : paramValue key = [] := by
  rw [paramValue, List.dropWhile_eq_nil_iff.2 (bne_of_not_mem hkey), List.drop_nil]

/-- A parameter called `key` is the bare name, or begins with `key=`. -/
theorem eq_of_paramName (h : paramName p = key) : p = key ∨ ∃ value, p = keyText key ++ value := by
  have hsplit : paramName p ++ p.dropWhile (· != '=') = p := List.takeWhile_append_dropWhile
  cases hd : p.dropWhile (· != '=') with
  | nil =>
    rw [hd, List.append_nil, h] at hsplit
    exact .inl hsplit.symm
  | cons c value =>
    have hne : p.dropWhile (· != '=') ≠ [] := by simp [hd]
    have hstop := List.head_dropWhile_not (· != '=') hne
    simp only [hd, List.head_cons, bne_eq_false_iff_eq] at hstop
    refine .inr ⟨value, ?_⟩
    rw [hd, h, hstop] at hsplit
    rw [keyText, List.append_assoc]
    exact hsplit.symm

theorem namedParam_cases {p : Str} (h : namedParam q key = some p) : p = key ∨ ∃ value, p = keyText key ++ value := by
  have hname := List.find?_some h
  exact eq_of_paramName (beq_iff_eq.1 hname)

theorem queryParams_join (q : Str) : ['&'].intercalate (queryParams q) = q := List.intercalate_splitOn _

/-! ## The search -/

theorem keyText_ne_nil (key : Str) : keyText key ≠ [] := by simp [keyText]

theorem ampersand_not_mem_keyText (hkey : '&' ∉ key) : '&' ∉ keyText key := by simp [keyText, hkey]

/-- `p` is the first parameter that holds `key=`, and `value` stands behind it there. -/
structure FirstHolding (q key : Str) (before : List Str) (p : Str) (after : List Str) (front value : Str) : Prop where
  params : queryParams q = before ++ p :: after
  fresh : ∀ s ∈ before, ¬keyText key <:+: s
  place : cut (keyText key) p = some (front, value)

/-- **What the search answers**: the text behind `key=` in the first parameter that holds it. -/
theorem getQueryParam_first {before after : List Str} {front value : Str} (hkey : '&' ∉ key)
    (h : FirstHolding q key before p after front value) : getQueryParam q key = value := by
  obtain ⟨a, r, hcut, hr⟩ :=
    cut_intercalate (ampersand_not_mem_keyText hkey) (keyText_ne_nil key) h.fresh h.place after
  rw [← h.params, queryParams_join] at hcut
  have hp : '&' ∉ p := not_mem_of_mem_splitOn (s := q) (by rw [← queryParams, h.params]; simp)
  have hvalue : '&' ∉ value := fun hmem => hp (by rw [cut_eq h.place]; simp [hmem])
  rw [keyText] at hcut
  rw [getQueryParam, hcut]
  simp only
  rw [List.takeWhile_append_of_pos (bne_of_not_mem hvalue)]
  cases r with
  | nil => simp
  | cons c r => simp [hr c rfl]

theorem getQueryParam_none (hkey : '&' ∉ key) (h : ∀ s ∈ queryParams q, ¬keyText key <:+: s) :
    getQueryParam q key = [] := by
  have hcut := cut_intercalate_none (ampersand_not_mem_keyText hkey) (keyText_ne_nil key) h
  rw [queryParams_join, keyText] at hcut
  rw [getQueryParam, hcut]

theorem exists_first_holding (q key : Str) :
    (∀ s ∈ queryParams q, ¬keyText key <:+: s) ∨
      ∃ before p after front value, FirstHolding q key before p after front value := by
  cases hfind : (queryParams q).find? fun s => contains s (keyText key) with
  | none =>
    refine .inl fun s hs hin => ?_
    exact absurd (contains_iff.2 hin) (by simpa using List.find?_eq_none.1 hfind s hs)
  | some p =>
    obtain ⟨hp, before, after, hparams, hbefore⟩ := List.find?_eq_some_iff_append.1 hfind
    obtain ⟨⟨front, value⟩, hcut⟩ := Option.isSome_iff_exists.1 hp
    refine .inr ⟨before, p, after, front, value, hparams, fun s hs hin => ?_, hcut⟩
    have hnot := hbefore s hs
    rw [contains_iff.2 hin] at hnot
    cases hnot

/-! ## Searching against naming -/

/-- Without a parameter that holds `key=`, one called `key` is the bare name. -/
theorem namedValue_of_not_held (hkey : '=' ∉ key) (h : ∀ s ∈ queryParams q, ¬keyText key <:+: s) :
    namedValue q key = [] := by
  rw [namedValue]
  cases hnamed : namedParam q key with
  | none => rfl
  | some p =>
    rcases namedParam_cases hnamed with rfl | ⟨value, rfl⟩
    · exact paramValue_bare hkey
    · exact absurd (List.prefix_append _ value).isInfix (h _ (List.mem_of_find?_eq_some hnamed))

/-- The first parameter that holds `key=` is the first one called `key` if it begins with `key=` and no bare
`key` stands before it. -/
theorem namedParam_of_front {before after : List Str} {value : Str} (hkey : '=' ∉ key)
    (h : FirstHolding q key before p after [] value) (hbare : key ∉ before) :
    namedParam q key = some (keyText key ++ value) := by
  have hp : p = keyText key ++ value := by simpa using cut_eq h.place
  refine List.find?_eq_some_iff_append.2 ⟨?_, before, after, by rw [h.params, hp], fun s hs => ?_⟩
  · simpa using paramName_append hkey value
  · have hname : paramName s ≠ key := by
      intro hname
      rcases eq_of_paramName hname with rfl | ⟨v, rfl⟩
      · exact hbare hs
      · exact h.fresh _ hs (List.prefix_append _ v).isInfix
    simpa using hname

/-- **The search hits**: no parameter holds `key=`, or the first one that does begins with it and comes before any
bare `key`. -/
def SearchHits (q key : Str) : Prop :=
  ∀ p ∈ (queryParams q).find? (contains · (keyText key)),
    keyText key <+: p ∧ key ∉ (queryParams q).takeWhile fun s => !contains s (keyText key)

instance (q key : Str) : Decidable (SearchHits q key) :=
  inferInstanceAs (Decidable (∀ p ∈ (queryParams q).find? (contains · (keyText key)), _ ∧ _))

theorem FirstHolding.hits {before after : List Str} {front value : Str}
    (hfirst : FirstHolding q key before p after front value) (h : SearchHits q key) : front = [] ∧ key ∉ before := by
  have hfresh : ∀ s ∈ before, (!contains s (keyText key)) = true := by
    intro s hs
    have hnot := mt contains_iff.1 (hfirst.fresh s hs)
    simpa using hnot
  have hholds : contains p (keyText key) = true := Option.isSome_iff_exists.2 ⟨_, hfirst.place⟩
  have hfind : (queryParams q).find? (contains · (keyText key)) = some p :=
    List.find?_eq_some_iff_append.2 ⟨hholds, before, after, hfirst.params, hfresh⟩
  obtain ⟨⟨value', hp⟩, hbare⟩ := h p hfind
  refine ⟨?_, ?_⟩
  · have hleast : front.length ≤ 0 := cut_least hfirst.place [] value' hp.symm
    exact List.length_eq_zero_iff.1 (Nat.le_zero.1 hleast)
  · rwa [hfirst.params, List.takeWhile_append_of_pos hfresh, List.takeWhile_cons_of_neg (by simp [hholds]),
      List.append_nil] at hbare

theorem getQueryParam_eq_of_hits (hand : '&' ∉ key) (heq : '=' ∉ key) (h : SearchHits q key) :
    getQueryParam q key = namedValue q key := by
  rcases exists_first_holding q key with hnone | ⟨before, p, after, front, value, hfirst⟩
  · rw [getQueryParam_none hand hnone, namedValue_of_not_held heq hnone]
  · obtain ⟨rfl, hbare⟩ := hfirst.hits h
    rw [getQueryParam_first hand hfirst, namedValue, namedParam_of_front heq hfirst hbare]
    exact (paramValue_append heq value).symm

/-! ## Statistics requests -/

/-- The parameters of a statistics request. -/
def statsKeys : List Str := ["from", "to", "bucket"]

/-- A statistics request reads its query string through the three parameters only. -/
theorem handleLinkStats_congr {q' : Str} (h : ∀ k ∈ statsKeys, getQueryParam q k = getQueryParam q' k) (call : Call)
    (context : RouteContext) (w : World) :
    handleLinkStats call { context with queryString := q } w =
      handleLinkStats call { context with queryString := q' } w := by
  have hfrom := h "from" (by decide)
  have hto := h "to" (by decide)
  have hbucket := h "bucket" (by decide)
  simp only [handleLinkStats, hfrom, hto, hbucket]
  rfl

/-- **Where it hits, the search answers with the first parameter called `key`**; where it hits for the three
parameters of a statistics request, only the parameters called so matter to the answer. -/
theorem getQueryParam_named (q key : Str) (hand : '&' ∉ key) (heq : '=' ∉ key) (hhits : SearchHits q key) :
    getQueryParam q key = namedValue q key ∧
      ∀ q', (∀ k ∈ statsKeys, SearchHits q k ∧ SearchHits q' k ∧ namedValue q k = namedValue q' k) →
        ∀ (call : Call) (context : RouteContext) (w : World), handleLinkStats call { context with queryString := q } w =
          handleLinkStats call { context with queryString := q' } w := by
  refine ⟨getQueryParam_eq_of_hits hand heq hhits, ?_⟩
  intro q' hsame call context w
  refine handleLinkStats_congr (fun k hk => ?_) call context w
  have hclean : '&' ∉ k ∧ '=' ∉ k := by
    revert k
    decide
  obtain ⟨hq, hq', hvalue⟩ := hsame k hk
  rw [getQueryParam_eq_of_hits hclean.1 hclean.2 hq, getQueryParam_eq_of_hits hclean.1 hclean.2 hq', hvalue]

/-- Two query strings that differ in the order of the parameters, and in one that has no part in the window. -/
theorem getQueryParam_named_swapped :
    namedValue "to=9&from=2" "from" = "2" ∧
      getQueryParam "to=9&from=2" "from" = namedValue "to=9&from=2" "from" ∧
      ∀ (call : Call) (context : RouteContext) (w : World),
        handleLinkStats call { context with queryString := "to=9&from=2" } w =
          handleLinkStats call { context with queryString := "from=2&utm=x&to=9" } w := by
  obtain ⟨hvalue, hstats⟩ := getQueryParam_named "to=9&from=2" "from" (by decide) (by decide) (by decide)
  exact ⟨by decide, hvalue, hstats "from=2&utm=x&to=9" (by decide)⟩

/-- A parameter whose name ends in `from` is taken for it, and so is a value that holds `from=`. -/
theorem longer_name_read :
    getQueryParam "xfrom=1&from=2" "from" = "1" ∧
      namedValue "xfrom=1&from=2" "from" = "2" ∧
      getQueryParam "utm=from=1&from=2" "from" = "1" ∧
      namedValue "utm=from=1&from=2" "from" = "2" := by
  decide

end UrlShortener

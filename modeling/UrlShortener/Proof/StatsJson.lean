import UrlShortener.Proof.StatsEndpoints
import UrlShortener.Proof.Writer

/-!
# Statistics as JSON

The bounds of the window are printed as they were given, as texts that `std::stoll` accepts.

* `epochSeconds_text`: such a text is blanks, a sign and digits.
* `valueText_epoch`: it is a JSON number exactly when the blanks are those of JSON, the sign is no plus sign, and no
  zero leads.
* `stats_isJson_iff`: **the statistics are JSON** exactly when both bounds are such numbers and the slug holds no
  control character that is printed as it is.
-/

namespace UrlShortener

open Text Json
open Analytics

/-! ## The text -/

/-- The members of the statistics object. -/
def statsMembers (stats : LinkStatsView) : List (Str × Str) :=
  [("slug", jsonString stats.slug),
   ("total_attempts", decimal stats.totalAttempts.toNat),
   ("successful_redirects", decimal stats.successfulRedirects.toNat),
   ("attempts_by_status_code",
    objectText (stats.statusCodeCounts.map fun i => (decimal i.statusCode, decimal i.count.toNat))),
   ("attempts_by_domain",
    objectText (stats.domainCounts.map fun i => (jsonEscape i.domain, decimal i.count.toNat))),
   ("time_buckets",
    arrayText (stats.timeBuckets.map fun i => objectText
      [("bucket_start", (toString i.bucketStartEpoch).toList), ("count", decimal i.count.toNat)])),
   ("from", stats.from_),
   ("to", stats.to_),
   ("bucket", jsonString stats.bucket)]

theorem serializeLinkStatsJson_eq (stats : LinkStatsView) :
    serializeLinkStatsJson stats = objectText (statsMembers stats) := by
  have hstatus : (stats.statusCodeCounts.map fun i => (decimal i.statusCode, decimal i.count.toNat)).map memberText =
      stats.statusCodeCounts.map fun i => ['"'] ++ decimal i.statusCode ++ "\":" ++ decimal i.count.toNat := by
    simp [memberText]
  have hdomain : (stats.domainCounts.map fun i => (jsonEscape i.domain, decimal i.count.toNat)).map memberText =
      stats.domainCounts.map fun i => jsonString i.domain ++ [':'] ++ decimal i.count.toNat := by
    simp [memberText, jsonString]
  have hbucket : (fun i : TimeBucketView => objectText
      [("bucket_start", (toString i.bucketStartEpoch).toList), ("count", decimal i.count.toNat)]) =
      fun i => "\x7b\"bucket_start\":" ++ (toString i.bucketStartEpoch).toList ++
        ",\"count\":" ++ decimal i.count.toNat ++ "\x7d" := by
    funext i
    simp [objectText, memberText]
  unfold serializeLinkStatsJson statsMembers
  rw [hbucket, ← hstatus, ← hdomain]
  unfold commaSep objectText arrayText
  simp [memberText]

/-! ## The bounds -/

theorem splitSign_cases (s : Str) :
    ∃ sign : Option Char, (∀ c ∈ sign, c = '-' ∨ c = '+') ∧ s = sign.toList ++ (splitSign s).2 := by
  unfold splitSign
  split
  · exact ⟨some '-', by simp, rfl⟩
  · exact ⟨some '+', by simp, rfl⟩
  · exact ⟨none, by simp, rfl⟩

theorem isDigits_of_dropWhile {s : Str} (hne : s.takeWhile Char.isDigit ≠ []) (hrest : s.dropWhile Char.isDigit = []) :
    isDigits s = true := by
  have hall := List.dropWhile_eq_nil_iff.1 hrest
  have hs : s ≠ [] := by
    rintro rfl
    exact hne rfl
  simpa [isDigits, hs] using hall

/-- **A text that `std::stoll` reads as a whole**: blanks, a sign and digits. -/
theorem epochSeconds_text {value : Str} {n : ℤ} (h : epochSeconds value = some n) :
    ∃ (ws : Str) (sign : Option Char) (digits : Str), Blank ws ∧ (∀ c ∈ sign, c = '-' ∨ c = '+') ∧
      isDigits digits = true ∧ value = ws ++ (sign.toList ++ digits) := by
  unfold epochSeconds at h
  cases hstoll : stoll value with
  | none => simp [hstoll] at h
  | some p =>
    obtain ⟨epoch, rest⟩ := p
    obtain rfl : rest = [] := by
      by_contra hne
      simp [hstoll, hne] at h
    obtain ⟨sign, hsign, htext⟩ := splitSign_cases (value.dropWhile isSpace)
    obtain ⟨⟨numeral, rest⟩, hnumeral, hvalue⟩ := Option.bind_eq_some_iff.1 hstoll
    simp only [readNumeral, Option.ite_none_left_eq_some, Option.some.injEq, Prod.mk.injEq] at hnumeral hvalue
    obtain ⟨hne, -, rfl⟩ := hnumeral
    have hrest := hvalue.2.2
    refine ⟨value.takeWhile isSpace, sign, _, blank_takeWhile value, hsign, isDigits_of_dropWhile hne hrest, ?_⟩
    rw [← htext, List.takeWhile_append_dropWhile]

/-- A JSON number without fraction and exponent, behind white space. -/
def isJsonInteger (value : Str) : Bool :=
  match skipWhite value with
  | '-' :: digits => isInteger digits
  | digits => isInteger digits

theorem isJsonInteger_white {ws : Str} (hws : ∀ c ∈ ws, isWhite c = true) (w : Str) :
    isJsonInteger (ws ++ w) = isJsonInteger w := by
  rw [isJsonInteger, skipWhite, List.dropWhile_append_of_pos hws]
  rfl

/-- A text that begins with neither a sign nor a digit is no number. -/
theorem isJsonInteger_other {c : Char} {t : Str} (hwhite : isWhite c = false) (hminus : c ≠ '-')
    (hdigit : c.isDigit = false) : isJsonInteger (c :: t) = false := by
  rw [isJsonInteger, skipWhite_cons hwhite]
  split
  · rename_i heq
    exact absurd (List.cons.inj heq).1 hminus
  · by_contra hint
    rw [Bool.not_eq_false] at hint
    have hdigits := isDigits_of_isInteger hint
    simp [isDigits, hdigit] at hdigits

theorem isJsonInteger_digits {digits : Str} (h : isDigits digits = true) :
    isJsonInteger digits = isInteger digits := by
  cases digits with
  | nil => cases h
  | cons c t =>
    simp only [isDigits, List.all_cons, Bool.and_eq_true] at h
    have hc : c.isDigit = true := h.2.1
    rw [isJsonInteger, skipWhite_cons (isWhite_of_isDigit hc)]
    split
    · rename_i heq
      exact absurd (List.cons.inj heq).1 (ne_of_isDigit hc rfl)
    · rfl

/-- **A bound of the window** is a JSON number, or no JSON value at all. -/
theorem valueText_epoch {value : Str} {n : ℤ} (h : epochSeconds value = some n) :
    ValueText (isJsonInteger value = true) value := by
  obtain ⟨ws, sign, digits, hws, hsign, hdigits, rfl⟩ := epochSeconds_text h
  have hwhite : ∀ c ∈ ws.takeWhile isWhite, isWhite c = true := fun c hc => List.mem_takeWhile_imp hc
  have hsplit : ws ++ (sign.toList ++ digits) =
      ws.takeWhile isWhite ++ (ws.dropWhile isWhite ++ (sign.toList ++ digits)) := by
    rw [← List.append_assoc (ws.takeWhile isWhite), List.takeWhile_append_dropWhile]
  rw [hsplit, isJsonInteger_white hwhite]
  refine ValueText.white ?_ hwhite
  cases hrest : ws.dropWhile isWhite with
  | cons c rest =>
    -- a vertical tab or a form feed
    have hne : ws.dropWhile isWhite ≠ [] := by simp [hrest]
    have hc : isWhite c = false := by simpa [hrest] using List.head_dropWhile_not isWhite hne
    have hspace : isSpace c = true := hws c ((List.dropWhile_suffix isWhite).subset (by simp [hrest]))
    have hminus : c ≠ '-' := by
      rintro rfl
      cases hspace
    have hdigit : c.isDigit = false := isDigit_of_isSpace hspace
    have hstart : c ∉ ['n', 't', 'f', '"', '[', '{'] := by
      intro hmem
      simp only [List.mem_cons, List.not_mem_nil, or_false] at hmem
      rcases hmem with rfl | rfl | rfl | rfl | rfl | rfl <;> cases hspace
    rw [List.cons_append, isJsonInteger_other hc hminus hdigit]
    simpa using valueText_false hc hstart hminus hdigit
  | nil =>
    rw [List.nil_append]
    cases sign with
    | none =>
      rw [Option.toList_none, List.nil_append, isJsonInteger_digits hdigits]
      exact valueText_digits hdigits false
    | some c =>
      rcases hsign c rfl with rfl | rfl
      · exact valueText_digits hdigits true
      · have hplus : isJsonInteger ('+' :: digits) = false := isJsonInteger_other rfl (by decide) rfl
        rw [Option.toList_some, List.singleton_append, hplus]
        simpa using valueText_false (c := '+') (t := digits) rfl (by decide) (by decide) rfl

/-! ## The whole text -/

/-- What the texts of a view must be for the object to be JSON: a condition on three of its members. -/
def MemberOk (stats : LinkStatsView) (m : Str × Str) : Prop :=
  (m.1 = "slug" → Printable stats.slug) ∧ (m.1 = "from" → isJsonInteger stats.from_ = true) ∧
    (m.1 = "to" → isJsonInteger stats.to_ = true)

theorem valueText_counts (counts : List (Str × UInt64)) (h : ∀ i ∈ counts, IsName i.1) :
    ValueText True (objectText (counts.map fun i => (i.1, decimal i.2.toNat))) := by
  have hmembers : ∀ m ∈ counts.map fun i => (i.1, decimal i.2.toNat), IsName m.1 ∧ ValueText True m.2 := by
    intro m hm
    obtain ⟨i, hi, rfl⟩ := List.mem_map.1 hm
    exact ⟨h i hi, valueText_decimal _⟩
  exact (valueText_objectText hmembers).congr (by simp)

theorem isName_decimal (n : ℕ) : IsName (decimal n) := by
  refine isName_of_isPlain (List.all_eq_true.2 fun c hc => ?_)
  have hdigit := decimal_isDigit hc
  have hlow := ((isDigit_iff c).1 hdigit).1
  simp [isPlain, ne_of_isDigit hdigit (d := '"') rfl, ne_of_isDigit hdigit (d := '\\') rfl]
  omega

/-- A member with a fixed name. -/
theorem literal_member (name : Str) {w : Str} {good : Prop} (hname : name.all isPlain = true) (hw : ValueText good w) :
    IsName (name, w).1 ∧ ValueText good (name, w).2 :=
  ⟨isName_of_isPlain hname, hw⟩

theorem valueText_timeBuckets (buckets : List TimeBucketView) :
    ValueText True (arrayText (buckets.map fun i => objectText
      [("bucket_start".toList, (toString i.bucketStartEpoch).toList), ("count".toList, decimal i.count.toNat)])) := by
  refine valueText_arrayText fun w hw => ?_
  obtain ⟨i, -, rfl⟩ := List.mem_map.1 hw
  have hmembers : ∀ m ∈ [("bucket_start".toList, (toString i.bucketStartEpoch).toList),
      ("count".toList, decimal i.count.toNat)], IsName m.1 ∧ ValueText True m.2 := by
    rw [List.forall_mem_cons, List.forall_mem_singleton]
    exact ⟨literal_member "bucket_start".toList (by decide) (valueText_toString _),
      literal_member "count".toList (by decide) (valueText_decimal _)⟩
  exact (valueText_objectText hmembers).congr (by simp)

/-- **The statistics of a view**, if its domains and its bucket are printable and its bounds are texts of numbers. -/
theorem serializeLinkStatsJson_isJson_iff {stats : LinkStatsView} {f t : ℤ} (hfrom : epochSeconds stats.from_ = some f)
    (hto : epochSeconds stats.to_ = some t) (hbucket : Printable stats.bucket)
    (hdomains : ∀ d ∈ stats.domainCounts, Printable d.domain) :
    IsJson (serializeLinkStatsJson stats) ↔
      Printable stats.slug ∧ isJsonInteger stats.from_ = true ∧ isJsonInteger stats.to_ = true := by
  have hstatus := valueText_counts (stats.statusCodeCounts.map fun i => (decimal i.statusCode, i.count)) (by
    simp [isName_decimal])
  have hdomain := valueText_counts (stats.domainCounts.map fun i => (jsonEscape i.domain, i.count)) (by
    simpa using fun d hd => isName_jsonEscape (hdomains d hd))
  rw [List.map_map] at hstatus hdomain
  -- the other members are values in any case
  have hfree : ∀ (name : Str) {w : Str}, name ∉ ["slug".toList, "from".toList, "to".toList] → ValueText True w →
      ValueText (MemberOk stats (name, w)) w := by
    intro name w hname hw
    simp only [List.mem_cons, List.not_mem_nil, or_false, not_or] at hname
    exact hw.congr (iff_of_true trivial ⟨fun h => absurd h hname.1, fun h => absurd h hname.2.1,
      fun h => absurd h hname.2.2⟩)
  have hmembers : ∀ m ∈ statsMembers stats, IsName m.1 ∧ ValueText (MemberOk stats m) m.2 := by
    unfold statsMembers
    simp only [List.forall_mem_cons]
    refine ⟨literal_member _ (by decide) ((valueText_jsonString _).congr (by simp [MemberOk])),
      literal_member _ (by decide) (hfree _ (by decide) (valueText_decimal _)),
      literal_member _ (by decide) (hfree _ (by decide) (valueText_decimal _)),
      literal_member _ (by decide) (hfree _ (by decide) hstatus),
      literal_member _ (by decide) (hfree _ (by decide) hdomain),
      literal_member _ (by decide) (hfree _ (by decide) (valueText_timeBuckets _)),
      literal_member _ (by decide) ((valueText_epoch hfrom).congr (by simp [MemberOk])),
      literal_member _ (by decide) ((valueText_epoch hto).congr (by simp [MemberOk])),
      literal_member _ (by decide) (hfree _ (by decide) ((valueText_jsonString _).congr (by simp [hbucket]))),
      by simp⟩
  rw [serializeLinkStatsJson_eq, isJson_objectText hmembers]
  simp [statsMembers, MemberOk]

theorem printable_bucket {bucket : Str} {b : Clicks.AggregateBucket} (h : parseBucket bucket = some b) :
    Printable bucket := by
  unfold parseBucket at h
  split_ifs at h with hhour hday hweek
  · rw [hhour]
    decide
  · rw [hday]
    decide
  · rw [hweek]
    decide

/-- **What the reader accepts is printed as JSON** exactly when the bounds are JSON numbers as they were given, and
the slug holds no control character but line feed, carriage return and tab. -/
theorem stats_isJson_iff (repo : ClickEventRepository)
    (hrepo : ∀ q stats, repo q = some stats → ∀ d ∈ stats.domainCounts, ∀ c ∈ d.domain, 32 ≤ c.toNat)
    (query : GetLinkStatsQuery) (view : LinkStatsView) (h : LegacyLinkStatsReader.read repo query = .ok view) :
    IsJson (serializeLinkStatsJson view) ↔
      Printable query.slug ∧ isJsonInteger query.from_ = true ∧ isJsonInteger query.to_ = true := by
  obtain ⟨f, t, b, stats, hanswered, rfl⟩ := read_ok_iff.1 h
  refine serializeLinkStatsJson_isJson_iff hanswered.from_ hanswered.to_ (printable_bucket hanswered.bucket) ?_
  intro d hd c hc
  obtain ⟨i, hi, rfl⟩ := List.mem_map.1 hd
  have hlow : ¬c.toNat < 32 := Nat.not_lt.2 (hrepo _ _ hanswered.repository i hi c hc)
  simp [isBareControl, hlow]

/-- A repository without events. -/
def noEvents : ClickEventRepository := fun _ => some {}

/-- Three events of two domains. -/
def someEvents : ClickEventRepository := fun _ =>
  some { totalAttempts := 3, successfulRedirects := 2, statusCodeCounts := [⟨302, 2⟩, ⟨404, 1⟩],
         domainCounts := [⟨"a.io", 2⟩, ⟨"\"b\"", 1⟩], timeBuckets := [⟨0, 3⟩] }

theorem stats_isJson_iff_sample :
    ∃ view, LegacyLinkStatsReader.read someEvents ⟨"a", " -5", "90", "day"⟩ = .ok view ∧
      view.domainCounts.length = 2 ∧ IsJson (serializeLinkStatsJson view) := by
  refine ⟨_, rfl, rfl, (stats_isJson_iff someEvents ?_ ⟨"a", " -5", "90", "day"⟩ _ rfl).2
    (by decide)⟩
  have hall : ([⟨"a.io", 2⟩, ⟨"\"b\"", 1⟩] : List DomainCount).all
      (fun d => d.domain.all fun c => decide (32 ≤ c.toNat)) = true := by decide
  rintro q stats ⟨⟩ d hd c hc
  exact of_decide_eq_true (List.all_eq_true.1 (List.all_eq_true.1 hall d hd) c hc)

/-- A plus sign and a leading zero are accepted and printed, and are no JSON. -/
theorem signed_bound_not_json :
    ∃ view, LegacyLinkStatsReader.read noEvents ⟨"a", "+5", "090", "day"⟩ = .ok view ∧
      ¬IsJson (serializeLinkStatsJson view) := by
  refine ⟨LegacyLinkStatsReader.toView ⟨"a", "+5", "090", "day"⟩ {}, rfl, ?_⟩
  rw [serializeLinkStatsJson_isJson_iff (f := 5) (t := 90) rfl rfl (by decide) (by rintro d ⟨⟩)]
  decide

end UrlShortener

import UrlShortener.Calendar.Months
import UrlShortener.Proof.Commands
import UrlShortener.Proof.Time
import UrlShortener.Text.Case

/-!
# Texts accepted as an expiry

`std::get_time` reads a timestamp off the front of the text, skips white space before it and before the day, takes
fewer digits than a field has and letters of either case, and is content with a text that ends behind a number;
`timegm` carries a day that the month does not have over to the next one.

* `Spelling`, `exists_spelling`: the texts without white space that are long enough not to end early, by their parts.
* `NamesSecond`: the texts that are the timestamp of a second of UTC, and nothing else.
* `expiry_namesSecond_iff`: **what an accepted text needs to be one of them.**
-/

namespace UrlShortener

open Calendar Text

/-! ## Seconds of UTC -/

/-- **The text names a second of UTC**: it is the `YYYY-MM-DDThh:mm:ssZ` of some second. -/
def NamesSecond (s : Str) : Prop := ∃ tm : Tm, (0 ≤ tm.year ∧ tm.year ≤ 9999) ∧ (∃ t, gmtime t = tm) ∧ s = putTime tm

/-- **The calendar fields of the seconds that there are.** -/
theorem exists_gmtime_iff (tm : Tm) :
    (∃ t, gmtime t = tm) ↔ ((1 ≤ tm.mon ∧ tm.mon ≤ 12) ∧ 1 ≤ tm.mday ∧ tm.mday ≤ monthDays tm.year tm.mon) ∧
      (0 ≤ tm.hour ∧ tm.hour ≤ 23) ∧ (0 ≤ tm.min ∧ tm.min ≤ 59) ∧ 0 ≤ tm.sec ∧ tm.sec ≤ 59 := by
  constructor
  · rintro ⟨t, rfl⟩
    refine ⟨(exists_day_iff _).1 ⟨t / 86400, rfl⟩, ?_, ?_, ?_⟩ <;> simp only [gmtime] <;> omega
  · obtain ⟨year, mon, mday, hour, min, sec⟩ := tm
    rintro ⟨hdate, hhour, hmin, hsec⟩
    obtain ⟨n, hn⟩ := (exists_day_iff ⟨year, mon, mday⟩).2 hdate
    simp only at hhour hmin hsec
    refine ⟨n * 86400 + hour * 3600 + min * 60 + sec, ?_⟩
    have hday : (n * 86400 + hour * 3600 + min * 60 + sec) / 86400 = n := by omega
    have hrest : (n * 86400 + hour * 3600 + min * 60 + sec) % 86400 = hour * 3600 + min * 60 + sec := by omega
    simp only [gmtime, hday, hrest, hn, Tm.mk.injEq, true_and]
    omega

/-! ## What is read -/

/-- The digits of a field: some, and not more than the field has. -/
structure Digits (len : ℕ) (ds : Str) : Prop where
  ne_nil : ds ≠ []
  length : ds.length ≤ len
  digit : ∀ c ∈ ds, c.isDigit = true

theorem extractNum_some {len lo hi : ℕ} {s rest : Str} {v : ℤ} (h : extractNum len lo hi s = some (v, rest)) :
    ∃ ds, Digits len ds ∧ v = digitsValue ds ∧ s = ds ++ rest := by
  unfold extractNum at h
  simp only at h
  split at h
  · cases h
  rename_i hne
  split at h
  · cases h
    refine ⟨_, ⟨fun hnil => hne (by rw [hnil]; rfl), ?_, fun c hc => List.mem_takeWhile_imp hc⟩, rfl, ?_⟩
    · exact (List.takeWhile_prefix _).length_le.trans (List.length_take_le _ _)
    · -- the digits are a front of the text
      have hfront : (s.take len).takeWhile Char.isDigit <+: s := (List.takeWhile_prefix _).trans (List.take_prefix _ _)
      exact (List.prefix_iff_eq_append.1 hfront).symm
  · cases h

/-- The most characters that are taken for an element of a format, white space apart. -/
def FormatItem.width : FormatItem → ℕ
  | .year => 4
  | .lit _ => 1
  | _ => 2

/-- The characters that are taken for an element, and what they do to the calendar fields. -/
def Takes : FormatItem → Tm → Str → Tm → Prop
  | .year, tm, ds, tm' => Digits 4 ds ∧ tm' = { tm with year := digitsValue ds }
  | .mon, tm, ds, tm' => Digits 2 ds ∧ tm' = { tm with mon := digitsValue ds }
  | .mday, tm, ds, tm' => (Digits 2 ds ∧ 1 ≤ digitsValue ds) ∧ tm' = { tm with mday := digitsValue ds }
  | .hour, tm, ds, tm' => Digits 2 ds ∧ tm' = { tm with hour := digitsValue ds }
  | .min, tm, ds, tm' => Digits 2 ds ∧ tm' = { tm with min := digitsValue ds }
  | .sec, tm, ds, tm' => Digits 2 ds ∧ tm' = { tm with sec := digitsValue ds }
  | .lit c, tm, taken, tm' => (∃ d, taken = [d] ∧ d.toLower = c.toLower) ∧ tm' = tm

/-- The text has no white space, and is long enough for every element of the format. -/
structure Roomy (fmt : List FormatItem) (s : Str) : Prop where
  plain : ∀ c ∈ s, isSpace c = false
  width : (fmt.map FormatItem.width).sum ≤ s.length

section Format

variable {item : FormatItem} {fmt : List FormatItem} {tm tm' tm₁ : Tm} {s rest : Str}

theorem Takes.length_le {taken : Str} (h : Takes item tm taken tm') : taken.length ≤ item.width := by
  cases item with
  | lit c =>
    obtain ⟨⟨d, rfl, -⟩, -⟩ := h
    exact le_rfl
  | mday => exact h.1.1.length
  | _ => exact h.1.length

theorem getItem_takes (hplain : ∀ c ∈ s, isSpace c = false) (h : getItem item tm s = some (tm₁, rest)) :
    ∃ taken, s = taken ++ rest ∧ Takes item tm taken tm₁ := by
  cases item with
  | lit c =>
    cases s with
    | nil => cases h
    | cons d s =>
      rw [getItem] at h
      split at h
      · rename_i heq
        cases h
        exact ⟨[d], rfl, ⟨d, rfl, heq⟩, rfl⟩
      · cases h
  | mday =>
    have hskip : skipBlank s = s := by
      cases s with
      | nil => rfl
      | cons c s => exact if_neg (by simp [hplain c])
    rw [getItem, hskip] at h
    obtain ⟨⟨v, _⟩, hp, ⟨⟩⟩ := Option.map_eq_some_iff.1 h
    have hlow := (extractNum_range hp).1
    obtain ⟨ds, hds, rfl, rfl⟩ := extractNum_some hp
    exact ⟨ds, rfl, ⟨hds, Int.ofNat_le.1 hlow⟩, rfl⟩
  | _ =>
    obtain ⟨⟨v, _⟩, hp, ⟨⟩⟩ := Option.map_eq_some_iff.1 h
    obtain ⟨ds, hds, rfl, rfl⟩ := extractNum_some hp
    exact ⟨ds, rfl, hds, rfl⟩

/-- **An element of the format, in a text that is long enough**: it takes its characters, and the rest is long enough
for the rest of the format. -/
theorem Roomy.next (hroom : Roomy (item :: fmt) s) (h : getTime (item :: fmt) tm s = some tm') :
    ∃ taken tm₁ rest, s = taken ++ rest ∧ Takes item tm taken tm₁ ∧ Roomy fmt rest ∧
      getTime fmt tm₁ rest = some tm' := by
  obtain ⟨tm₁, rest, hitem, hnext⟩ := getTime_cons_some h
  obtain ⟨taken, rfl, htakes⟩ := getItem_takes hroom.plain hitem
  have hwidth := hroom.width
  have htaken := htakes.length_le
  rw [List.map_cons, List.sum_cons, List.length_append] at hwidth
  have hrest : Roomy fmt rest := ⟨fun c hc => hroom.plain c (List.mem_append_right _ hc), by omega⟩
  refine ⟨taken, tm₁, rest, rfl, htakes, hrest, ?_⟩
  rcases hnext with ⟨rfl, rfl⟩ | hnext
  · -- the text ends here, so there is nothing left of the format
    cases fmt with
    | nil => rfl
    | cons item' fmt =>
      have hempty := hrest.width
      cases item' <;> simp [FormatItem.width] at hempty
  · exact hnext

end Format

/-- **A text that is read as a timestamp**, by its parts. -/
structure Spelling where
  year : Str
  mon : Str
  mday : Str
  t : Char
  hour : Str
  min : Str
  sec : Str
  z : Char
  after : Str

namespace Spelling

variable (p : Spelling)

/-- The stamp as it is written. -/
def text : Str :=
  p.year ++ '-' :: (p.mon ++ '-' :: (p.mday ++ p.t :: (p.hour ++ ':' :: (p.min ++ ':' ::
    (p.sec ++ p.z :: p.after)))))

/-- The fields that are read. -/
def tm : Tm :=
  ⟨digitsValue p.year, digitsValue p.mon, digitsValue p.mday, digitsValue p.hour, digitsValue p.min, digitsValue p.sec⟩

/-- What is checked of the parts, the ranges of most values apart. -/
structure Read : Prop where
  year : Digits 4 p.year
  mon : Digits 2 p.mon
  mday : Digits 2 p.mday
  mday_pos : 1 ≤ digitsValue p.mday
  t : p.t.toLower = 't'
  hour : Digits 2 p.hour
  min : Digits 2 p.min
  sec : Digits 2 p.sec
  z : p.z.toLower = 'z'

end Spelling

/-- **A text that is read and long enough has a spelling**, with the calendar fields that are read. -/
theorem exists_spelling {s : Str} {tm : Tm} (hroom : Roomy rfc3339Format s) (h : parseTm s = some tm) :
    ∃ p : Spelling, p.Read ∧ p.text = s ∧ p.tm = tm := by
  have hstart : s.dropWhile isSpace = s := by
    cases s with
    | nil => rfl
    | cons c s => exact List.dropWhile_cons_of_neg (by simp [hroom.plain c])
  rw [parseTm, hstart] at h
  unfold rfc3339Format at hroom h
  -- the format in turn: a field, then a character that is compared without case
  obtain ⟨year, _, _, rfl, ⟨hyear, rfl⟩, hroom, h⟩ := hroom.next h
  obtain ⟨_, _, _, rfl, ⟨⟨_, rfl, hdash⟩, rfl⟩, hroom, h⟩ := hroom.next h
  obtain ⟨mon, _, _, rfl, ⟨hmon, rfl⟩, hroom, h⟩ := hroom.next h
  obtain ⟨_, _, _, rfl, ⟨⟨_, rfl, hdash'⟩, rfl⟩, hroom, h⟩ := hroom.next h
  obtain ⟨mday, _, _, rfl, ⟨⟨hmday, hpos⟩, rfl⟩, hroom, h⟩ := hroom.next h
  obtain ⟨_, _, _, rfl, ⟨⟨t, rfl, ht⟩, rfl⟩, hroom, h⟩ := hroom.next h
  obtain ⟨hour, _, _, rfl, ⟨hhour, rfl⟩, hroom, h⟩ := hroom.next h
  obtain ⟨_, _, _, rfl, ⟨⟨_, rfl, hcolon⟩, rfl⟩, hroom, h⟩ := hroom.next h
  obtain ⟨min, _, _, rfl, ⟨hmin, rfl⟩, hroom, h⟩ := hroom.next h
  obtain ⟨_, _, _, rfl, ⟨⟨_, rfl, hcolon'⟩, rfl⟩, hroom, h⟩ := hroom.next h
  obtain ⟨sec, _, _, rfl, ⟨hsec, rfl⟩, hroom, h⟩ := hroom.next h
  obtain ⟨_, _, after, rfl, ⟨⟨z, rfl, hz⟩, rfl⟩, -, h⟩ := hroom.next h
  cases h
  rw [toLower_eq_iff (by decide)] at hdash hdash' hcolon hcolon'
  subst hdash hdash' hcolon hcolon'
  exact ⟨⟨year, mon, mday, t, hour, min, sec, z, after⟩, ⟨hyear, hmon, hmday, hpos, ht, hhour, hmin, hsec, hz⟩,
    by simp [Spelling.text], rfl⟩

/-! ## Texts of the full length -/

/-- The number in `n` places from the `i`-th on. -/
def numberAt (s : Str) (i n : ℕ) : ℕ := digitsValue ((s.drop i).take n)

/-- **What makes an accepted text exact**: it has 20 characters, none of them white space, a small `t` or a small `z`,
and no `Z` before the last; the day is one of its month, and the second is one of its minute. -/
structure ExactText (s : Str) : Prop where
  length : s.length = 20
  plain : ∀ c ∈ s, isSpace c = false ∧ c ≠ 't' ∧ c ≠ 'z'
  ending : 'Z' ∉ s.take 19
  day : (numberAt s 8 2 : ℤ) ≤ monthDays (numberAt s 0 4) (numberAt s 5 2)
  second : numberAt s 17 2 ≤ 59

theorem digit_of_isDigit {c : Char} (h : c.isDigit = true) {n : ℕ} (hn : n % 10 = c.toNat - 48) : digit n = c := by
  have hrange := (isDigit_iff c).1 h
  rw [digit, hn, Nat.add_sub_cancel' hrange.1, Char.ofNat_toNat]

/-- A full field of two digits is what is printed for its value. -/
theorem digits2_digitsValue {a b : Char} (ha : a.isDigit = true) (hb : b.isDigit = true) :
    digits2 (digitsValue [a, b]) = [a, b] := by
  have hra := (isDigit_iff a).1 ha
  have hrb := (isDigit_iff b).1 hb
  have hvalue : (digitsValue [a, b] : ℤ).toNat = 10 * (a.toNat - 48) + (b.toNat - 48) := by
    rw [Int.toNat_natCast]
    simp [digitsValue]
  rw [digits2, hvalue, digit_of_isDigit ha (by omega), digit_of_isDigit hb (by omega)]

theorem digits4_digitsValue {a b c d : Char} (ha : a.isDigit = true) (hb : b.isDigit = true) (hc : c.isDigit = true)
    (hd : d.isDigit = true) : digits4 (digitsValue [a, b, c, d]) = [a, b, c, d] := by
  have hra := (isDigit_iff a).1 ha
  have hrb := (isDigit_iff b).1 hb
  have hrc := (isDigit_iff c).1 hc
  have hrd := (isDigit_iff d).1 hd
  have hvalue : (digitsValue [a, b, c, d] : ℤ).toNat =
      10 * (10 * (10 * (a.toNat - 48) + (b.toNat - 48)) + (c.toNat - 48)) + (d.toNat - 48) := by
    rw [Int.toNat_natCast]
    simp [digitsValue]
  rw [digits4, hvalue, digit_of_isDigit ha (by omega), digit_of_isDigit hb (by omega), digit_of_isDigit hc (by omega),
    digit_of_isDigit hd (by omega)]

theorem Digits.eq_two {ds : Str} (h : Digits 2 ds) (hlen : ds.length = 2) :
    ∃ a b, ds = [a, b] ∧ digits2 (digitsValue ds) = ds := by
  obtain ⟨a, b, rfl⟩ := List.length_eq_two.1 hlen
  exact ⟨a, b, rfl, digits2_digitsValue (h.digit a (by simp)) (h.digit b (by simp))⟩

theorem Digits.eq_four {ds : Str} (h : Digits 4 ds) (hlen : ds.length = 4) :
    ∃ a b c d, ds = [a, b, c, d] ∧ digits4 (digitsValue ds) = ds := by
  obtain ⟨a, b, c, d, rfl⟩ : ∃ a b c d, ds = [a, b, c, d] := by
    match ds, hlen with
    | [a, b, c, d], _ => exact ⟨a, b, c, d, rfl⟩
  exact ⟨a, b, c, d, rfl, digits4_digitsValue (h.digit a (by simp)) (h.digit b (by simp)) (h.digit c (by simp))
    (h.digit d (by simp))⟩

/-- **A spelling of an exact text has all its digits and nothing around it.** -/
theorem Spelling.Read.full {p : Spelling} (h : p.Read) (he : ExactText p.text) :
    p.after = [] ∧ p.t = 'T' ∧ p.z = 'Z' ∧ p.year.length = 4 ∧ p.mon.length = 2 ∧ p.mday.length = 2 ∧
      p.hour.length = 2 ∧ p.min.length = 2 ∧ p.sec.length = 2 := by
  have ht : p.t = 'T' := by
    have hplain := (he.plain p.t (by simp [text])).2.1
    exact (eq_or_of_toLower_eq h.t).resolve_left hplain
  have hz : p.z = 'Z' := by
    have hplain := (he.plain p.z (by simp [text])).2.2
    exact (eq_or_of_toLower_eq h.z).resolve_left hplain
  obtain ⟨front, hfront, hlen⟩ : ∃ front : Str, p.text = front ++ 'Z' :: p.after ∧
      front.length =
        p.year.length + p.mon.length + p.mday.length + p.hour.length + p.min.length + p.sec.length + 5 := by
    refine ⟨p.year ++ '-' :: (p.mon ++ '-' :: (p.mday ++ p.t :: (p.hour ++ ':' :: (p.min ++ ':' :: p.sec)))), ?_, ?_⟩
    · simp [text, hz]
    · simp only [List.length_append, List.length_cons]
      omega
  -- the `Z` that is read is the last character, so nothing is missing before it
  have hending := he.ending
  have hlength := he.length
  rw [hfront, List.length_append, List.length_cons] at hlength
  have hlast : 19 ≤ front.length := by
    by_contra hshort
    obtain ⟨k, hk⟩ : ∃ k, 19 - front.length = k + 1 := ⟨18 - front.length, by omega⟩
    refine hending ?_
    rw [hfront, List.take_append, hk, List.take_succ_cons]
    exact List.mem_append_right _ List.mem_cons_self
  have hyear := h.year.length
  have hmon := h.mon.length
  have hmday := h.mday.length
  have hhour := h.hour.length
  have hmin := h.min.length
  have hsec := h.sec.length
  refine ⟨List.eq_nil_of_length_eq_zero (by omega), ht, hz, ?_⟩
  omega

theorem ExactText.eq_putTime {p : Spelling} (h : p.Read) (he : ExactText p.text) :
    p.text = putTime p.tm ∧ p.tm.mday = numberAt p.text 8 2 ∧ p.tm.mon = numberAt p.text 5 2 ∧
      p.tm.year = numberAt p.text 0 4 ∧ p.tm.sec = numberAt p.text 17 2 := by
  obtain ⟨hafter, ht, hz, hyear, hmon, hmday, hhour, hmin, hsec⟩ := h.full he
  -- 20 characters leave every field its full width
  obtain ⟨y₁, y₂, y₃, y₄, hy, hyear⟩ := h.year.eq_four hyear
  obtain ⟨m₁, m₂, hm, hmon⟩ := h.mon.eq_two hmon
  obtain ⟨d₁, d₂, hd, hmday⟩ := h.mday.eq_two hmday
  obtain ⟨h₁, h₂, hh, hhour⟩ := h.hour.eq_two hhour
  obtain ⟨n₁, n₂, hn, hmin⟩ := h.min.eq_two hmin
  obtain ⟨s₁, s₂, hs, hsec⟩ := h.sec.eq_two hsec
  have htext : p.text = [y₁, y₂, y₃, y₄, '-', m₁, m₂, '-', d₁, d₂, 'T', h₁, h₂, ':', n₁, n₂, ':', s₁, s₂, 'Z'] := by
    simp only [Spelling.text, hafter, ht, hz, hy, hm, hd, hh, hn, hs, List.nil_append, List.cons_append]
  refine ⟨?_, ?_, ?_, ?_, ?_⟩
  · simp only [putTime, Spelling.tm, hyear, hmon, hmday, hhour, hmin, hsec]
    rw [htext, hy, hm, hd, hh, hn, hs]
    rfl
  · rw [htext, Spelling.tm, hd]
    rfl
  · rw [htext, Spelling.tm, hm]
    rfl
  · rw [htext, Spelling.tm, hy]
    rfl
  · rw [htext, Spelling.tm, hs]
    rfl

theorem digit_plain (n : ℕ) : digit n ≠ 't' ∧ digit n ≠ 'z' ∧ digit n ≠ 'Z' := by
  have hall : ∀ d < 10, Char.ofNat (48 + d) ≠ 't' ∧ Char.ofNat (48 + d) ≠ 'z' ∧ Char.ofNat (48 + d) ≠ 'Z' := by
    decide
  exact hall _ (Nat.mod_lt n (by decide))

/-- The places of the fields of a timestamp. -/
theorem putTime_places (tm : Tm) : (putTime tm).length = 20 ∧
    numberAt (putTime tm) 0 4 = digitsValue (digits4 tm.year) ∧
    numberAt (putTime tm) 5 2 = digitsValue (digits2 tm.mon) ∧
    numberAt (putTime tm) 8 2 = digitsValue (digits2 tm.mday) ∧
    numberAt (putTime tm) 17 2 = digitsValue (digits2 tm.sec) := by
  simp [putTime, digits4, digits2, numberAt]

/-- **The timestamps of the seconds that there are are exact.** -/
theorem NamesSecond.exactText {s : Str} (h : NamesSecond s) : ExactText s := by
  obtain ⟨tm, hyear, hexists, rfl⟩ := h
  obtain ⟨⟨hmon, hmday⟩, -, -, hsec⟩ := (exists_gmtime_iff tm).1 hexists
  have hmonth : monthDays tm.year tm.mon ≤ 31 := by
    unfold monthDays
    split_ifs <;> omega
  obtain ⟨hlength, hyearAt, hmonAt, hmdayAt, hsecAt⟩ := putTime_places tm
  rw [digits4_value (by omega)] at hyearAt
  rw [digits2_value (by omega)] at hmonAt hmdayAt hsecAt
  refine ⟨hlength, ?_, ?_, ?_, ?_⟩
  · have hspace : isSpace '-' = false ∧ isSpace ':' = false ∧ isSpace 'T' = false ∧ isSpace 'Z' = false := by decide
    simp [putTime, digits4, digits2, digit_plain, digit_not_space, hspace]
  · simp [putTime, digits4, digits2, (digit_plain _).2.2.symm]
  · rw [hyearAt, hmonAt, hmdayAt, Int.toNat_of_nonneg hyear.1, Int.toNat_of_nonneg (by omega),
      Int.toNat_of_nonneg (by omega)]
    exact hmday.2
  · rw [hsecAt]
    omega

/-! ## Acceptance -/

/-- **`CreateLink` or `UpdateLink` accepts the text as an expiry**, in some state and with whatever else there is in the
command. -/
inductive AcceptsExpiry (s : Str) : Prop
  | create {config : ServerConfig} {env : Env} {command : CreateLinkCommand} {st : LinkStore} {view : LinkView}
      (hcommand : command.expiresAt = some s) (hok : (createLink config env command st).1 = .ok view)
  | update {config : ServerConfig} {env : Env} {command : UpdateLinkCommand} {st : LinkStore} {view : LinkView}
      (hcommand : command.expiresAt = some (some s)) (hok : (updateLink config env command st).1 = .ok view)

/-- Both have parsed the text. -/
theorem AcceptsExpiry.exists_parseTm {s : Str} (h : AcceptsExpiry s) : ∃ tm, parseTm s = some tm := by
  have hparse : (parseRfc3339Zulu s).isSome := by
    cases h with
    | @create config env command st view hcommand hok =>
      unfold createLink at hok
      split at hok
      · cases hok
      rename_i link hlink
      -- a link was built, so the check of the expiry has passed
      have hexpiry := (buildLink_ok hlink).expiresAt
      simp only [createExpiry, hcommand] at hexpiry
      split at hexpiry
      · cases hexpiry
      · rename_i hsome
        simpa [Option.isSome_iff_ne_none] using hsome
    | @update config env command st view hcommand hok =>
      unfold updateLink modifyLink at hok
      split at hok
      · cases hok
      simp only at hok
      split at hok
      · cases hok
      rename_i link hlink
      -- the expiry is the first field that is changed
      obtain ⟨link', hexpiry, -⟩ := bind_eq_ok hlink
      simp only [applyExpiry, hcommand] at hexpiry
      split at hexpiry
      · assumption
      · cases hexpiry
  rw [parseRfc3339Zulu, Option.isSome_map] at hparse
  exact Option.isSome_iff_exists.1 hparse

/-- **When an accepted expiry names a second of UTC.** -/
theorem expiry_namesSecond_iff (s : Str) (h : AcceptsExpiry s) : NamesSecond s ↔ ExactText s := by
  constructor
  · exact NamesSecond.exactText
  · intro he
    obtain ⟨tm, htm⟩ := h.exists_parseTm
    have hrange := parseTm_inRange htm
    have hroom : Roomy rfc3339Format s := ⟨fun c hc => (he.plain c hc).1, he.length.ge⟩
    obtain ⟨p, hread, rfl, rfl⟩ := exists_spelling hroom htm
    have hpos : (1 : ℤ) ≤ p.tm.mday := Int.ofNat_le.2 hread.mday_pos
    obtain ⟨htext, hmday, hmon, hyear, hsec⟩ := he.eq_putTime hread
    refine ⟨p.tm, hrange.year, (exists_gmtime_iff _).2 ⟨⟨hrange.mon, hpos, ?_⟩, hrange.hour, hrange.min,
      hrange.sec.1, ?_⟩, htext⟩
    · rw [hmday, hmon, hyear]
      exact he.day
    · have hsecond := he.second
      omega

/-- A command that sets only this expiry. -/
def sampleExpiry (s : String) : CreateLinkCommand where
  targetUrl := "https://example.com/"
  expiresAt := some s.toList

theorem acceptsExpiry_of_isOk {s : String} (h : (createLink {} .still (sampleExpiry s) {}).1.isOk = true) :
    AcceptsExpiry s.toList := by
  obtain ⟨view, hview⟩ := exists_of_isOk h
  exact .create rfl hview

theorem expiry_namesSecond_iff_sample :
    AcceptsExpiry "2028-02-29T23:59:59Z".toList ∧ NamesSecond "2028-02-29T23:59:59Z".toList := by
  have haccepts : AcceptsExpiry "2028-02-29T23:59:59Z".toList := acceptsExpiry_of_isOk (by decide +kernel)
  have hplain : ∀ c ∈ "2028-02-29T23:59:59Z".toList, isSpace c = false ∧ c ≠ 't' ∧ c ≠ 'z' :=
    List.forall_iff_forall_mem.1 (by decide)
  exact ⟨haccepts, (expiry_namesSecond_iff _ haccepts).2 ⟨by decide, hplain, by decide, by decide, by decide⟩⟩

/-- **A day that February does not have, text behind the timestamp, a text that ends behind a number and a blank before
the day are accepted.** -/
theorem no_second_accepted :
    (AcceptsExpiry "2026-02-31T00:00:00Z" ∧ ¬NamesSecond "2026-02-31T00:00:00Z") ∧
    ∀ s ∈ ["2026-02-28T00:00:00Z or never", "2026-02-28T00:00:00", "2026", "2026-02- 8T00:00:00Z"],
      AcceptsExpiry s.toList ∧ ¬NamesSecond s.toList := by
  refine ⟨⟨acceptsExpiry_of_isOk (by decide +kernel), fun h => absurd h.exactText.day (by decide)⟩, ?_⟩
  intro s hs
  have haccepted : (createLink {} .still (sampleExpiry s) {}).1.isOk = true := by
    revert s
    decide +kernel
  refine ⟨acceptsExpiry_of_isOk haccepted, fun h => ?_⟩
  have hexact := h.exactText
  simp only [List.mem_cons, List.not_mem_nil, or_false] at hs
  rcases hs with rfl | rfl | rfl | rfl
  · exact absurd hexact.length (by decide)
  · exact absurd hexact.length (by decide)
  · exact absurd hexact.length (by decide)
  · exact absurd (hexact.plain ' ' (by decide)).1 (by decide)

end UrlShortener

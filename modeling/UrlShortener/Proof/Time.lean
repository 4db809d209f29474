import UrlShortener.Spec.Time
import Mathlib.Data.List.TakeWhile
import Mathlib.Tactic.Linarith

/-!
# Timestamps: round trip and expiry

* `parseTm_putTime`: what `put_time` prints, `get_time` reads back.
* `parse_formatTimestamp`: every time point is printed as a text that `parseRfc3339Zulu` accepts.
* `isExpired_exact_iff`: **the expiry test is right at every current time exactly when the instant of the
  text fits in 64 bits of nanoseconds.**
-/

namespace UrlShortener

open Calendar

/-- The calendar fields that `get_time` leaves. The day is 0 where the text ends before it. -/
structure Tm.InRange (tm : Tm) : Prop where
  year : 0 ≤ tm.year ∧ tm.year ≤ 9999
  mon : 1 ≤ tm.mon ∧ tm.mon ≤ 12
  mday : 0 ≤ tm.mday ∧ tm.mday ≤ 31
  hour : 0 ≤ tm.hour ∧ tm.hour ≤ 23
  min : 0 ≤ tm.min ∧ tm.min ≤ 59
  sec : 0 ≤ tm.sec ∧ tm.sec ≤ 60

/-! ## Printing and reading digits -/

theorem digit_all : ∀ d < 10, (Char.ofNat (48 + d)).isDigit = true ∧ (Char.ofNat (48 + d)).toNat - 48 = d ∧
    isSpace (Char.ofNat (48 + d)) = false := by
  decide

theorem digit_isDigit (n : ℕ) : (digit n).isDigit = true := (digit_all _ (Nat.mod_lt n (by decide))).1

theorem digit_value (n : ℕ) : (digit n).toNat - 48 = n % 10 := (digit_all _ (Nat.mod_lt n (by decide))).2.1

theorem digit_not_space (n : ℕ) : isSpace (digit n) = false := (digit_all _ (Nat.mod_lt n (by decide))).2.2

/-- A full field of digits is read whole. -/
theorem extractNum_digits {ds rest : Str} {len lo hi : ℕ} (hlen : ds.length = len) (hpos : 0 < len)
    (hds : ∀ c ∈ ds, c.isDigit = true) (hlo : lo ≤ digitsValue ds) (hhi : digitsValue ds ≤ hi) :
    extractNum len lo hi (ds ++ rest) = some ((digitsValue ds : Int), rest) := by
  have htake : ((ds ++ rest).take len).takeWhile Char.isDigit = ds := by
    rw [← hlen, List.take_left]
    exact List.takeWhile_eq_self_iff.2 hds
  have hne : ds.isEmpty = false := by
    cases ds with
    | nil => simp_all
    | cons c ds => rfl
  simp [extractNum, htake, hne, hlo, hhi]

theorem digits2_value {n : Int} (h : n.toNat ≤ 99) : digitsValue (digits2 n) = n.toNat := by
  simp only [digitsValue, digits2, List.foldl_cons, List.foldl_nil, digit_value]
  omega

theorem digits4_value {n : Int} (h : n.toNat ≤ 9999) : digitsValue (digits4 n) = n.toNat := by
  simp only [digitsValue, digits4, List.foldl_cons, List.foldl_nil, digit_value]
  omega

theorem extractNum_digits2 {n : Int} {lo hi : ℕ} (rest : Str) (h0 : (lo : Int) ≤ n) (h1 : n ≤ hi)
    (h : hi ≤ 99) : extractNum 2 lo hi (digits2 n ++ rest) = some (n, rest) := by
  have hv : digitsValue (digits2 n) = n.toNat := digits2_value (by omega)
  have hlen : (digits2 n).length = 2 := rfl
  rw [extractNum_digits hlen (by decide) (by simp [digits2, digit_isDigit]) (by omega) (by omega), hv,
    Int.toNat_of_nonneg (by omega)]

theorem extractNum_digits4 {n : Int} {lo hi : ℕ} (rest : Str) (h0 : (lo : Int) ≤ n) (h1 : n ≤ hi)
    (h : hi ≤ 9999) : extractNum 4 lo hi (digits4 n ++ rest) = some (n, rest) := by
  have hv : digitsValue (digits4 n) = n.toNat := digits4_value (by omega)
  have hlen : (digits4 n).length = 4 := rfl
  rw [extractNum_digits hlen (by decide) (by simp [digits4, digit_isDigit]) (by omega) (by omega), hv,
    Int.toNat_of_nonneg (by omega)]

theorem skipBlank_digits2 (n : Int) (rest : Str) : skipBlank (digits2 n ++ rest) = digits2 n ++ rest :=
  if_neg (by simp [digit_not_space])

section Format

variable {item : FormatItem} {fmt : List FormatItem} {tm tm' : Tm} {s rest : Str} {c : Char}

/-- **One element of the format**: what is left of the text is matched against the rest, unless a conversion has
used it up. -/
theorem getTime_cons_some (h : getTime (item :: fmt) tm s = some tm') :
    ∃ tm₁ rest, getItem item tm s = some (tm₁, rest) ∧
      (rest = [] ∧ tm' = tm₁ ∨ getTime fmt tm₁ rest = some tm') := by
  obtain ⟨⟨tm₁, rest⟩, hitem, h⟩ := Option.bind_eq_some_iff.1 h
  refine ⟨tm₁, rest, hitem, ?_⟩
  split at h
  · rename_i hend
    exact .inl ⟨hend.2, (Option.some.inj h).symm⟩
  · exact .inr h

/-- An element before the end of the text. -/
theorem getTime_cons (h : getItem item tm s = some (tm', c :: rest)) :
    getTime (item :: fmt) tm s = getTime fmt tm' (c :: rest) := by
  rw [getTime, h, Option.bind_some]
  exact if_neg fun hend => List.cons_ne_nil c rest hend.2

theorem getTime_lit_self (c : Char) (fmt : List FormatItem) (tm : Tm) (s : Str) :
    getTime (.lit c :: fmt) tm (c :: s) = getTime fmt tm s := by
  have hitem : getItem (.lit c) tm (c :: s) = some (tm, s) := if_pos rfl
  rw [getTime, hitem, Option.bind_some]
  exact if_neg fun hend => Bool.false_ne_true hend.1

end Format

/-- **What `put_time` prints, `get_time` reads back.** -/
theorem parseTm_putTime {tm : Tm} (h : tm.InRange) (hday : 1 ≤ tm.mday) : parseTm (putTime tm) = some tm := by
  have hstart : (putTime tm).dropWhile isSpace = putTime tm := by
    simp [putTime, digits4, digit_not_space]
  unfold parseTm
  rw [hstart]
  unfold putTime
  simp only [List.append_assoc, List.cons_append, List.nil_append, rfc3339Format]
  -- field by field: the digits, then the separator
  rw [getTime_cons (by rw [getItem, extractNum_digits4 _ h.year.1 h.year.2 le_rfl, Option.map_some]), getTime_lit_self]
  rw [getTime_cons (by rw [getItem, extractNum_digits2 _ h.mon.1 h.mon.2 (by decide), Option.map_some]),
    getTime_lit_self]
  rw [getTime_cons (by rw [getItem, skipBlank_digits2, extractNum_digits2 _ hday h.mday.2 (by decide),
    Option.map_some]), getTime_lit_self]
  rw [getTime_cons (by rw [getItem, extractNum_digits2 _ h.hour.1 h.hour.2 (by decide), Option.map_some]),
    getTime_lit_self]
  rw [getTime_cons (by rw [getItem, extractNum_digits2 _ h.min.1 h.min.2 (by decide), Option.map_some]),
    getTime_lit_self]
  rw [getTime_cons (by rw [getItem, extractNum_digits2 _ h.sec.1 h.sec.2 (by decide), Option.map_some]),
    getTime_lit_self]
  rfl

/-- Seconds added within the range of a time point. -/
theorem addSeconds_toInt {tp : TimePoint} {s : Int} (h0 : -2 ^ 63 ≤ tp.toInt + s * 1000000000)
    (h1 : tp.toInt + s * 1000000000 < 2 ^ 63) : (tp.addSeconds s).toInt = tp.toInt + s * 1000000000 := by
  have hsize : Int64.size = 2 ^ 64 := rfl
  rw [TimePoint.addSeconds, Int64.toInt_add, Int64.toInt_ofInt, hsize, Int.add_bmod_bmod,
    Int.bmod_eq_of_le (by omega) (by omega)]

theorem toTimeT_mul {tp : TimePoint} (h : tp.toInt % 1000000000 = 0) : toTimeT tp * 1000000000 = tp.toInt :=
  Int.tdiv_mul_cancel (by omega)

/-- A time in whole seconds survives the conversion. -/
theorem fromTimeT_toTimeT {tp : TimePoint} (h : tp.toInt % 1000000000 = 0) : fromTimeT (toTimeT tp) = tp := by
  rw [fromTimeT, toTimeT_mul h, Int64.ofInt_toInt]

/-- A time point cut to whole seconds, towards the epoch. -/
def wholeSeconds (tp : TimePoint) : TimePoint := tp / 1000000000 * 1000000000

/-- **Any time is cut to whole seconds by the conversion.** -/
theorem fromTimeT_toTimeT_eq (tp : TimePoint) : fromTimeT (toTimeT tp) = wholeSeconds tp := by
  have hdiv : Int64.ofInt (toTimeT tp) = tp / 1000000000 := by
    rw [toTimeT, Int64.ofInt_tdiv tp.minValue_le_toInt tp.toInt_le (by decide) (by decide), Int64.ofInt_toInt]
    rfl
  rw [wholeSeconds, ← hdiv, fromTimeT, Int64.ofInt_mul]
  rfl

/-- Times in whole seconds are in the order of their seconds. -/
theorem toTimeT_le_iff {a b : TimePoint} (ha : a.toInt % 1000000000 = 0) (hb : b.toInt % 1000000000 = 0) :
    toTimeT a ≤ toTimeT b ↔ a ≤ b := by
  have ha' := toTimeT_mul ha
  have hb' := toTimeT_mul hb
  rw [Int64.le_iff_toInt_le]
  omega

/-! ## Seconds as nanoseconds of 64 bits -/

/-- The nanoseconds of these seconds, wrapped around to 64 bits. -/
def wrapped (seconds : ℤ) : ℤ := (seconds * 1000000000).bmod 18446744073709551616

theorem toInt_fromTimeT_eq_wrapped (seconds : ℤ) : (fromTimeT seconds).toInt = wrapped seconds :=
  Int64.toInt_ofInt

theorem wrapped_bounds (seconds : ℤ) :
    -9223372036854775808 ≤ wrapped seconds ∧ wrapped seconds < 9223372036854775808 :=
  ⟨Int.le_bmod (by decide), Int.bmod_lt (by decide)⟩

theorem wrapped_eq (seconds : ℤ) : ∃ k, wrapped seconds = seconds * 1000000000 + 18446744073709551616 * k := by
  obtain ⟨k, hk⟩ : (18446744073709551616 : ℤ) ∣ wrapped seconds - seconds * 1000000000 :=
    Int.dvd_bmod_sub_self
  exact ⟨k, by omega⟩

theorem wrapped_eq_first_iff (seconds : ℤ) :
    wrapped seconds = -9223372036854775808 ↔ seconds % 36028797018963968 = 18014398509481984 := by
  obtain ⟨k, hk⟩ := wrapped_eq seconds
  have hbounds := wrapped_bounds seconds
  constructor
  · intro h
    -- a thousand million has nine factors of two, the other 54 are of the seconds
    have hodd : seconds * 1953125 = 18014398509481984 * (-1 - 2 * k) := by linarith
    have hdvd : (18014398509481984 : ℤ) ∣ seconds :=
      Int.dvd_of_dvd_mul_left_of_gcd_one (Dvd.intro _ hodd.symm) (by decide)
    obtain ⟨g, rfl⟩ := hdvd
    obtain ⟨m, hm⟩ : ∃ m, g = 1 + 2 * m := ⟨-(976562 * g + k + 1), by linarith⟩
    clear hk hbounds h hodd
    omega
  · intro h
    obtain ⟨g, rfl⟩ : ∃ g, seconds = 18014398509481984 + 36028797018963968 * g :=
      ⟨seconds / 36028797018963968, by omega⟩
    obtain ⟨m, hm⟩ : ∃ m, wrapped (18014398509481984 + 36028797018963968 * g) =
        9223372036854775808 + 18446744073709551616 * m := ⟨976562 + 1953125 * g + k, by linarith⟩
    rw [hm] at hbounds ⊢
    omega

/-- The seconds that a time point can hold. -/
theorem toInt_fromTimeT {t : Int} (h0 : -9223372036 ≤ t) (h1 : t ≤ 9223372036) :
    (fromTimeT t).toInt = t * 1000000000 := by
  rw [fromTimeT, Int64.toInt_ofInt_of_le (by omega) (by omega)]

theorem toTimeT_fromTimeT {t : Int} (h0 : -9223372036 ≤ t) (h1 : t ≤ 9223372036) : toTimeT (fromTimeT t) = t := by
  rw [toTimeT, toInt_fromTimeT h0 h1]
  exact Int.mul_tdiv_cancel t (by decide)

theorem toTimeT_bounds (tp : TimePoint) : -9223372036 ≤ toTimeT tp ∧ toTimeT tp ≤ 9223372036 := by
  have h0 := Int64.le_toInt tp
  have h1 := Int64.toInt_lt tp
  unfold toTimeT
  generalize tp.toInt = x at h0 h1
  rcases le_total 0 x with hx | hx
  · rw [Int.tdiv_eq_ediv_of_nonneg hx]
    omega
  · obtain ⟨y, rfl⟩ : ∃ y, x = -y := ⟨-x, by omega⟩
    rw [Int.neg_tdiv, Int.tdiv_eq_ediv_of_nonneg (by omega)]
    omega

theorem gmtime_inRange (tp : TimePoint) : (gmtime (toTimeT tp)).InRange := by
  have hb := toTimeT_bounds tp
  -- 64-bit nanoseconds reach from 1677 to 2262, so the year has four digits
  have hy : 1000 ≤ (civilFromDays (toTimeT tp / 86400)).year ∧
      (civilFromDays (toTimeT tp / 86400)).year ≤ 9999 :=
    civilFromDays_year (by omega) (by omega)
  have hm := civilFromDays_month (toTimeT tp / 86400)
  have hd := civilFromDays_day (toTimeT tp / 86400)
  refine ⟨?_, hm, ⟨Int.le_trans (by decide) hd.1, hd.2⟩, ?_, ?_, ?_⟩ <;> simp only [gmtime] <;> omega

/-- **A printed time point is read back** as the calendar fields that were printed. -/
theorem parseTm_formatTimestamp (tp : TimePoint) : parseTm (formatTimestamp tp) = some (gmtime (toTimeT tp)) :=
  parseTm_putTime (gmtime_inRange tp) (civilFromDays_day _).1

/-- What is printed can be read. -/
theorem parse_formatTimestamp (tp : TimePoint) : (parseRfc3339Zulu (formatTimestamp tp)).isSome := by
  simp [parseRfc3339Zulu, parseTm_formatTimestamp]

/-! ## Expiry -/

theorem extractNum_range {len lo hi : ℕ} {s : Str} {p : Int × Str} (h : extractNum len lo hi s = some p) :
    (lo : Int) ≤ p.1 ∧ p.1 ≤ hi := by
  unfold extractNum at h
  simp only at h
  split at h
  · cases h
  · split at h
    · rename_i hr
      cases h
      simp only
      omega
    · cases h

/-- A field that is read is in its range, and the others are left alone. -/
theorem getItem_inRange {item : FormatItem} {tm tm' : Tm} {s rest : Str} (hrange : tm.InRange)
    (h : getItem item tm s = some (tm', rest)) : tm'.InRange := by
  obtain ⟨hyear, hmon, hmday, hhour, hmin, hsec⟩ := hrange
  cases item with
  | lit c =>
    cases s with
    | nil => cases h
    | cons d s =>
      rw [getItem] at h
      split at h
      · cases h
        exact ⟨hyear, hmon, hmday, hhour, hmin, hsec⟩
      · cases h
  | year =>
    obtain ⟨p, hp, ⟨⟩⟩ := Option.map_eq_some_iff.1 h
    exact ⟨extractNum_range hp, hmon, hmday, hhour, hmin, hsec⟩
  | mon =>
    obtain ⟨p, hp, ⟨⟩⟩ := Option.map_eq_some_iff.1 h
    exact ⟨hyear, extractNum_range hp, hmday, hhour, hmin, hsec⟩
  | mday =>
    obtain ⟨p, hp, ⟨⟩⟩ := Option.map_eq_some_iff.1 h
    obtain ⟨hlow, hhigh⟩ := extractNum_range hp
    exact ⟨hyear, hmon, ⟨Int.le_trans (by decide) hlow, hhigh⟩, hhour, hmin, hsec⟩
  | hour =>
    obtain ⟨p, hp, ⟨⟩⟩ := Option.map_eq_some_iff.1 h
    exact ⟨hyear, hmon, hmday, extractNum_range hp, hmin, hsec⟩
  | min =>
    obtain ⟨p, hp, ⟨⟩⟩ := Option.map_eq_some_iff.1 h
    exact ⟨hyear, hmon, hmday, hhour, extractNum_range hp, hsec⟩
  | sec =>
    obtain ⟨p, hp, ⟨⟩⟩ := Option.map_eq_some_iff.1 h
    exact ⟨hyear, hmon, hmday, hhour, hmin, extractNum_range hp⟩

theorem getTime_inRange {fmt : List FormatItem} {tm tm' : Tm} {s : Str} (hrange : tm.InRange)
    (h : getTime fmt tm s = some tm') : tm'.InRange := by
  induction fmt generalizing tm s with
  | nil => exact Option.some.inj h ▸ hrange
  | cons item fmt ih =>
    obtain ⟨tm₁, rest, hitem, ⟨-, rfl⟩ | h⟩ := getTime_cons_some h
    · exact getItem_inRange hrange hitem
    · exact ih (getItem_inRange hrange hitem) h

theorem parseTm_inRange {value : Str} {tm : Tm} (h : parseTm value = some tm) : tm.InRange :=
  getTime_inRange (by constructor <;> decide) h

theorem timegm_bounds {tm : Tm} (h : tm.InRange) : -259200000000 ≤ timegm tm ∧ timegm tm ≤ 259200100000 := by
  have hd := daysFromCivil_bounds (d := ⟨tm.year, tm.mon, tm.mday⟩) h.year.1 h.year.2 h.mday.1 h.mday.2
  have hh := h.hour
  have hm := h.min
  have hs := h.sec
  unfold timegm
  omega

theorem isExpired_some {value : Str} {tm : Tm} (h : parseTm value = some tm) (now : TimePoint) :
    isExpired (some value) now = true ↔ (fromTimeT (timegm tm)).toInt ≤ now.toInt := by
  simp [isExpired, parseRfc3339Zulu, h, Int64.le_iff_toInt_le]

/-- No second of the calendar wraps to the earliest time point: the scaling by `10 ^ 9` would have to hit an
odd multiple of `2 ^ 63`. -/
theorem fromTimeT_ne_min {t : Int} (h0 : -259200000000 ≤ t) (h1 : t ≤ 259200100000) :
    (fromTimeT t).toInt ≠ -2 ^ 63 := by
  intro h
  rw [toInt_fromTimeT_eq_wrapped] at h
  have hmod := (wrapped_eq_first_iff t).1 h
  omega

/-- **The expiry test is exact for the instants that fit in 64 bits of nanoseconds**, from
1677-09-21T00:12:44Z to 2262-04-11T23:47:16Z, and wrong at some current time for every other instant. -/
theorem isExpired_exact_iff {value : Str} {tm : Tm} (h : parseTm value = some tm) :
    (∀ now : TimePoint, isExpired (some value) now = true ↔ timegm tm * 1000000000 ≤ now.toInt) ↔
      -9223372036 ≤ timegm tm ∧ timegm tm ≤ 9223372036 := by
  have hb := timegm_bounds (parseTm_inRange h)
  simp only [isExpired_some h]
  constructor
  · intro hexact
    have hmax := hexact Int64.maxValue
    have hmin := hexact Int64.minValue
    rw [Int64.toInt_maxValue] at hmax
    rw [Int64.toInt_minValue] at hmin
    have hw1 := Int64.toInt_lt (fromTimeT (timegm tm))
    constructor
    · -- an instant before the range has passed at the earliest time, but does not wrap to it
      by_contra hlow
      have hpast := hmin.2 (by omega)
      have hw0 := Int64.le_toInt (fromTimeT (timegm tm))
      exact fromTimeT_ne_min hb.1 hb.2 (le_antisymm hpast hw0)
    · -- an instant after the range has not passed at the latest time, where every time point has
      have := hmax.1 (by omega)
      omega
  · rintro ⟨h0, h1⟩ now
    rw [toInt_fromTimeT h0 h1]

theorem isExpired_exact_iff_sample :
    isExpired (some "2026-11-16T00:00:00Z") (fromTimeT 1794787200) = true ↔
      1794787200 * 1000000000 ≤ (fromTimeT 1794787200).toInt := by
  have h : parseTm "2026-11-16T00:00:00Z" = some ⟨2026, 11, 16, 0, 0, 0⟩ := by decide
  exact (isExpired_exact_iff h).2 (by decide) (fromTimeT 1794787200)

/-- A link that expires in the year 2999 is expired in 2026. -/
theorem far_future_expired :
    parseTm "2999-01-01T00:00:00Z" = some ⟨2999, 1, 1, 0, 0, 0⟩ ∧
    isExpired (some "2999-01-01T00:00:00Z") (fromTimeT 1794787200) = true ∧
    ¬ timegm ⟨2999, 1, 1, 0, 0, 0⟩ * 1000000000 ≤ (fromTimeT 1794787200).toInt := by
  decide

end UrlShortener

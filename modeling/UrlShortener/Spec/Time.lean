import UrlShortener.Spec.Types
import UrlShortener.Calendar.Civil

/-!
# Timestamps

`currentTimestamp`, `formatTimestamp`, `parseRfc3339Zulu` and `isExpired` of `core/utils.cpp`, over
the C++ library functions they call. A reading of `system_clock::now()` is an argument.
-/

namespace UrlShortener

open Calendar

/-- `std::tm`, with the full year and the month counted from 1; the defaults are those of `std::tm{}`. -/
structure Tm where
  year : Int := 1900
  mon : Int := 1
  mday : Int := 0
  hour : Int := 0
  min : Int := 0
  sec : Int := 0
  deriving DecidableEq, Repr

/-- `timegm`: seconds since the epoch. Days outside the month are carried over. -/
def timegm (tm : Tm) : Int :=
  daysFromCivil ⟨tm.year, tm.mon, tm.mday⟩ * 86400 + tm.hour * 3600 + tm.min * 60 + tm.sec

/-- `gmtime_r`. -/
def gmtime (t : Int) : Tm :=
  let date := civilFromDays (t / 86400)
  let s := t % 86400
  ⟨date.year, date.month, date.day, s / 3600, s / 60 % 60, s % 60⟩

/-- `system_clock::to_time_t`: `duration_cast` truncates towards zero. -/
def toTimeT (tp : TimePoint) : Int := tp.toInt.tdiv 1000000000

/-- `system_clock::from_time_t`: the scaling to nanoseconds wraps at 64 bits. -/
def fromTimeT (t : Int) : TimePoint := Int64.ofInt (t * 1000000000)

/-- `std::chrono::seconds` added to a time point. -/
def TimePoint.addSeconds (tp : TimePoint) (s : Int) : TimePoint := tp + Int64.ofInt (s * 1000000000)

/-! ## `std::put_time` -/

/-- The last digit. -/
def digit (n : Nat) : Char := Char.ofNat (48 + n % 10)

/-- Two digits. -/
def digits2 (n : Int) : Str := [digit (n.toNat / 10), digit n.toNat]

/-- Four digits. -/
def digits4 (n : Int) : Str :=
  [digit (n.toNat / 1000), digit (n.toNat / 100), digit (n.toNat / 10), digit n.toNat]

/-- `std::put_time` with `%Y-%m-%dT%H:%M:%SZ`. A time point falls in the years 1677 to 2262, so `%Y`
prints four digits. -/
def putTime (tm : Tm) : Str :=
  digits4 tm.year ++ ['-'] ++ digits2 tm.mon ++ ['-'] ++ digits2 tm.mday ++ ['T'] ++
    digits2 tm.hour ++ [':'] ++ digits2 tm.min ++ [':'] ++ digits2 tm.sec ++ ['Z']

/-- As `2024-01-02T03:04:05Z`. -/
def formatTimestamp (timePoint : TimePoint) : Str := putTime (gmtime (toTimeT timePoint))

/-- The clock as a text. -/
def currentTimestamp (now : TimePoint) : Str := formatTimestamp now

/-! ## `std::get_time` -/

/-- An element of a format: a conversion, or a character of the text. -/
inductive FormatItem
  | year
  | mon
  | mday
  | hour
  | min
  | sec
  | lit (c : Char)
  deriving DecidableEq

/-- `%Y-%m-%dT%H:%M:%SZ`. -/
def rfc3339Format : List FormatItem :=
  [.year, .lit '-', .mon, .lit '-', .mday, .lit 'T', .hour, .lit ':', .min, .lit ':', .sec, .lit 'Z']

/-- The number that digits denote. -/
def digitsValue (ds : Str) : Nat := ds.foldl (fun n c => 10 * n + (c.toNat - 48)) 0

/-- `time_get::_M_extract_num`: a decimal number of at most `len` digits (leading zeros permitted, not required),
checked against the field's range. -/
def extractNum (len lo hi : Nat) (s : Str) : Option (Int × Str) :=
  let ds := (s.take len).takeWhile Char.isDigit
  if ds.isEmpty then none
  else if lo ≤ digitsValue ds ∧ digitsValue ds ≤ hi then some (digitsValue ds, s.drop ds.length)
  else none

/-- The text without a white-space character in front. -/
def skipBlank : Str → Str
  | [] => []
  | c :: s => if isSpace c then s else c :: s

/-- An element of the format matched against the front of the text. A character of the format is compared without
regard to case, and `%d` skips a blank before the day. -/
def getItem : FormatItem → Tm → Str → Option (Tm × Str)
  | .year, tm, s => (extractNum 4 0 9999 s).map fun p => ({ tm with year := p.1 }, p.2)
  | .mon, tm, s => (extractNum 2 1 12 s).map fun p => ({ tm with mon := p.1 }, p.2)
  | .mday, tm, s => (extractNum 2 1 31 (skipBlank s)).map fun p => ({ tm with mday := p.1 }, p.2)
  | .hour, tm, s => (extractNum 2 0 23 s).map fun p => ({ tm with hour := p.1 }, p.2)
  | .min, tm, s => (extractNum 2 0 59 s).map fun p => ({ tm with min := p.1 }, p.2)
  | .sec, tm, s => (extractNum 2 0 60 s).map fun p => ({ tm with sec := p.1 }, p.2)
  | .lit _, _, [] => none
  | .lit c, tm, d :: s => if d.toLower = c.toLower then some (tm, s) else none

/-- The item reads digits. -/
def FormatItem.isConversion : FormatItem → Bool
  | .lit _ => false
  | _ => true

/-- `time_get::get`: match the format against a prefix of the input. A conversion that uses up the input sets
`eofbit` and not `failbit`: it ends the match, and the fields behind it keep their values. -/
def getTime : List FormatItem → Tm → Str → Option Tm
  | [], tm, _ => some tm
  | item :: fmt, tm, s =>
    (getItem item tm s).bind fun p => if item.isConversion ∧ p.2 = [] then some p.1 else getTime fmt p.1 p.2

/-- The calendar fields a timestamp text denotes. Extraction skips leading white space and does not
look past the format. -/
def parseTm (value : Str) : Option Tm := getTime rfc3339Format {} (value.dropWhile isSpace)

/-- The instant of a time stamp. -/
def parseRfc3339Zulu (value : Str) : Option TimePoint :=
  (parseTm value).map fun tm => fromTimeT (timegm tm)

/-- The expiry has come; a text that is no time stamp never does. -/
def isExpired (expiresAt : Option Str) (now : TimePoint) : Bool :=
  match expiresAt with
  | none => false
  | some value =>
    match parseRfc3339Zulu value with
    | none => false
    | some ts => ts ≤ now

end UrlShortener

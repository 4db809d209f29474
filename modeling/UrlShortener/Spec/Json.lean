import Mathlib.Data.Multiset.Sort
import Mathlib.Data.List.Lex
import Mathlib.Order.Lex
import Mathlib.Data.Prod.Lex
import Mathlib.Data.Char
import UrlShortener.Spec.Fields

/-!
# JSON texts

The writer (`jsonEscape`, `jsonString`) and the body extractors of `core/utils.cpp`. The extractors
do not parse: they search the body for the quoted field name and read what follows the next colon.
-/

namespace UrlShortener

open Text

/-! ## Writing -/

/-- The escape of a character. -/
def jsonEscapeChar (c : Char) : Str :=
  match c with
  | '\\' => ['\\', '\\']
  | '"' => ['\\', '"']
  | '\n' => ['\\', 'n']
  | '\r' => ['\\', 'r']
  | '\t' => ['\\', 't']
  | c => [c]

/-- The escapes of a text. -/
def jsonEscape (input : Str) : Str := input.flatMap jsonEscapeChar

/-- A text in quotes. -/
def jsonString (value : Str) : Str := '"' :: jsonEscape value ++ ['"']

/-- An unsigned integer written to an `ostringstream`. -/
def decimal (n : ℕ) : Str := Nat.toDigits 10 n

/-! ## Look-up

All extractors start alike: `find` of the quoted name, `find` of a colon after it, white space
skipped. -/

/-- The field name in quotes, as the extractors search for it. -/
def quoted (field : Str) : Str := '"' :: field ++ ['"']

/-- The text behind the first colon after a position, white space skipped. -/
def afterColon (rest : Str) : Option Str := (cut [':'] rest).map fun p => p.2.dropWhile isSpace

/-- **Where a look-up lands**: behind the first colon after the first occurrence of the quoted
name. -/
def seekValue (body field : Str) : Option Str :=
  match cut (quoted field) body with
  | none => none
  | some (_, rest) => afterColon rest

/-- The string loop: everything up to the closing quote, a backslash keeping the next character. -/
def readString : Str → Bool → Option Str
  | [], _ => none
  | c :: s, true => (readString s false).map (c :: ·)
  | c :: s, false =>
    if c = '\\' then readString s true
    else if c = '"' then some []
    else (readString s false).map (c :: ·)

/-- The string after the field. -/
def extractJsonStringField (body field : Str) : Option Str :=
  match seekValue body field with
  | some ('"' :: s) => readString s false
  | _ => none

/-- The boolean after the field. -/
def extractJsonBoolField (body field : Str) : Option Bool :=
  match seekValue body field with
  | none => none
  | some s =>
    if startsWith s "true" then some true
    else if startsWith s "false" then some false
    else none

/-- The field's name is in the body. -/
def hasJsonField (body field : Str) : Bool := contains body (quoted field)

/-- The bracket loop: the text up to the bracket that closes the first one, skipping strings.
`depth` is an `int`; a body is shorter than 2^32 bytes, so it cannot come back to zero by
wrapping. -/
def scanBracket (opn cls : Char) : Str → (depth : Int) → (inString escape : Bool) → Option Str
  | [], _, _, _ => none
  | c :: s, depth, inString, escape =>
    if inString then
      if escape then (scanBracket opn cls s depth true false).map (c :: ·)
      else if c = '\\' then (scanBracket opn cls s depth true true).map (c :: ·)
      else if c = '"' then (scanBracket opn cls s depth false false).map (c :: ·)
      else (scanBracket opn cls s depth true false).map (c :: ·)
    else if c = '"' then (scanBracket opn cls s depth true false).map (c :: ·)
    else if c = opn then (scanBracket opn cls s (depth + 1) false false).map (c :: ·)
    else if c = cls then
      if depth - 1 = 0 then some [c] else (scanBracket opn cls s (depth - 1) false false).map (c :: ·)
    else (scanBracket opn cls s depth false false).map (c :: ·)

/-- The text of the value after the field. -/
def extractJsonValueToken (body field : Str) : Option Str :=
  match cut (quoted field) body with
  | none => none
  | some (_, rest) =>
    match afterColon rest with
    | none => none
    | some [] => none
    | some (c :: s) =>
      if c = 'n' ∧ startsWith (c :: s) "null" then some "null"
      else if c = '"' then extractJsonStringField (quoted field ++ rest) field
      else if c = '[' then scanBracket '[' ']' (c :: s) 0 false false
      else if c = '{' then scanBracket '{' '}' (c :: s) 0 false false
      else none

/-! ## Arrays of strings and flat objects -/

/-- The item loop: a string up to its closing quote or to the end of the array, and what is left. -/
def readItem : Str → Bool → Str × Str
  | [], _ => ([], [])
  | c :: s, true => let (v, r) := readItem s false; (c :: v, r)
  | c :: s, false =>
    if c = '\\' then readItem s true
    else if c = '"' then ([], s)
    else let (v, r) := readItem s false; (c :: v, r)

/-- The array loop over the text between the brackets. Each round consumes a quote, so the length
of the text is enough fuel. -/
def readItems : ℕ → Str → List Str → Option (List Str)
  | 0, _, _ => none
  | fuel + 1, s, out =>
    match s.dropWhile isSpace with
    | [] => some out
    | c :: s =>
      if c ≠ '"' then none
      else
        let (value, rest) := readItem s false
        match rest.dropWhile isSpace with
        | [] => some (out ++ [value])
        | d :: rest => if d ≠ ',' then none else readItems fuel rest (out ++ [value])

/-- The text between the first and the last character. -/
def between (raw : Str) : Str := (raw.drop 1).dropLast

/-- The strings of an array. -/
def extractJsonStringArrayField (body field : Str) : Option (List Str) :=
  match extractJsonValueToken body field with
  | none => none
  | some raw =>
    if raw = "null" then some []
    else if raw.length < 2 ∨ raw.head? ≠ some '[' ∨ raw.getLast? ≠ some ']' then none
    else readItems ((between raw).length + 1) (between raw) []

/-- A match of `"([^"]+)"\s*:\s*"([^"]*)"` at the start of a text: the two groups and the rest. -/
def matchPair (s : Str) : Option (Str × Str × Str) :=
  match s with
  | '"' :: s =>
    match cut ['"'] s with
    | some (c :: key, rest) =>
      match rest.dropWhile isSpace with
      | ':' :: rest =>
        match rest.dropWhile isSpace with
        | '"' :: rest => (cut ['"'] rest).map fun p => (c :: key, p.1, p.2)
        | _ => none
      | _ => none
    | _ => none
  | _ => none

/-- `sregex_iterator` and `regex_replace` in one pass: the matched pairs from left to right, and the
text outside them. Each round consumes a character, so the length of the text is enough fuel. -/
def matchPairs : ℕ → Str → List (Str × Str) × Str
  | 0, s => ([], s)
  | _ + 1, [] => ([], [])
  | fuel + 1, c :: s =>
    match matchPair (c :: s) with
    | some (key, value, rest) =>
      let (pairs, left) := matchPairs fuel rest
      ((key, value) :: pairs, left)
    | none =>
      let (pairs, left) := matchPairs fuel s
      (pairs, c :: left)

/-- The strings of a flat object. -/
def extractJsonFlatObjectStringField (body field : Str) : Option (UnorderedMap Str Str) :=
  match extractJsonValueToken body field with
  | none => none
  | some raw =>
    if raw = "null" then some ∅
    else if raw.length < 2 ∨ raw.head? ≠ some '{' ∨ raw.getLast? ≠ some '}' then none
    else
      let (pairs, withoutPairs) := matchPairs (raw.length + 1) raw
      if withoutPairs.all fun c => isSpace c || c == '{' || c == '}' || c == ',' then
        some (pairs.foldl (fun out p => out.insert p.1 p.2) ∅)
      else none

/-! ## Link views -/

/-- Texts joined by commas. -/
def commaSep (parts : List Str) : Str := [','].intercalate parts

/-- The metadata entries in the order of their keys. -/
def sortedItems (metadata : UnorderedMap Str Str) : List (Str × Str) :=
  ((metadata.entries.map fun e => toLex (e.1, e.2)).sort (· ≤ ·)).map ofLex

/-- A campaign as JSON. -/
def serializeCampaign (c : Campaign) : Str :=
  let field (key : Str) (value : Option Str) : List Str :=
    match value with
    | none => []
    | some v => [jsonString key ++ [':'] ++ jsonString v]
  ['{'] ++ commaSep (field "name" c.name ++ field "source" c.source ++
    field "medium" c.medium ++ field "term" c.term ++
    field "content" c.content ++ field "id" c.id) ++ ['}']

/-- A string or `null`. -/
def jsonOptional (value : Option Str) : Str :=
  match value with
  | none => "null"
  | some v => jsonString v

/-- A view as JSON. -/
def serializeLinkViewJson (link : LinkView) : Str :=
  "\x7b\"id\":" ++ jsonString link.id ++
  ",\"slug\":" ++ jsonString link.slug ++
  ",\"url\":" ++ jsonString link.targetUrl ++
  ",\"short_url\":" ++ jsonString link.shortUrl ++
  ",\"created_at\":" ++ jsonString link.createdAt ++
  ",\"updated_at\":" ++ jsonString link.updatedAt ++
  ",\"status\":" ++ jsonString (linkStatusToString link.status) ++
  ",\"redirect_type\":" ++ jsonString (redirectTypeToString link.redirectType) ++
  ",\"tags\":[" ++ commaSep (link.tags.map jsonString) ++
  "],\"metadata\":\x7b" ++
  commaSep ((sortedItems link.metadata).map fun p => jsonString p.1 ++ [':'] ++ jsonString p.2) ++
  "\x7d,\"campaign\":" ++
  (match link.campaign with
    | none => "null"
    | some c => serializeCampaign c) ++
  ",\"stats\":\x7b\"total_redirects\":" ++ decimal link.stats.totalRedirects.toNat ++
  ",\"redirects_24h\":" ++ decimal link.stats.redirects24h.toNat ++
  ",\"redirects_7d\":" ++ decimal link.stats.redirects7d.toNat ++
  ",\"last_accessed_at\":" ++ jsonOptional link.stats.lastAccessedAt ++ "\x7d\x7d"

/-- The preview has fewer members. -/
def serializeLinkPreviewJson (link : LinkView) : Str :=
  "\x7b\"slug\":".toList ++ jsonString link.slug ++
  ",\"url\":".toList ++ jsonString link.targetUrl ++
  ",\"status\":".toList ++ jsonString (linkStatusToString link.status) ++
  ",\"redirect_type\":".toList ++ jsonString (redirectTypeToString link.redirectType) ++
  ",\"enabled\":".toList ++ (if link.enabled then "true".toList else "false".toList) ++
  ",\"expires_at\":".toList ++ jsonOptional link.expiresAt ++
  ",\"deleted_at\":".toList ++ jsonOptional link.deletedAt ++ ['}']

end UrlShortener

import Mathlib.Data.List.DropRight
import UrlShortener.Spec.Types
import UrlShortener.Text.Search

/-!
# Target URLs

`trim`, `splitUrl`, `isPrivateHost` and `normalizeTargetUrl` of `core/utils.cpp`.
-/

namespace UrlShortener

open Text

/-- The characters of `" \t\r\n"`. -/
def isTrimmed (c : Char) : Bool := c == ' ' || c == '\t' || c == '\r' || c == '\n'

/-- Both ends are stripped. -/
def trim (value : Str) : Str := (value.dropWhile isTrimmed).rdropWhile isTrimmed

/-- The class `[A-Za-z0-9+.-]`. -/
def isSchemeChar (c : Char) : Bool := c.isAlphanum || c == '+' || c == '.' || c == '-'

/-- The class `[^\/\?#]`. -/
def isAuthorityChar (c : Char) : Bool := !(c == '/' || c == '?' || c == '#')

/-- `.` of an ECMAScript expression: no line terminator. -/
def isDotChar (c : Char) : Bool := !(c == '\n' || c == '\r')

/-- The match of `^([A-Za-z][A-Za-z0-9+.-]*):\/\/([^\/\?#]+)(.*)$`: the scheme, and the second and
third groups joined. A colon is in no scheme and a delimiter in no authority, so each group is the
longest run of its class. -/
def splitUrl (inputUrl : Str) : Option (Str × Str) :=
  let scheme := inputUrl.takeWhile isSchemeChar
  match scheme, inputUrl.dropWhile isSchemeChar with
  | c :: _, ':' :: '/' :: '/' :: rest =>
    let authority := rest.takeWhile isAuthorityChar
    let suffix := rest.dropWhile isAuthorityChar
    if c.isAlpha ∧ authority ≠ [] ∧ suffix.all isDotChar then some (scheme, authority ++ suffix) else none
  | _, _ => none

/-- `rfind(prefix, 0) == 0`. -/
def startsWith (value pfx : Str) : Bool := pfx.isPrefixOf value

/-- The prefixes of the private ranges that `isPrivateHost` tests. -/
def privatePrefixes : List Str :=
  ["127.", "10.", "192.168.", "169.254.", "172.16.",
   "172.17.", "172.18.", "172.19.", "172.20.", "172.21.",
   "172.22.", "172.23.", "172.24.", "172.25.", "172.26.",
   "172.27.", "172.28.", "172.29.", "172.30.", "172.31.",
   "fc", "fd", "fe80:"]

/-- A host without the brackets around it. -/
def effectiveHost (lowerHost : Str) : Str :=
  if lowerHost ≠ [] ∧ lowerHost.head? = some '[' ∧ lowerHost.getLast? = some ']' then
    (lowerHost.drop 1).take (lowerHost.length - 2)
  else lowerHost

/-- Local names and private addresses. -/
def isPrivateHost (host : Str) : Bool :=
  let lowerHost := toLower host
  if ["localhost".toList, "::1".toList, "::".toList, "0.0.0.0".toList, "[::1]".toList,
      "[::]".toList].contains lowerHost then true
  else if lowerHost = "internal".toList ∨ lowerHost = "localhost.localdomain".toList ∨
      contains lowerHost ".internal".toList ∨ contains lowerHost ".local".toList then true
  else
    let effective := effectiveHost lowerHost
    effective == "localhost".toList || effective == "::1".toList ||
      privatePrefixes.any (startsWith effective)

/-- The authority cut at its first colon: the host, and the port if there is a colon. -/
def splitAuthority (authority : Str) : Str × Option Str :=
  match cut [':'] authority with
  | none => (authority, none)
  | some (host, port) => (host, some port)

/-- The port unless it is the default one of the scheme. -/
def keepPort (scheme : Str) (port : Option Str) : Option Str :=
  if (scheme = "http".toList ∧ port = some "80".toList) ∨
      (scheme = "https".toList ∧ port = some "443".toList) then none
  else port

/-- The port as it is printed; an empty one is not. -/
def showPort (port : Option Str) : Str :=
  match port with
  | some p => if p = [] then [] else ':' :: p
  | none => []

/-- None if the URL is refused. -/
def normalizeTargetUrl (inputUrl : Str) (config : ServerConfig) : Option Str :=
  let trimmed := trim inputUrl
  if trimmed = [] then none
  else
    match splitUrl trimmed with
    | none => none
    | some (scheme, rest) =>
      let scheme := toLower scheme
      if scheme ≠ "http" ∧ scheme ≠ "https" then none
      else
        let authority := rest.takeWhile isAuthorityChar
        let suffix := rest.dropWhile isAuthorityChar
        if '@' ∈ authority then none
        else
          let (host, port) := splitAuthority authority
          let host := toLower host
          if host = [] then none
          else if !config.shortenerAllowPrivateTargets && isPrivateHost host then none
          else
            some (scheme ++ "://" ++ host ++ showPort (keepPort scheme port) ++ suffix)

end UrlShortener

import Mathlib.Data.Finmap

/-!
# Data model

The types of `core/types.hpp`, `core/config.hpp`, `app/app_error.hpp` and the command objects of
`app/link_command_service.hpp`.

* A `std::string` is a list of characters, one per byte (`Str`).
* A `std::unordered_map` is a finite map (`UnorderedMap`): look-ups, `insert` for `m[k] = v`, and
  `erase`. Nothing here depends on its iteration order.
* A `system_clock::time_point` counts nanoseconds in a signed 64-bit integer (`TimePoint`).
-/

namespace UrlShortener

/-- The bytes of a `std::string`. -/
abbrev Str := List Char

/-- Literals of the source are written as they are. -/
instance : Coe String Str := ⟨String.toList⟩

/-- `std::unordered_map`. -/
abbrev UnorderedMap (K V : Type) := Finmap fun _ : K => V

/-- Nanoseconds since the epoch, wrapping at 64 bits. -/
abbrev TimePoint := Int64

/-! ## Character classes of the "C" locale -/

/-- `std::isspace`: space and the five control characters from tab to carriage return. -/
def isSpace (c : Char) : Bool := c == ' ' || (9 ≤ c.toNat && c.toNat ≤ 13)

/-- `std::transform` with `std::tolower`. -/
def toLower (s : Str) : Str := s.map Char.toLower

/-! ## Links -/

/-- A redirect for now, or for good. -/
inductive RedirectType
  | temporary
  | permanent
  deriving DecidableEq, Repr

/-- What a link is at some instant. -/
inductive LinkStatus
  | active
  | disabled
  | expired
  | deleted
  deriving DecidableEq, Repr

/-- Why a repository refuses. -/
inductive RepoError
  | notFound
  | alreadyExists
  | transientFailure
  | permanentFailure
  deriving DecidableEq, Repr

/-- The fields of a campaign. -/
structure Campaign where
  name : Option Str := none
  source : Option Str := none
  medium : Option Str := none
  term : Option Str := none
  content : Option Str := none
  id : Option Str := none
  deriving DecidableEq

/-- `Link::Stats`; the counters are `uint64_t`. -/
structure Stats where
  totalRedirects : UInt64 := 0
  redirects24h : UInt64 := 0
  redirects7d : UInt64 := 0
  lastAccessedAt : Option Str := none
  deriving DecidableEq

/-- A link. -/
structure Link where
  id : Str
  slug : Str
  targetUrl : Str
  createdAt : Str
  updatedAt : Str
  expiresAt : Option Str := none
  deletedAt : Option Str := none
  enabled : Bool := true
  tags : List Str := []
  metadata : UnorderedMap Str Str := ∅
  campaign : Option Campaign := none
  stats : Stats := {}
  redirectType : RedirectType := .temporary
  deriving DecidableEq

/-! ## Configuration

The fields of `ServerConfig` that the modelled functions read. `uint32_t` values are `UInt32`. -/

/-- The configuration. -/
structure ServerConfig where
  hstsMaxAge : Option UInt32 := none
  shortenerBaseDomain : Str := "http://localhost:8000"
  shortenerDefaultRedirectType : Str := "temporary"
  shortenerDefaultExpirySeconds : Option UInt32 := none
  shortenerGeneratedSlugLength : UInt32 := 7
  shortenerAllowPrivateTargets : Bool := false
  analyticsEnabled : Bool := true
  analyticsClientHashSalt : Str := "dev-analytics-salt"
  deriving DecidableEq

/-! ## Application errors -/

/-- Why a service refuses. -/
inductive AppErrorCode
  | none
  | invalidUrl
  | invalidSlug
  | reservedSlug
  | slugConflict
  | invalidField
  | notFound
  | storageFailure
  | internal
  deriving DecidableEq, Repr

/-- The error of a service. -/
structure AppError where
  code : AppErrorCode := .none
  detail : Str := []
  deriving DecidableEq

/-- `Result<T>`: a value, or an error whose code is not `none`. -/
abbrev Result (α : Type) := Except AppError α

/-! ## Commands -/

/-- What a link is created from. -/
structure CreateLinkCommand where
  targetUrl : Str
  slug : Option Str := none
  redirectType : Option RedirectType := none
  expiresAt : Option Str := none
  enabled : Option Bool := none
  tags : List Str := []
  metadata : UnorderedMap Str Str := ∅
  campaign : Option Campaign := none

/-- How a link is asked for. -/
inductive GetLinkBy
  | slug
  | id
  deriving DecidableEq

/-- A link that is asked for. -/
structure GetLinkQuery where
  by_ : GetLinkBy := .slug
  value : Str

/-- Partial update: the outer `Option` says whether the field is present, the inner one of
`expires_at` and `campaign` whether it is an explicit `null`. -/
structure UpdateLinkCommand where
  slug : Str
  enabled : Option Bool := none
  expiresAt : Option (Option Str) := none
  tags : Option (List Str) := none
  metadata : Option (UnorderedMap Str Str) := none
  campaign : Option (Option Campaign) := none

/-- A link that is to be deleted. -/
structure DeleteLinkCommand where
  slug : Str

/-- A link that is to be switched. -/
structure SetLinkEnabledCommand where
  slug : Str
  enabled : Bool := true

/-- A link that is to be restored. -/
structure RestoreLinkCommand where
  slug : Str

/-- What the service returns for a link. -/
structure LinkView where
  id : Str
  slug : Str
  targetUrl : Str
  shortUrl : Str
  createdAt : Str
  updatedAt : Str
  expiresAt : Option Str
  deletedAt : Option Str
  enabled : Bool
  tags : List Str
  metadata : UnorderedMap Str Str
  campaign : Option Campaign
  stats : Stats
  redirectType : RedirectType
  status : LinkStatus
  deriving DecidableEq

end UrlShortener

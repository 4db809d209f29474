import UrlShortener.Spec.Url
import UrlShortener.Spec.Time

/-!
# Slugs, field rules and link status

`generateSlug`, `isValidSlug`, `isReservedSlug`, the validators and `resolveLinkStatus` of
`core/utils.cpp`. The draws of the random generator are an argument.
-/

namespace UrlShortener

/-! ## Slugs -/

/-- The alphabet of `generateSlug`. -/
def slugChars : Str := "0123456789ABCDEFGHIJKLMNOPQRSTUVWXYZabcdefghijklmnopqrstuvwxyz"

/-- The values of one `uniform_int_distribution` over the positions of `slugChars`, draw by draw. -/
abbrev Draws := ℕ → Fin slugChars.length

/-- One character for each draw. -/
def generateSlug (length : ℕ) (draws : Draws) : Str :=
  (List.range length).map fun i => slugChars.get (draws i)

/-- An identifier has 20 characters. -/
def generateId (draws : Draws) : Str := generateSlug 20 draws

/-- The class `[A-Za-z0-9_-]`. -/
def isSlugChar (c : Char) : Bool := c.isAlphanum || c == '_' || c == '-'

/-- A match of `^[A-Za-z0-9][A-Za-z0-9_-]{2,63}$`. -/
def isValidSlug : Str → Bool
  | [] => false
  | c :: rest => c.isAlphanum && rest.all isSlugChar && 2 ≤ rest.length && rest.length ≤ 63

/-- Slugs of the server itself. -/
def reservedSlugs : List Str :=
  ["api", "health", "metrics", "admin", "login", "logout",
   "r", "preview", "stats"]

/-- Case is ignored. -/
def isReservedSlug (slug : Str) : Bool := reservedSlugs.contains (toLower slug)

/-! ## Validators -/

/-- `[A-Za-z0-9:_-]`. -/
def isTagChar (c : Char) : Bool := c.isAlphanum || c == ':' || c == '-' || c == '_'

/-- The loop of `validateTags`. The set `seen` holds exactly the tags pushed to `normalized`. -/
def validateTagsLoop : List Str → List Str → Option (List Str)
  | [], normalized => some normalized
  | rawTag :: rest, normalized =>
    let tag := trim rawTag
    if tag = [] then none
    else if 32 < tag.length then none
    else if !tag.all isTagChar then none
    else if normalized.contains tag then validateTagsLoop rest normalized
    else validateTagsLoop rest (normalized ++ [tag])

/-- `validateTags`: the normalized list it stores back, or a refusal. -/
def validateTags (tags : List Str) : Option (List Str) :=
  if 20 < tags.length then none else validateTagsLoop tags []

/-- The number of pairs and their lengths. -/
def validateMetadata (metadata : UnorderedMap Str Str) : Bool :=
  metadata.entries.card ≤ 50 &&
    decide (∀ e ∈ metadata.entries, e.1 ≠ [] ∧ e.1.length ≤ 64 ∧ e.2.length ≤ 512)

/-- At most 128 bytes. -/
def validateCampaignField (field : Option Str) : Bool :=
  match field with
  | none => true
  | some value => value.length ≤ 128

/-- The lengths of its fields. -/
def validateCampaign (campaign : Option Campaign) : Bool :=
  match campaign with
  | none => true
  | some c =>
    validateCampaignField c.name && validateCampaignField c.source && validateCampaignField c.medium &&
      validateCampaignField c.term && validateCampaignField c.content && validateCampaignField c.id

/-! ## Redirect types and status -/

/-- The type of a name. -/
def parseRedirectType (value : Str) : Option RedirectType :=
  if value = "temporary" then some .temporary
  else if value = "permanent" then some .permanent
  else none

/-- The name of a type. -/
def redirectTypeToString (value : RedirectType) : Str :=
  match value with
  | .permanent => "permanent"
  | .temporary => "temporary"

/-- The name of a status. -/
def linkStatusToString (status : LinkStatus) : Str :=
  match status with
  | .deleted => "deleted"
  | .disabled => "disabled"
  | .expired => "expired"
  | .active => "active"

/-- Deletion comes before disabling and disabling before expiry. -/
def resolveLinkStatus (link : Link) (now : TimePoint) : LinkStatus :=
  if link.deletedAt.isSome then .deleted
  else if !link.enabled then .disabled
  else if isExpired link.expiresAt now then .expired
  else .active

/-- The status code of a redirect. -/
def redirectStatusFor (link : Link) : ℕ :=
  match link.redirectType with
  | .permanent => 301
  | .temporary => 302

end UrlShortener

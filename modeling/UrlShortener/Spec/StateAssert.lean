import Mathlib.Algebra.Order.Ring.Rat
import Mathlib.Data.Char
import Mathlib.Data.List.Lex
import Mathlib.Data.List.Sort
import UrlShortener.Spec.Types
import UrlShortener.Text.Search

/-!
# The state assertion tool

`compare_table` of `tools/sqlite_state_assert.py` and what it calls. A text is a list of code points. A `dict` is kept
by its items in the order of their keys: the order of insertion decides at most which of several exceptions is raised,
and `json.dumps` sorts the keys. The descriptions of mismatches are left out, since no caller looks at them.
-/

namespace UrlShortener.StateAssert

/-! ## Python values -/

/-- What a number stands for in a comparison. -/
inductive FloatValue
  | nan
  | negInf
  | finite (q : ℚ)
  | posInf

namespace FloatValue

/-- `==`: a NaN equals nothing. -/
def eq : FloatValue → FloatValue → Bool
  | negInf, negInf => true
  | finite q, finite q' => q == q'
  | posInf, posInf => true
  | _, _ => false

/-- `<`. -/
def lt : FloatValue → FloatValue → Bool
  | negInf, finite _ => true
  | negInf, posInf => true
  | finite q, finite q' => decide (q < q')
  | finite _, posInf => true
  | _, _ => false

/-- `<=`. -/
def le (a b : FloatValue) : Bool := a.lt b || a.eq b

end FloatValue

/-- The floats. They are told apart by `repr`, which writes a point, an exponent, `Infinity` or `NaN`, so that no text
of an integer is one of a float. -/
structure Floats (F : Type) where
  repr : F → Str
  value : F → FloatValue
  repr_injective : Function.Injective repr
  repr_chars : ∀ x, ∀ c ∈ repr x, c ∈ "0123456789+-.eInfityNa".toList
  repr_mark : ∀ x, ∃ c ∈ repr x, c ∈ ".eIN".toList

/-- What `json.loads` gives, and what is read from a table. -/
inductive Value (F : Type)
  | none
  | bool (b : Bool)
  | int (n : ℤ)
  | float (x : F)
  | str (s : Str)
  | list (items : List (Value F))
  | dict (items : List (Str × Value F))

/-- A row: a `dict` from columns to values. -/
structure Row (F : Type) where
  items : List (Str × Value F)
  sorted : items.Pairwise fun item item' => item.1 < item'.1

/-- What a comparison raises. -/
inductive PyError
  | typeError
  | overflowError
  | regexError

/-- The interpreter: its floats, `re.search` and the unified diff of `difflib`. -/
structure Python (F : Type) extends Floats F where
  search : (pattern text : Str) → Except PyError Bool
  makeDiff : (expectedRows actualRows : List (Row F)) → Str

variable {F : Type}

/-- The number that a value is, for `==` and `<`; booleans are integers. -/
def number (py : Python F) : Value F → Option FloatValue
  | .bool b => some (.finite (if b then 1 else 0))
  | .int n => some (.finite n)
  | .float x => some (py.value x)
  | _ => none

mutual

/-- `==` of values. -/
def pyEq (py : Python F) : Value F → Value F → Bool
  | .none, .none => true
  | .str s, .str t => s == t
  | .list vs, .list ws => pyEqList py vs ws
  | .dict vs, .dict ws => pyEqItems py vs ws
  | v, w =>
    match number py v, number py w with
    | some a, some b => a.eq b
    | _, _ => false

/-- `==` of lists. -/
def pyEqList (py : Python F) : List (Value F) → List (Value F) → Bool
  | [], [] => true
  | v :: vs, w :: ws => pyEq py v w && pyEqList py vs ws
  | _, _ => false

/-- `==` of dictionaries. -/
def pyEqItems (py : Python F) : List (Str × Value F) → List (Str × Value F) → Bool
  | [], [] => true
  | (k, v) :: vs, (k', w) :: ws => k == k' && pyEq py v w && pyEqItems py vs ws
  | _, _ => false

end

/-! ## `json.dumps` -/

/-- Four hexadecimal digits. -/
def hex4 (n : ℕ) : Str :=
  [Nat.digitChar (n / 4096), Nat.digitChar (n / 256 % 16), Nat.digitChar (n / 16 % 16), Nat.digitChar (n % 16)]

/-- A character of a string, with `ensure_ascii`: above 0xffff there are two surrogates. -/
def escapeAscii (c : Char) : Str :=
  if c = '"' then ['\\', '"']
  else if c = '\\' then ['\\', '\\']
  else if c = '\n' then ['\\', 'n']
  else if c = '\r' then ['\\', 'r']
  else if c = '\t' then ['\\', 't']
  else if c.toNat = 12 then ['\\', 'f']
  else if c.toNat = 8 then ['\\', 'b']
  else if 32 ≤ c.toNat ∧ c.toNat ≤ 126 then [c]
  else if c.toNat < 65536 then '\\' :: 'u' :: hex4 c.toNat
  else
    '\\' :: 'u' :: hex4 (55296 + (c.toNat - 65536) / 1024) ++ '\\' :: 'u' :: hex4 (56320 + (c.toNat - 65536) % 1024)

/-- A text in quotes, all ASCII. -/
def quoteAscii (s : Str) : Str := '"' :: s.flatMap escapeAscii ++ ['"']

mutual

/-- `json.dumps`. -/
def dumps (py : Python F) : Value F → Str
  | .none => "null"
  | .bool b => if b then "true" else "false"
  | .int n => (toString n).toList
  | .float x => py.repr x
  | .str s => quoteAscii s
  | .list [] => "[]"
  | .list (v :: vs) => '[' :: dumps py v ++ dumpsRest py vs
  | .dict [] => "\x7b\x7d"
  | .dict ((k, v) :: items) => '{' :: quoteAscii k ++ ':' :: ' ' :: dumps py v ++ dumpsItems py items

/-- The elements of a list behind the first one. -/
def dumpsRest (py : Python F) : List (Value F) → Str
  | [] => [']']
  | v :: vs => ',' :: ' ' :: dumps py v ++ dumpsRest py vs

/-- The items of a `dict` behind the first one. -/
def dumpsItems (py : Python F) : List (Str × Value F) → Str
  | [] => ['}']
  | (k, v) :: items => ',' :: ' ' :: quoteAscii k ++ ':' :: ' ' :: dumps py v ++ dumpsItems py items

end

/-! ## Matchers -/

/-- The matchers by name. -/
inductive Matcher
  | any
  | notNull
  | regex
  | contains
  | gt
  | gte
  | lt
  | lte
  deriving DecidableEq

/-- The keys of `_SUPPORTED_MATCHERS`. -/
def Matcher.ofKey (key : Str) : Option Matcher :=
  if key = "$any" then some .any
  else if key = "$not_null" then some .notNull
  else if key = "$regex" then some .regex
  else if key = "$contains" then some .contains
  else if key = "$gt" then some .gt
  else if key = "$gte" then some .gte
  else if key = "$lt" then some .lt
  else if key = "$lte" then some .lte
  else none

/-- `a > b` and the like, between what two numbers stand for. -/
def Matcher.compare (op : Matcher) (a b : FloatValue) : Bool :=
  match op with
  | gt => b.lt a
  | gte => b.le a
  | lt => a.lt b
  | lte => a.le b
  | _ => false

/-- `float(actual)`, which overflows for integers that round to 2^1024. -/
def toFloat (actual : Value F) : Except PyError Unit :=
  match actual with
  | .int n => if 2 ^ 1024 - 2 ^ 970 ≤ n.natAbs then .error .overflowError else .ok ()
  | _ => .ok ()

/-- `_apply_matcher`. Operands of the wrong type are exceptions. -/
def applyMatcher (py : Python F) (op : Matcher) (operand actual : Value F) : Except PyError Bool :=
  match op with
  | .any => .ok true
  | .notNull =>
    match actual with
    | .none => .ok false
    | _ => .ok true
  | .regex =>
    match actual with
    | .str text =>
      match operand with
      | .str pattern => py.search pattern text
      | _ => .error .typeError
    | _ => .ok false
  | .contains =>
    match actual with
    | .str text =>
      match operand with
      | .str part => .ok (Text.contains text part)
      | _ => .error .typeError
    | _ => .ok false
  | op =>
    match number py actual with
    | none => .ok false
    | some a => do
      toFloat actual
      match number py operand with
      | none => .error .typeError
      | some b => return op.compare a b

/-- A matcher, or a value to be equal to. -/
def matchValue (py : Python F) (expected actual : Value F) : Except PyError Bool :=
  match expected with
  | .dict [(key, operand)] =>
    match Matcher.ofKey key with
    | some op => applyMatcher py op operand actual
    | none => if key.head? = some '$' then .ok false else .ok (pyEq py expected actual)
  | _ => .ok (pyEq py expected actual)

/-- `actual_row.get(col)`. -/
def Row.get (row : Row F) (col : Str) : Value F := (row.items.lookup col).getD .none

/-- The loop of `_rows_match`, which goes on behind a mismatch. -/
def rowsMatchLoop (py : Python F) (actualRow : Row F) : List (Str × Value F) → Except PyError Bool
  | [] => .ok true
  | (col, expVal) :: items => do
    let ok ← matchValue py expVal (actualRow.get col)
    let rest ← rowsMatchLoop py actualRow items
    return ok && rest

/-- Every expected column matches. -/
def rowsMatch (py : Python F) (expectedRow actualRow : Row F) : Except PyError Bool :=
  rowsMatchLoop py actualRow expectedRow.items

/-! ## Comparison -/

/-- How rows are compared. -/
inductive Mode
  | exact
  | contains
  deriving DecidableEq

/-- The verdict. -/
inductive Status
  | pass
  | fail
  deriving DecidableEq

/-- The fields of a `TableExpectation` that are compared with. -/
structure TableExpectation (F : Type) where
  name : Str
  mode : Mode
  ignoreColumns : List Str
  orderBy : List Str
  rows : List (Row F)

/-- The verdict on a table. -/
structure TableComparisonResult (F : Type) where
  table : Str
  status : Status
  mode : Mode
  expectedCount : ℕ
  actualCount : ℕ
  message : Str
  expectedRows : List (Row F)
  actualRows : List (Row F)
  diff : Option Str

/-- The text a row is sorted by. -/
def Row.text (py : Python F) (row : Row F) : Str := dumps py (.dict row.items)

/-- By their texts. -/
def sortRows (py : Python F) (rows : List (Row F)) : List (Row F) :=
  rows.insertionSort fun row row' => row.text py ≤ row'.text py

/-- A row without the ignored columns. -/
def Row.without (ignore : List Str) (row : Row F) : Row F where
  items := row.items.filter fun item => !ignore.contains item.1
  sorted := row.sorted.filter _

/-- The loop over the pairs of rows, up to the first that does not match. -/
def allMatch (py : Python F) : List (Row F × Row F) → Except PyError Bool
  | [] => .ok true
  | (expRow, actRow) :: pairs => do
    let ok ← rowsMatch py expRow actRow
    if ok then allMatch py pairs else return false

/-- Pair by pair. -/
def compareExact (py : Python F) (expected : TableExpectation F) (expectedRows actualRows : List (Row F)) :
    Except PyError (TableComparisonResult F) :=
  let result (status : Status) (message : Str) (diff : Option Str) : TableComparisonResult F :=
    ⟨expected.name, status, .exact, expectedRows.length, actualRows.length, message, expectedRows, actualRows, diff⟩
  if expectedRows.length ≠ actualRows.length then
    .ok (result .fail ("Row count mismatch: expected " ++ (toString expectedRows.length).toList ++
      ", got " ++ (toString actualRows.length).toList) (some (py.makeDiff expectedRows actualRows)))
  else do
    if ← allMatch py (expectedRows.zip actualRows) then return result .pass [] none
    else return result .fail "Rows differ" (some (py.makeDiff expectedRows actualRows))

/-- The inner loop of `_compare_contains`. Columns that the expected row does not name are not looked at, so that the
row can stand for its part. -/
def findRow (py : Python F) (expRow : Row F) : List (Row F) → Except PyError Bool
  | [] => .ok false
  | actRow :: actualRows => do
    let ok ← rowsMatch py expRow actRow
    if ok then return true else findRow py expRow actualRows

/-- The expected rows that are not found. -/
def missingRows (py : Python F) (actualRows : List (Row F)) : List (Row F) → Except PyError (List (Row F))
  | [] => .ok []
  | expRow :: expectedRows => do
    let found ← findRow py expRow actualRows
    let missing ← missingRows py actualRows expectedRows
    return if found then missing else expRow :: missing

/-- Every expected row is matched by some row. -/
def compareContains (py : Python F) (expected : TableExpectation F) (expectedRows actualRows : List (Row F)) :
    Except PyError (TableComparisonResult F) := do
  let result (status : Status) (message : Str) (diff : Option Str) : TableComparisonResult F :=
    ⟨expected.name, status, .contains, expectedRows.length, actualRows.length, message, expectedRows, actualRows, diff⟩
  let missing ← missingRows py actualRows expectedRows
  if missing.isEmpty then return result .pass [] none
  else
    let message := (toString missing.length).toList ++ " expected row(s) not found in actual data"
    return result .fail message (some (py.makeDiff missing []))

/-- Rows are sorted unless there is an order. -/
def compareTable (py : Python F) (expected : TableExpectation F) (actualRows : List (Row F)) :
    Except PyError (TableComparisonResult F) :=
  let actualFiltered := actualRows.map (Row.without expected.ignoreColumns)
  let actualFiltered := if expected.orderBy = [] then sortRows py actualFiltered else actualFiltered
  let expectedRows := if expected.orderBy = [] then sortRows py expected.rows else expected.rows
  match expected.mode with
  | .exact => compareExact py expected expectedRows actualFiltered
  | .contains => compareContains py expected expectedRows actualFiltered

end UrlShortener.StateAssert

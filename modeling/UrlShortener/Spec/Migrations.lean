import Mathlib.Data.Char
import UrlShortener.Spec.Storage
import UrlShortener.Text.Order

/-!
# The migration runner

`storage/postgres/postgres_migration_runner.cpp`. The paths that `OrderedBySuffix` returns all lie in the migrations
directory, so that a path is its file name here, and `operator<` of paths is the order of the names. The bytes of a
name are compared as unsigned numbers.
-/

namespace UrlShortener.Migrations

open Storage (RepoError)

/-- A directory entry, with what an `ifstream` reads from it. -/
structure Entry where
  name : Str
  isRegularFile : Bool
  text : Str

/-- A directory, in the order in which `directory_iterator` happens to go through it. -/
structure Directory where
  entries : List Entry
  nodup : (entries.map Entry.name).Nodup

/-- `ReadFile`; a file that cannot be opened is read as empty. -/
def readFile (dir : Directory) (path : Str) : Str :=
  match dir.entries.find? (·.name == path) with
  | none => []
  | some e => e.text

/-- The name ends in `suffix`. -/
def hasSuffix (name suffix : Str) : Bool :=
  decide (suffix.length ≤ name.length) && name.drop (name.length - suffix.length) == suffix

/-- `OrderedBySuffix`; `none` is a directory that does not exist. -/
def orderedBySuffix (dir : Option Directory) (suffix : Str) : List Str :=
  match dir with
  | none => []
  | some dir =>
    ((dir.entries.filter fun e => e.isRegularFile && hasSuffix e.name suffix).map Entry.name).insertionSort (· ≤ ·)

/-- The scripts that go up. -/
def upSuffix : Str := ".up.sql"

/-- The scripts that go down. -/
def downSuffix : Str := ".down.sql"

/-- In the order of their names. -/
def orderedUpMigrations (dir : Option Directory) : List Str := orderedBySuffix dir upSuffix

/-- In the opposite order. -/
def orderedDownMigrations (dir : Option Directory) : List Str := (orderedBySuffix dir downSuffix).reverse

variable {S : Type}

/-- The loop over the migrations: `session << ReadFile(migration)`, where `execute` returns `false` if the statement
throws. The session is left as the last statement left it. -/
def applyAll (execute : Str → S → Bool × S) : List Str → S → Bool × S
  | [], s => (true, s)
  | text :: texts, s =>
    match execute text s with
    | (false, s) => (false, s)
    | (true, s) => applyAll execute texts s

/-- What `ApplyUp` and `ApplyDownToBase` return, with the error they report; `none` is success. -/
def report : Bool × S → (Bool × Option RepoError) × S
  | (true, s) => ((true, none), s)
  | (false, s) => ((false, some .permanentFailure), s)

/-- The texts of the migrations, in the order of the paths. -/
def scripts (dir : Option Directory) (paths : List Str) : List Str :=
  match dir with
  | none => []
  | some dir => paths.map (readFile dir)

/-- `ApplyUp`. -/
def applyUp (execute : Str → S → Bool × S) (dir : Option Directory) (s : S) : (Bool × Option RepoError) × S :=
  report (applyAll execute (scripts dir (orderedUpMigrations dir)) s)

/-- `ApplyDownToBase`. -/
def applyDownToBase (execute : Str → S → Bool × S) (dir : Option Directory) (s : S) : (Bool × Option RepoError) × S :=
  report (applyAll execute (scripts dir (orderedDownMigrations dir)) s)

end UrlShortener.Migrations

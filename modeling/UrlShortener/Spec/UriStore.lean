import UrlShortener.Spec.Url

/-!
# URI store

`UriMapSingleton` of `uri_map_singleton.cpp`: the map from a URI to its body and content type, and the
text file it is saved to and loaded from.
-/

namespace UrlShortener

/-- `data_`: URI to body and content type. -/
abbrev UriMap := UnorderedMap Str (Str × Str)

/-- A key of the map, and what it holds. -/
abbrev UriEntry := Sigma fun _ : Str => Str × Str

namespace UriMap

/-- `saveData` overwrites. -/
def saveData (m : UriMap) (uri data contentType : Str) : UriMap := m.insert uri (data, contentType)

/-- Whether there was something to delete. -/
def deleteData (m : UriMap) (uri : Str) : Bool × UriMap :=
  if (m.lookup uri).isSome then (true, m.erase uri) else (false, m)

/-- `getData`. -/
def getData (m : UriMap) (uri : Str) : Option (Str × Str) := m.lookup uri

/-- An order in which the unordered map may be iterated. -/
def Iterates (m : UriMap) (entries : List UriEntry) : Prop := (entries : Multiset UriEntry) = m.entries

end UriMap

/-- Trailing white space removed, unless there is nothing else. -/
def cleanData (data : Str) : Str := if data.all isTrimmed then data else data.rdropWhile isTrimmed

/-- One record of the file. The pair is bound as `[content_type, data]`, so the body is written
under `Content-Type` and the content type under `Data`. -/
def serializeEntry (e : UriEntry) : Str :=
  "URI: " ++ e.1 ++ "\nContent-Type: " ++ e.2.1 ++ "\nData: " ++ cleanData e.2.2 ++
    "\nRecordEnd\n"

/-- The file written for a map iterated in the given order. -/
def serialize (entries : List UriEntry) : Str := entries.flatMap serializeEntry

/-- The lines that repeated `std::getline` reads. -/
def getLines (file : Str) : List Str :=
  let lines := file.splitOn '\n'
  if lines.getLast? = some [] then lines.dropLast else lines

/-- The variables of the load loop. -/
structure LoadState where
  uri : Str := []
  contentType : Str := []
  data : Str := []
  map : UriMap := ∅

/-- One line of the file; `none` is `std::exit(EXIT_FAILURE)`. -/
def loadLine (s : LoadState) (line : Str) : Option LoadState :=
  if startsWith line "URI:" then some { s with uri := line.drop 4 }
  else if startsWith line "Content-Type:" then some { s with contentType := line.drop 13 }
  else if startsWith line "Data:" then some { s with data := line.drop 5 }
  else if line = "RecordEnd" then
    if s.uri ≠ [] ∧ s.contentType ≠ [] then
      some { map := s.map.insert s.uri (s.contentType, s.data) }
    else none
  else some s

/-- All lines, in their order. -/
def loadLines : List Str → LoadState → Option LoadState
  | [], s => some s
  | line :: lines, s => (loadLine s line).bind (loadLines lines)

/-- The map loaded from a file, or the exit of the process. -/
def deserialize (file : Str) : Option UriMap := (loadLines (getLines file) {}).map LoadState.map

end UrlShortener

import Mathlib.Data.List.Basic
import Mathlib.Data.List.Induction
import Mathlib.Data.List.Nodup
import UrlShortener.Text.Lines

/-!
# Property trees

Trees of texts: a node has data and named children in the order they were added. A value is put at a path of
keys, and the nodes on the way are created.

* `fragments`, `steps`: the keys of a path text. A key that is not empty and has no separator is a path of its own.
* `Format`: a text format for trees. It cannot express a node with both data and children, nor data at the
  root; what it can express is read back as it was written. `Format.json` is one.
* `Library`: a tree library with its format, by what is asked of it. `Format.library` makes one of these trees.
* `foldl_put`: values put at plain keys, each key once, are the leaves of the root in this order.
* `mem_keys_foldl_put`: whatever the keys, a child of the root is the first step of one of them.
-/

namespace UrlShortener.PropertyTree

/-! ## Paths -/

/-- The keys between the separators. -/
def fragments (path : List Char) : List (List Char) := path.splitOn '.'

/-- The keys on a walk: it is over where nothing is left of the path, so an empty last key is not looked for. -/
def steps (path : List Char) : List (List Char) :=
  if (fragments path).getLast? = some [] then (fragments path).dropLast else fragments path

/-- A text that names a child of its own. -/
def isPlainKey (key : List Char) : Bool := !key.isEmpty && key.all (· ≠ '.')

/-- No key on the way has a separator. -/
theorem not_mem_fragment {path key : List Char} (h : key ∈ fragments path) : '.' ∉ key := Text.not_mem_of_mem_splitOn h

theorem isPlainKey_iff {key : List Char} : isPlainKey key = true ↔ key ≠ [] ∧ '.' ∉ key := by
  simp only [isPlainKey, Bool.and_eq_true, Bool.not_eq_true', List.isEmpty_eq_false_iff, List.all_eq_true,
    decide_eq_true_eq]
  refine and_congr_right fun _ => ⟨fun h hmem => h '.' hmem rfl, fun h c hc => ?_⟩
  rintro rfl
  exact h hc

theorem fragments_plain {key : List Char} (h : isPlainKey key = true) : fragments key = [key] :=
  List.splitOn_eq_singleton (isPlainKey_iff.1 h).2

theorem steps_plain {key : List Char} (h : isPlainKey key = true) : steps key = [key] := by
  have hne := (isPlainKey_iff.1 h).1
  rw [steps, fragments_plain h, List.getLast?_singleton, if_neg (by simpa using hne)]

/-! ## Trees -/

/-- The children of a node, in order: the key, the data and the children of the first, and the others. -/
inductive Children
  | none
  | child (key data : List Char) (below rest : Children)
  deriving DecidableEq

/-- A tree: a text and named children. -/
structure Ptree where
  data : List Char := []
  children : Children := .none
  deriving DecidableEq

namespace Children

/-- The children in order. -/
def toList : Children → List (List Char × Ptree)
  | .none => []
  | .child key data below rest => (key, ⟨data, below⟩) :: rest.toList

/-- Their names. -/
def keys (c : Children) : List (List Char) := c.toList.map (·.1)

/-- The first child with the key. -/
def find (key : List Char) (c : Children) : Option Ptree := (c.toList.find? (·.1 == key)).map (·.2)

/-- One more child at the end. -/
def add (key : List Char) (t : Ptree) : Children → Children
  | .none => .child key t.data t.children .none
  | .child key' data below rest => .child key' data below (rest.add key t)

/-- Change the first child with the key, or a new one at the end. -/
def change (key : List Char) (f : Ptree → Ptree) : Children → Children
  | .none => .child key (f {}).data (f {}).children .none
  | .child key' data below rest =>
    if key' = key then .child key' (f ⟨data, below⟩).data (f ⟨data, below⟩).children rest
    else .child key' data below (rest.change key f)

/-- Every key and all data. -/
def all (p : List Char → Bool) : Children → Bool
  | .none => true
  | .child key data below rest => p key && p data && below.all p && rest.all p

/-- No node has both data and children. -/
def unmixed : Children → Bool
  | .none => true
  | .child _ data below rest => (data.isEmpty || below == .none) && below.unmixed && rest.unmixed

/-- Children that only have data. -/
def ofLeaves : List (List Char × List Char) → Children
  | [] => .none
  | (key, value) :: items => .child key value .none (ofLeaves items)

theorem mem_keys_change {k key : List Char} {f : Ptree → Ptree} {c : Children} :
    k ∈ (c.change key f).keys ↔ k ∈ c.keys ∨ k = key := by
  induction c with
  | none => simp [change, keys, toList]
  | child key' data below rest _ ih =>
    simp only [keys] at ih ⊢
    rw [change]
    split
    · rename_i heq
      simp only [toList, List.map_cons, List.mem_cons, heq]
      tauto
    · simp only [toList, List.map_cons, List.mem_cons, ih, or_assoc]

theorem toList_ofLeaves (items : List (List Char × List Char)) :
    (ofLeaves items).toList = items.map fun p => (p.1, ⟨p.2, .none⟩) := by
  induction items with
  | nil => rfl
  | cons p items ih => rw [ofLeaves, toList, ih, List.map_cons]

theorem change_ofLeaves {key : List Char} {items : List (List Char × List Char)} (f : Ptree → Ptree)
    (h : key ∉ items.map (·.1)) : (ofLeaves items).change key f = (ofLeaves items).add key (f {}) := by
  induction items with
  | nil => rfl
  | cons p items ih =>
    rw [List.map_cons, List.mem_cons, not_or] at h
    rw [ofLeaves, change, if_neg (Ne.symm h.1), ih h.2, add]

theorem add_ofLeaves (key value : List Char) (items : List (List Char × List Char)) :
    (ofLeaves items).add key ⟨value, .none⟩ = ofLeaves (items ++ [(key, value)]) := by
  induction items with
  | nil => rfl
  | cons p items ih => rw [ofLeaves, add, ih, List.cons_append, ofLeaves]

theorem unmixed_ofLeaves (items : List (List Char × List Char)) : (ofLeaves items).unmixed = true := by
  induction items with
  | nil => rfl
  | cons p items ih => simp [ofLeaves, unmixed, ih]

theorem all_ofLeaves {p : List Char → Bool} {items : List (List Char × List Char)}
    (h : ∀ item ∈ items, p item.1 = true ∧ p item.2 = true) : (ofLeaves items).all p = true := by
  induction items with
  | nil => rfl
  | cons item items ih =>
    obtain ⟨hkey, hvalue⟩ := h item List.mem_cons_self
    have hrest := ih fun item hmem => h item (List.mem_cons_of_mem _ hmem)
    simp [ofLeaves, all, hkey, hvalue, hrest]

end Children

namespace Ptree

/-- The node at the end of the walk, if all its nodes are there. -/
def walk : List (List Char) → Ptree → Option Ptree
  | [], t => some t
  | key :: keys, t => (t.children.find key).bind (walk keys)

/-- Set the data of the node at the keys; the nodes that are missing are created. -/
def setData : List (List Char) → List Char → Ptree → Ptree
  | [], value, t => { t with data := value }
  | key :: keys, value, t => { t with children := t.children.change key (setData keys value) }

/-- Put a value at a path: at the node that the walk finds, or else at a new one. -/
def put (path value : List Char) (t : Ptree) : Ptree :=
  if (t.walk (steps path)).isSome then t.setData (steps path) value else t.setData (fragments path) value

theorem put_plain {key : List Char} (h : isPlainKey key = true) (value : List Char) (t : Ptree) :
    t.put key value = { t with children := t.children.change key fun child => { child with data := value } } := by
  rw [put, steps_plain h, fragments_plain h, ite_self]
  rfl

theorem mem_keys_setData {k value : List Char} {path : List (List Char)} {t : Ptree}
    (h : k ∈ (t.setData path value).children.keys) : k ∈ t.children.keys ∨ path.head? = some k := by
  cases path with
  | nil => exact .inl h
  | cons key path =>
    rcases Children.mem_keys_change.1 h with hold | rfl
    · exact .inl hold
    · exact .inr rfl

/-- A new child is the first key on the way; the empty path has none. -/
theorem mem_keys_put {k path value : List Char} {t : Ptree} (h : k ∈ (t.put path value).children.keys) :
    k ∈ t.children.keys ∨ (path ≠ [] ∧ (fragments path).head? = some k) := by
  by_cases hpath : path = []
  · subst hpath
    exact .inl h
  · have hsteps : (steps path).head? = some k → (fragments path).head? = some k := by
      unfold steps
      split
      · intro hhead
        rw [List.head?_dropLast] at hhead
        split at hhead
        · exact hhead
        · cases hhead
      · exact id
    rw [put] at h
    split at h
    · exact (mem_keys_setData h).imp_right fun hhead => ⟨hpath, hsteps hhead⟩
    · exact (mem_keys_setData h).imp_right fun hhead => ⟨hpath, hhead⟩

/-- **The children after values were put at paths.** -/
theorem mem_keys_foldl_put {k : List Char} {items : List (List Char × List Char)}
    (h : k ∈ (items.foldl (fun (t : Ptree) item => t.put item.1 item.2) {}).children.keys) :
    ∃ item ∈ items, item.1 ≠ [] ∧ (fragments item.1).head? = some k := by
  induction items using List.reverseRecOn with
  | nil => cases h
  | append_singleton items item ih =>
    rw [List.foldl_append, List.foldl_cons, List.foldl_nil] at h
    rcases mem_keys_put h with hold | hnew
    · obtain ⟨item', hmem, hkey⟩ := ih hold
      exact ⟨item', List.mem_append_left _ hmem, hkey⟩
    · exact ⟨item, List.mem_append_right _ (List.mem_singleton_self _), hnew⟩

/-- Add a child behind those that are there, whatever their keys. -/
def addChild (t : Ptree) (key : List Char) (child : Ptree) : Ptree :=
  { t with children := t.children.add key child }

/-- A value and a tree below two keys. -/
theorem addChild_put {key : List Char} (h : isPlainKey key = true) (value key' : List Char) (below : Ptree) :
    (({} : Ptree).put key value).addChild key' below =
      ⟨[], .child key value .none (.child key' below.data below.children .none)⟩ := by
  rw [put_plain h]
  rfl

/-- What a text format can express: no data at the root, and no node with both data and children. -/
def isWritable (t : Ptree) : Bool := t.data.isEmpty && t.children.unmixed

/-- **Values put at plain keys are leaves.** Each key is put once. -/
theorem foldl_put {items : List (List Char × List Char)} (hplain : ∀ item ∈ items, isPlainKey item.1 = true)
    (hkeys : (items.map (·.1)).Nodup) :
    items.foldl (fun (t : Ptree) item => t.put item.1 item.2) {} = ⟨[], .ofLeaves items⟩ := by
  -- from the back: the last key is new to the leaves before it
  induction items using List.reverseRecOn with
  | nil => rfl
  | append_singleton items item ih =>
    rw [List.map_append, List.map_singleton, List.nodup_append] at hkeys
    have hnew : item.1 ∉ items.map (·.1) := fun hmem => hkeys.2.2 _ hmem _ (List.mem_singleton_self _) rfl
    have hbefore := ih (fun item hmem => hplain item (List.mem_append_left _ hmem)) hkeys.1
    rw [List.foldl_append, hbefore, List.foldl_cons, List.foldl_nil,
      put_plain (hplain item (List.mem_append_right _ (List.mem_singleton_self _))),
      Children.change_ofLeaves _ hnew]
    exact congrArg (Ptree.mk []) (Children.add_ofLeaves item.1 item.2 items)

end Ptree

/-! ## Text formats -/

/-- A writer and a reader for trees. The reader refuses what is not a text of the format. `isText` tells the
texts of the character set that the format is for, which includes ASCII. -/
structure Format where
  write : Ptree → List Char
  read : List Char → Option Ptree
  isText : List Char → Bool
  isText_ascii : ∀ s, s.all (·.toNat < 128) = true → isText s = true
  read_write : ∀ t : Ptree, t.isWritable = true → t.children.all isText = true → read (write t) = some t

/-! ### JSON: a leaf is a string, the other nodes are objects -/

namespace Json

/-- Control characters are written by their code. -/
def escape (c : Char) : List Char :=
  if c = '"' ∨ c = '\\' then ['\\', c]
  else if c.toNat < 32 then ['\\', 'u', '0', '0', Nat.digitChar (c.toNat / 16), Nat.digitChar (c.toNat % 16)]
  else [c]

/-- A text in quotes. -/
def quote (s : List Char) : List Char := '"' :: (s.flatMap escape ++ ['"'])

/-- The character that a letter behind a backslash stands for. -/
def ofLetter (c : Char) : Option Char :=
  [('"', '"'), ('\\', '\\'), ('/', '/'), ('b', '\x08'), ('f', '\x0c'), ('n', '\n'), ('r', '\r'), ('t', '\t')].lookup c

/-- The value of a hexadecimal digit. -/
def hexDigit (c : Char) : Option Nat :=
  if c.isDigit then some (c.toNat - 48)
  else if 'a' ≤ c ∧ c ≤ 'f' then some (c.toNat - 87)
  else if 'A' ≤ c ∧ c ≤ 'F' then some (c.toNat - 55)
  else none

/-- The character of a code of hexadecimal digits; half of a surrogate pair is none. -/
def ofCode (digits : List Char) : Option Char :=
  (digits.mapM hexDigit).bind fun values =>
    let code := values.foldl (16 * · + ·) 0
    if code.isValidChar then some (Char.ofNat code) else none

/-- The text up to the closing quote, and what is behind it. -/
def unquote : List Char → Option (List Char × List Char)
  | '"' :: rest => some ([], rest)
  | '\\' :: 'u' :: h₁ :: h₂ :: h₃ :: h₄ :: s =>
    (ofCode [h₁, h₂, h₃, h₄]).bind fun c => (unquote s).map fun p => (c :: p.1, p.2)
  | '\\' :: letter :: s => (ofLetter letter).bind fun c => (unquote s).map fun p => (c :: p.1, p.2)
  | c :: s => if c.toNat < 32 then none else (unquote s).map fun p => (c :: p.1, p.2)
  | [] => none

theorem unquote_escape (c : Char) (s : List Char) :
    unquote (escape c ++ s) = (unquote s).map fun p => (c :: p.1, p.2) := by
  unfold escape
  split
  · rename_i hspecial
    rcases hspecial with rfl | rfl <;> rfl
  rename_i hplain
  rw [not_or] at hplain
  split
  · rename_i hcontrol
    have hcodes : ∀ n < 32,
        ofCode ['0', '0', Nat.digitChar (n / 16), Nat.digitChar (n % 16)] = some (Char.ofNat n) := by
      decide
    rw [List.cons_append, List.cons_append, List.cons_append, List.cons_append, List.cons_append, List.cons_append,
      List.nil_append, unquote, hcodes _ hcontrol, Char.ofNat_toNat, Option.bind_some]
  · rename_i hcontrol
    rw [List.singleton_append, unquote, if_neg hcontrol]
    · exact hplain.1
    all_goals
      intros
      exact hplain.2 ‹_›

theorem unquote_quote (s rest : List Char) : unquote (s.flatMap escape ++ '"' :: rest) = some (s, rest) := by
  induction s with
  | nil => rfl
  | cons c s ih => rw [List.flatMap_cons, List.append_assoc, unquote_escape, ih, Option.map_some]

/-- The members of an object, with the bracket at its end. -/
def writeMembers : Children → List Char
  | .none => ['}']
  | .child key data below rest =>
    quote key ++ ':' :: ((if below = .none then quote data else '{' :: writeMembers below) ++
      if rest = .none then ['}'] else ',' :: writeMembers rest)

/-- A string or an object; `readMembers` reads the members, of which there is one. -/
def readValue (readMembers : List Char → Option (Children × List Char)) : List Char → Option (Ptree × List Char)
  | '"' :: s => (unquote s).map fun p => (⟨p.1, .none⟩, p.2)
  | '{' :: '}' :: s => some ({}, s)
  | '{' :: s => (readMembers s).map fun p => (⟨[], p.1⟩, p.2)
  | _ => none

/-- The fuel bounds the depth of the recursion. -/
def readMembers : Nat → List Char → Option (Children × List Char)
  | fuel + 1, '"' :: s =>
    match unquote s with
    | some (key, ':' :: s) =>
      match readValue (readMembers fuel) s with
      | some (t, '}' :: s) => some (.child key t.data t.children .none, s)
      | some (t, ',' :: s) => (readMembers fuel s).map fun p => (.child key t.data t.children p.1, p.2)
      | _ => none
    | _ => none
  | _, _ => none

theorem readValue_object {read : List Char → Option (Children × List Char)} {c : Children} {rest : List Char}
    (h : c ≠ .none → read (writeMembers c ++ rest) = some (c, rest)) :
    readValue read ('{' :: (writeMembers c ++ rest)) = some (⟨[], c⟩, rest) := by
  cases c with
  | none => rfl
  | child key data below others =>
    have hread := h (by simp)
    rw [writeMembers, quote, List.cons_append, List.cons_append] at hread ⊢
    rw [readValue, hread, Option.map_some]
    simp

theorem readMembers_writeMembers {c : Children} (hne : c ≠ .none) (hunmixed : c.unmixed = true) (fuel : Nat)
    (hfuel : (writeMembers c).length ≤ fuel) (rest : List Char) :
    readMembers fuel (writeMembers c ++ rest) = some (c, rest) := by
  induction c generalizing fuel rest with
  | none => exact absurd rfl hne
  | child key data below others hbelow hothers =>
    simp only [Children.unmixed, Bool.and_eq_true, Bool.or_eq_true, List.isEmpty_iff, beq_iff_eq] at hunmixed
    obtain ⟨⟨hdata, hunmixed⟩, hothersUnmixed⟩ := hunmixed
    simp only [writeMembers, quote, List.length_append, List.length_cons] at hfuel
    obtain ⟨fuel, rfl⟩ : ∃ n, fuel = n + 1 := ⟨fuel - 1, by omega⟩
    have hvalue : ∀ tail, readValue (readMembers fuel)
        ((if below = .none then quote data else '{' :: writeMembers below) ++ tail) = some (⟨data, below⟩, tail) := by
      intro tail
      split
      · rename_i hleaf
        rw [hleaf, quote, List.cons_append, List.append_assoc, List.singleton_append, readValue, unquote_quote,
          Option.map_some]
      · rename_i hobject
        rw [if_neg hobject, List.length_cons] at hfuel
        rw [hdata.resolve_right hobject, List.cons_append]
        exact readValue_object fun hne => hbelow hne hunmixed fuel (by omega) tail
    rw [writeMembers, quote]
    simp only [List.cons_append, List.append_assoc, List.nil_append]
    simp only [readMembers, unquote_quote, hvalue]
    by_cases hlast : others = .none
    · rw [if_pos hlast, hlast]
      rfl
    · rw [if_neg hlast] at hfuel ⊢
      rw [List.length_cons] at hfuel
      have hrest := hothers hlast hothersUnmixed fuel (by omega) rest
      simp only [List.cons_append, hrest, Option.map_some]

end Json

/-- Objects of texts as JSON. -/
def Format.json : Format where
  write t := '{' :: Json.writeMembers t.children
  read s :=
    match Json.readValue (Json.readMembers s.length) s with
    | some (t, []) => some t
    | _ => none
  isText _ := true
  isText_ascii _ _ := rfl
  read_write t hwritable _ := by
    obtain ⟨hdata, hunmixed⟩ := Bool.and_eq_true_iff.1 hwritable
    have hmembers := fun hne => Json.readMembers_writeMembers hne hunmixed ('{' :: Json.writeMembers t.children).length
      (by simp) []
    have hread := Json.readValue_object hmembers
    rw [List.append_nil] at hread
    rw [hread]
    exact congrArg (fun data => some (Ptree.mk data t.children)) (List.isEmpty_iff.1 hdata).symm

theorem Format.json_read_write (t : Ptree) (h : t.isWritable = true) :
    Format.json.read (Format.json.write t) = some t := by
  have htexts : ∀ c : Children, c.all (fun _ => true) = true := by
    intro c
    induction c with
    | none => rfl
    | child key data below rest hbelow hrest => simp [Children.all, hbelow, hrest]
  exact Format.json.read_write t h (htexts t.children)

/-! ## Libraries -/

/-- **A property tree library with its JSON format**, on trees of type `T`. `isText` tells the texts of the character
set that the format is for. The one law is on two levels of keys that are no paths: they are written and read back. -/
structure Library (T : Type) where
  empty : T
  /-- Put a value at a path. -/
  put : (path value : List Char) → T → T
  addChild : (path : List Char) → (child : T) → T → T
  /-- The data at a path, if it is there. -/
  get : (path : List Char) → T → Option (List Char)
  getChild : (path : List Char) → T → Option T
  /-- The keys of the children and their data, in order. -/
  items : T → List (List Char × List Char)
  /-- Nothing for a tree that the format cannot express. -/
  write : T → Option (List Char)
  read : List Char → Option T
  isText : List Char → Bool
  isText_ascii : ∀ s, s.all (·.toNat < 128) = true → isText s = true
  read_write : ∀ {key value key' : List Char} {leaves : List (List Char × List Char)},
    isPlainKey key = true → isPlainKey key' = true → key ≠ key' → isText key = true → isText value = true →
    isText key' = true → (∀ leaf ∈ leaves, isPlainKey leaf.1 = true ∧ isText leaf.1 = true ∧ isText leaf.2 = true) →
    (leaves.map (·.1)).Nodup →
    ∃ text root below, write (addChild key' (leaves.foldl (fun t leaf => put leaf.1 leaf.2 t) empty)
        (put key value empty)) = some text ∧
      read text = some root ∧ get key root = some value ∧ getChild key' root = some below ∧ items below = leaves

namespace Format

/-- The trees above with a format for them. -/
def library (json : Format) : Library Ptree where
  empty := {}
  put path value t := t.put path value
  addChild path child t := t.addChild path child
  get path t := (t.walk (steps path)).map (·.data)
  getChild path t := t.walk (steps path)
  items t := t.children.toList.map fun kv => (kv.1, kv.2.data)
  write t := if t.isWritable then some (json.write t) else none
  read := json.read
  isText := json.isText
  isText_ascii := json.isText_ascii
  read_write := by
    intro key value key' leaves hkey hkey' hne htext hvalue htext' hleaves hnodup
    have hbelow := Ptree.foldl_put (fun leaf hleaf => (hleaves leaf hleaf).1) hnodup
    simp only [Ptree.addChild_put hkey, hbelow]
    let children : Children := .child key value .none (.child key' [] (.ofLeaves leaves) .none)
    have hwritable : Ptree.isWritable ⟨[], children⟩ = true := by
      simp [children, Ptree.isWritable, Children.unmixed, Children.unmixed_ofLeaves]
    have htexts : children.all json.isText = true := by
      have hempty : json.isText [] = true := json.isText_ascii [] rfl
      have hall := Children.all_ofLeaves fun leaf hleaf => (hleaves leaf hleaf).2
      simp only [children, Children.all, htext, hvalue, htext', hempty, hall, Bool.and_self]
    refine ⟨_, _, ⟨[], .ofLeaves leaves⟩, if_pos hwritable, json.read_write _ hwritable htexts, ?_, ?_, ?_⟩
    · simp [steps_plain hkey, Ptree.walk, Children.find, Children.toList]
    · simp [steps_plain hkey', Ptree.walk, Children.find, Children.toList, hne]
    · rw [Children.toList_ofLeaves, List.map_map]
      exact List.map_id leaves

end Format

end UrlShortener.PropertyTree

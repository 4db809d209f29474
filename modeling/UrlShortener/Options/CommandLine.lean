import UrlShortener.Text.Search

/-!
# Options on a command line

The options of a command, and what a library that reads them from the tokens of a command line stores.

* `LongOptions`: what such a library is documented to do with long options, `--name=text` and `--name text`, in any
  order. A token is any text; those that a process is started with hold no NUL.
* `LongOptions.exists_args`: whatever is to be stored, there are tokens for it.
* `parseLong` reads long options and nothing else. It is such a library (`parseLong_longOptions`).
-/

namespace UrlShortener.Options

open Text

/-- How an option takes its values: one, any number of them, or none. -/
inductive Kind
  | value
  | list
  | switch
  deriving DecidableEq

/-- A described option. -/
structure Description where
  name : List Char
  kind : Kind
  deriving DecidableEq

/-- **What is stored for a command line**: for an option of each kind, what was given for it. -/
structure VariablesMap where
  value : List Char → Option (List Char)
  values : List Char → List (List Char)
  flag : List Char → Bool

/-- A library maps the options of a command and the tokens to what it stores, or to a message. -/
abbrev CommandLineParser := List Description → List (List Char) → Except (List Char) VariablesMap

/-! ## Long options -/

/-- An option and what is given for it. -/
inductive Setting
  | value (name text : List Char)
  | flag (name : List Char)
  deriving DecidableEq

/-- The tokens of a setting. An empty text is a token of its own. -/
def Setting.tokens : Setting → List (List Char)
  | .value name [] => ['-' :: '-' :: name, []]
  | .value name (c :: text) => ['-' :: '-' :: name ++ '=' :: c :: text]
  | .flag name => ['-' :: '-' :: name]

/-- The text that a setting gives for an option. -/
def Setting.textFor (name : List Char) : Setting → Option (List Char)
  | .value n text => if n = name then some text else none
  | .flag _ => none

/-- The texts that are given for an option. -/
def given (settings : List Setting) (name : List Char) : List (List Char) :=
  settings.filterMap (Setting.textFor name)

/-- The option of the setting is described. -/
def Setting.Described (options : List Description) : Setting → Prop
  | .value name _ => ⟨name, .value⟩ ∈ options ∨ ⟨name, .list⟩ ∈ options
  | .flag name => ⟨name, .switch⟩ ∈ options

/-- A name that stands for itself: not empty, with no equals sign, no comma, behind which a short name is declared, and
no star at its end, which declares all names that begin so. -/
def isPlain (name : List Char) : Bool :=
  !name.isEmpty && name.all (fun c => c ≠ '=' && c ≠ ',') && name.getLast? ≠ some '*'

/-- The options have plain names of their own. -/
structure Proper (options : List Description) : Prop where
  names : (options.map Description.name).Nodup
  plain : ∀ d ∈ options, isPlain d.name = true

theorem Proper.no_equals {options : List Description} (h : Proper options) {d : Description} (hd : d ∈ options) :
    '=' ∉ d.name := by
  intro hmem
  have hplain := h.plain d hd
  simp only [isPlain, Bool.and_eq_true, List.all_eq_true] at hplain
  exact absurd (hplain.1.2 _ hmem) (by decide)

/-- The settings are of options of the command, and an option that takes one value or none is given at most once. -/
structure Suits (options : List Description) (settings : List Setting) : Prop where
  described : ∀ s ∈ settings, s.Described options
  once : ∀ name, ⟨name, .value⟩ ∈ options → (given settings name).length ≤ 1
  flagOnce : ∀ name, settings.count (.flag name) ≤ 1

/-- What is stored are the settings. -/
structure Holds (options : List Description) (settings : List Setting) (vm : VariablesMap) : Prop where
  value : ∀ name, ⟨name, .value⟩ ∈ options → vm.value name = (given settings name).head?
  values : ∀ name, ⟨name, .list⟩ ∈ options → vm.values name = given settings name
  flag : ∀ name, ⟨name, .switch⟩ ∈ options → vm.flag name = decide (.flag name ∈ settings)

/-- **The library reads long options.** -/
def LongOptions (parse : CommandLineParser) : Prop :=
  ∀ options settings, Proper options → Suits options settings →
    ∃ vm, parse options (settings.flatMap Setting.tokens) = .ok vm ∧ Holds options settings vm

/-! ## Tokens for what is to be stored -/

section Writing

variable {options : List Description} {vm : VariablesMap} {d : Description} {name : List Char}

/-- The texts of an option. -/
def textsFor (vm : VariablesMap) (d : Description) : List (List Char) :=
  match d.kind with
  | .value => (vm.value d.name).toList
  | .list => vm.values d.name
  | .switch => []

/-- The settings of an option. -/
def settingsFor (vm : VariablesMap) (d : Description) : List Setting :=
  match d.kind with
  | .switch => if vm.flag d.name then [.flag d.name] else []
  | _ => (textsFor vm d).map (.value d.name)

theorem settingsFor_of_text (h : d.kind ≠ .switch) : settingsFor vm d = (textsFor vm d).map (.value d.name) := by
  obtain ⟨name, kind⟩ := d
  cases kind with
  | switch => exact absurd rfl h
  | value => rfl
  | list => rfl

theorem settingsFor_switch : settingsFor vm ⟨name, .switch⟩ = if vm.flag name then [.flag name] else [] := rfl

theorem given_append (s t : List Setting) : given (s ++ t) name = given s name ++ given t name := List.filterMap_append

theorem given_map_value (texts : List (List Char)) (n : List Char) :
    given (texts.map (.value n)) name = if n = name then texts else [] := by
  rw [given, List.filterMap_map]
  by_cases h : n = name
  · rw [if_pos h]
    have hsome : (Setting.textFor name ∘ Setting.value n) = some := by
      funext text
      exact if_pos h
    rw [hsome, List.filterMap_some]
  · rw [if_neg h, List.filterMap_eq_nil_iff]
    intro text _
    exact if_neg h

theorem given_settingsFor : given (settingsFor vm d) name = if d.name = name then textsFor vm d else [] := by
  by_cases hkind : d.kind = .switch
  · obtain ⟨n, kind⟩ := d
    cases hkind
    have hnil : given (settingsFor vm ⟨n, .switch⟩) name = [] := by
      rw [settingsFor_switch]
      split <;> rfl
    rw [hnil]
    split <;> rfl
  · rw [settingsFor_of_text hkind, given_map_value]

theorem given_eq_nil_of_name (h : name ∉ options.map Description.name) :
    given (options.flatMap (settingsFor vm)) name = [] := by
  induction options with
  | nil => rfl
  | cons e options ih =>
    rw [List.map_cons, List.mem_cons, not_or] at h
    rw [List.flatMap_cons, given_append, given_settingsFor, if_neg (Ne.symm h.1), ih h.2, List.append_nil]

theorem given_flatMap (hnames : (options.map Description.name).Nodup) (hd : d ∈ options) :
    given (options.flatMap (settingsFor vm)) d.name = textsFor vm d := by
  induction options with
  | nil => cases hd
  | cons e options ih =>
    rw [List.map_cons, List.nodup_cons] at hnames
    rw [List.flatMap_cons, given_append, given_settingsFor]
    rcases List.mem_cons.1 hd with rfl | hd
    · rw [if_pos rfl, given_eq_nil_of_name hnames.1, List.append_nil]
    · have hne : e.name ≠ d.name := by
        intro heq
        exact hnames.1 (heq ▸ List.mem_map_of_mem hd)
      rw [if_neg hne, ih hnames.2 hd, List.nil_append]

theorem flag_mem_settingsFor : Setting.flag name ∈ settingsFor vm d ↔ d = ⟨name, .switch⟩ ∧ vm.flag name = true := by
  by_cases hkind : d.kind = .switch
  · obtain ⟨n, kind⟩ := d
    cases hkind
    rw [settingsFor_switch]
    by_cases hflag : vm.flag n = true
    · rw [if_pos hflag, List.mem_singleton]
      grind
    · rw [if_neg hflag]
      grind
  · rw [settingsFor_of_text hkind]
    grind

theorem count_flag_settingsFor :
    (settingsFor vm d).count (.flag name) ≤ if d.name = name then 1 else 0 := by
  by_cases hkind : d.kind = .switch
  · obtain ⟨n, kind⟩ := d
    cases hkind
    rw [settingsFor_switch]
    split <;> simp [List.count_cons]
  · have hnot : Setting.flag name ∉ settingsFor vm d := by
      rw [flag_mem_settingsFor]
      rintro ⟨rfl, -⟩
      exact hkind rfl
    rw [List.count_eq_zero_of_not_mem hnot]
    exact Nat.zero_le _

theorem count_flag_flatMap (hnames : (options.map Description.name).Nodup) :
    (options.flatMap (settingsFor vm)).count (.flag name) ≤ 1 := by
  induction options with
  | nil => simp
  | cons e options ih =>
    rw [List.map_cons, List.nodup_cons] at hnames
    have hhead : (settingsFor vm e).count (.flag name) ≤ if e.name = name then 1 else 0 := count_flag_settingsFor
    rw [List.flatMap_cons, List.count_append]
    by_cases heq : e.name = name
    · have hrest : Setting.flag name ∉ options.flatMap (settingsFor vm) := by
        intro hmem
        obtain ⟨d, hd, hflag⟩ := List.mem_flatMap.1 hmem
        obtain ⟨rfl, -⟩ := flag_mem_settingsFor.1 hflag
        exact hnames.1 (heq ▸ List.mem_map_of_mem hd)
      rw [if_pos heq] at hhead
      rw [List.count_eq_zero_of_not_mem hrest]
      exact hhead
    · rw [if_neg heq] at hhead
      have htail := ih hnames.2
      omega

theorem described_settingsFor (hd : d ∈ options) {s : Setting} (hs : s ∈ settingsFor vm d) : s.Described options := by
  obtain ⟨n, kind⟩ := d
  cases kind with
  | switch =>
    rw [settingsFor_switch] at hs
    split at hs
    · rw [List.mem_singleton.1 hs]
      exact hd
    · cases hs
  | value =>
    obtain ⟨text, -, rfl⟩ := List.mem_map.1 hs
    exact .inl hd
  | list =>
    obtain ⟨text, -, rfl⟩ := List.mem_map.1 hs
    exact .inr hd

/-- The settings for what is to be stored suit the command. -/
theorem Proper.suits (h : Proper options) (vm : VariablesMap) : Suits options (options.flatMap (settingsFor vm)) where
  described s hs := by
    obtain ⟨d, hd, hs⟩ := List.mem_flatMap.1 hs
    exact described_settingsFor hd hs
  once name hd := by
    rw [given_flatMap h.names hd]
    change (vm.value name).toList.length ≤ 1
    cases vm.value name <;> simp
  flagOnce name := count_flag_flatMap h.names

/-- Two maps store the same for the options of a command. -/
structure Agrees (options : List Description) (vm vm' : VariablesMap) : Prop where
  value : ∀ name, ⟨name, .value⟩ ∈ options → vm'.value name = vm.value name
  values : ∀ name, ⟨name, .list⟩ ∈ options → vm'.values name = vm.values name
  flag : ∀ name, ⟨name, .switch⟩ ∈ options → vm'.flag name = vm.flag name

/-- **Everything can be said on a command line.** -/
theorem LongOptions.exists_args {parse : CommandLineParser} (hparse : LongOptions parse) (h : Proper options)
    (vm : VariablesMap) : ∃ args vm', parse options args = .ok vm' ∧ Agrees options vm vm' := by
  obtain ⟨vm', hargs, hholds⟩ := hparse options _ h (h.suits vm)
  refine ⟨_, vm', hargs, ?_, ?_, ?_⟩
  · intro name hd
    rw [hholds.value name hd, given_flatMap h.names hd]
    change (vm.value name).toList.head? = vm.value name
    cases vm.value name <;> rfl
  · intro name hd
    rw [hholds.values name hd, given_flatMap h.names hd]
    rfl
  · intro name hd
    rw [hholds.flag name hd]
    have hiff : Setting.flag name ∈ options.flatMap (settingsFor vm) ↔ vm.flag name = true := by
      rw [List.mem_flatMap]
      constructor
      · rintro ⟨d, -, hflag⟩
        exact (flag_mem_settingsFor.1 hflag).2
      · intro hflag
        exact ⟨_, hd, flag_mem_settingsFor.2 ⟨rfl, hflag⟩⟩
    simp only [hiff, Bool.decide_eq_true]

end Writing

/-! ## A reader of long options -/

/-- The kind of the option with the name. -/
def kindOf (options : List Description) (name : List Char) : Option Kind :=
  (options.find? fun d => d.name = name).map Description.kind

/-- The settings in the tokens. -/
def scan (options : List Description) : List (List Char) → Except (List Char) (List Setting)
  | [] => .ok []
  | ('-' :: '-' :: body) :: rest =>
    match cut ['='] body with
    | some (name, text) =>
      if text = [] then .error "no value follows the equals sign".toList
      else if kindOf options name = some .value ∨ kindOf options name = some .list then
        (scan options rest).map (.value name text :: ·)
      else .error "unrecognised option".toList
    | none =>
      if kindOf options body = some .switch then (scan options rest).map (.flag body :: ·)
      else if kindOf options body = some .value ∨ kindOf options body = some .list then
        match rest with
        | [] => .error "the required argument is missing".toList
        | text :: rest => (scan options rest).map (.value body text :: ·)
      else .error "unrecognised option".toList
  | _ :: _ => .error "too many positional options".toList

/-- The settings as they are stored. -/
def store (settings : List Setting) : VariablesMap where
  value name := (given settings name).head?
  values name := given settings name
  flag name := decide (.flag name ∈ settings)

/-- The option is not given more often than it may be. -/
def isWithin (settings : List Setting) (d : Description) : Bool :=
  match d.kind with
  | .value => (given settings d.name).length ≤ 1
  | .list => true
  | .switch => settings.count (.flag d.name) ≤ 1

/-- Read the settings, and refuse what is given too often. -/
def parseLong : CommandLineParser := fun options tokens => do
  let settings ← scan options tokens
  if options.all (isWithin settings) then .ok (store settings)
  else .error "the option cannot be given more than once".toList

variable {options : List Description}

theorem Proper.kindOf_eq (h : Proper options) {d : Description} (hd : d ∈ options) :
    kindOf options d.name = some d.kind := by
  have hfind : options.find? (fun e => e.name = d.name) = some d := by
    obtain ⟨before, after, rfl⟩ := List.append_of_mem hd
    have hnames := h.names
    rw [List.map_append, List.map_cons, List.nodup_append] at hnames
    have hbefore : before.find? (fun e => e.name = d.name) = none := by
      rw [List.find?_eq_none]
      intro e he hname
      have hmem : e.name ∈ before.map Description.name := List.mem_map_of_mem he
      exact hnames.2.2 _ hmem _ List.mem_cons_self (of_decide_eq_true hname)
    rw [List.find?_append, hbefore, Option.none_or]
    exact List.find?_cons_of_pos (decide_eq_true rfl)
  rw [kindOf, hfind, Option.map_some]

/-- One setting is read from its tokens. -/
theorem Proper.scan_tokens (h : Proper options) {s : Setting} (hs : s.Described options)
    (rest : List (List Char)) : scan options (s.tokens ++ rest) = (scan options rest).map (s :: ·) := by
  cases s with
  | flag name =>
    have hkind : kindOf options name = some .switch := h.kindOf_eq hs
    have hcut : cut ['='] name = none := cut_singleton_none.2 (h.no_equals hs)
    rw [Setting.tokens, List.cons_append, List.nil_append, scan.eq_def]
    simp only [hcut]
    rw [if_pos hkind]
  | value name text =>
    have hkind : kindOf options name = some .value ∨ kindOf options name = some .list :=
      hs.imp h.kindOf_eq h.kindOf_eq
    have hplain : '=' ∉ name := hs.elim h.no_equals h.no_equals
    have hswitch : kindOf options name ≠ some .switch := by
      intro heq
      rcases hkind with hkind | hkind <;> simp [heq] at hkind
    cases text with
    | nil =>
      have hcut : cut ['='] name = none := cut_singleton_none.2 hplain
      simp only [Setting.tokens, List.cons_append, List.nil_append, scan, hcut]
      rw [if_neg hswitch, if_pos hkind]
    | cons c text =>
      have hcut : cut ['='] (name ++ '=' :: c :: text) = some (name, c :: text) := cut_singleton hplain
      rw [Setting.tokens, List.cons_append, List.nil_append, scan.eq_def]
      simp only [List.cons_append, hcut]
      rw [if_neg (List.cons_ne_nil c text), if_pos hkind]

theorem Proper.scan_settings (h : Proper options) {settings : List Setting}
    (hs : ∀ s ∈ settings, s.Described options) :
    scan options (settings.flatMap Setting.tokens) = .ok settings := by
  induction settings with
  | nil => rfl
  | cons s settings ih =>
    rw [List.flatMap_cons, h.scan_tokens (hs s List.mem_cons_self),
      ih fun t ht => hs t (List.mem_cons_of_mem _ ht)]
    rfl

theorem parseLong_longOptions : LongOptions parseLong := by
  intro options settings h hs
  have hwithin : options.all (isWithin settings) = true := by
    rw [List.all_eq_true]
    rintro ⟨name, kind⟩ hd
    cases kind with
    | value => exact decide_eq_true (hs.once name hd)
    | list => rfl
    | switch => exact decide_eq_true (hs.flagOnce name)
  refine ⟨store settings, ?_, ⟨fun _ _ => rfl, fun _ _ => rfl, fun _ _ => rfl⟩⟩
  simp only [parseLong, h.scan_settings hs.described, bind, Except.bind, if_pos hwithin]

end UrlShortener.Options

import UrlShortener.Spec.Json
import UrlShortener.Text.Case
import UrlShortener.Text.Labels

/-!
# Which hosts count as private

`isPrivateHost` compares texts: equal to a name, containing a suffix, beginning with a prefix. For a host made
of labels all these tests are tests on labels (`isPrivateHost_labels`).

* `ipv4_private_iff`: **on addresses in dotted decimal the tests are membership in the private blocks.**
* `public_name_iff`: a host name that is none of the reserved names is let through exactly when no test that is
  meant for another kind of host fires on it.
-/

namespace UrlShortener

open Text

/-! ## Hosts made of labels -/

/-- A letter, a digit or a hyphen. -/
def isLabelChar (c : Char) : Bool := c.isAlphanum || c == '-'

/-- The labels with dots between them. -/
def hostName (labels : List Str) : Str := ['.'].intercalate labels

/-- Every label is made of label characters. -/
def Labelled (labels : List Str) : Prop := ∀ l ∈ labels, l.all isLabelChar = true

instance (labels : List Str) : Decidable (Labelled labels) := List.decidableBAll _ labels

/-- The first octets of the private ranges that are tested. -/
def privateNets : List (List ℕ) :=
  [[127], [10], [192, 168], [169, 254]] ++ (List.range 16).map fun i => [172, 16 + i]

theorem privatePrefixes_eq : privatePrefixes =
    privateNets.map (fun net => hostName (net.map decimal) ++ ['.']) ++
      ["fc".toList, "fd".toList, "fe80:".toList] := by
  decide

theorem toLower_digit {c : Char} (h : c.isDigit = true) : c.toLower = c := by
  rcases toLower_cases c with hc | ⟨hc, -, -⟩
  · exact hc
  · simp only [Char.isDigit, Bool.and_eq_true, decide_eq_true_eq] at h
    have hle : c.toNat ≤ 57 := h.2
    omega

theorem isLabelChar_toLower {c : Char} (h : isLabelChar c = true) : isLabelChar c.toLower = true := by
  rcases toLower_cases c with hc | ⟨hlow, hhigh, hnat⟩
  · rw [hc]
    exact h
  · have halpha : c.toLower.isAlpha = true := by
      rw [isAlpha_iff]
      omega
    simp [isLabelChar, Char.isAlphanum, halpha]

/-! ### Characters and labels -/

section

variable {labels : List Str}

theorem Labelled.char (h : Labelled labels) {l : Str} (hl : l ∈ labels) {c : Char} (hc : c ∈ l) :
    isLabelChar c = true :=
  List.all_eq_true.1 (h l hl) c hc

theorem Labelled.toLower (h : Labelled labels) : Labelled (labels.map UrlShortener.toLower) := by
  intro l hl
  obtain ⟨l₀, hl₀, rfl⟩ := List.mem_map.1 hl
  refine List.all_eq_true.2 fun c hc => ?_
  obtain ⟨c₀, hc₀, rfl⟩ := List.mem_map.1 hc
  exact isLabelChar_toLower (h.char hl₀ hc₀)

theorem Labelled.no_dot (h : Labelled labels) : ∀ l ∈ labels, '.' ∉ l := by
  intro l hl hdot
  exact absurd (h.char hl hdot) (by decide)

/-- A host made of labels has no other character than those of labels and dots. -/
theorem Labelled.not_mem (h : Labelled labels) {c : Char} (hc : isLabelChar c = false) (hdot : c ≠ '.') :
    c ∉ hostName labels := by
  intro hmem
  rcases mem_intercalate hmem with rfl | ⟨l, hl, hcl⟩
  · exact hdot rfl
  · rw [h.char hl hcl] at hc
    cases hc

theorem Labelled.hostName_eq_iff (h : Labelled labels) (hne : labels ≠ []) {labels' : List Str}
    (h' : Labelled labels') (hne' : labels' ≠ []) : hostName labels = hostName labels' ↔ labels = labels' := by
  refine ⟨fun heq => ?_, fun heq => by rw [heq]⟩
  rw [← List.splitOn_intercalate '.' h.no_dot hne, ← List.splitOn_intercalate '.' h'.no_dot hne']
  exact congrArg (List.splitOn '.') heq

end

/-- Which lists of labels, in lower case, the tests fire on. -/
def PrivateLabels (labels : List Str) : Prop :=
  labels ∈ [["localhost".toList], ["0".toList, "0".toList, "0".toList, "0".toList], ["internal".toList],
      ["localhost", "localdomain"]] ∨
    (∃ l ∈ labels.tail, "internal" <+: l ∨ "local" <+: l) ∨
    (∃ net ∈ privateNets, net.map decimal <+: labels ∧ net.length < labels.length) ∨
    ∃ l ∈ labels.head?, "fc" <+: l ∨ "fd" <+: l

theorem toLower_hostName (labels : List Str) : toLower (hostName labels) = hostName (labels.map toLower) :=
  map_intercalate Char.toLower '.' labels

theorem startsWith_iff {s pfx : Str} : startsWith s pfx = true ↔ pfx <+: s := List.isPrefixOf_iff_prefix

/-- The tests of `isPrivateHost`, one after the other. -/
theorem isPrivateHost_iff (host : Str) :
    isPrivateHost host = true ↔
      toLower host ∈ ["localhost".toList, "::1".toList, "::".toList, "0.0.0.0".toList, "[::1]".toList,
          "[::]".toList] ∨
        (toLower host = "internal".toList ∨ toLower host = "localhost.localdomain".toList ∨
          ".internal".toList <:+: toLower host ∨ ".local".toList <:+: toLower host) ∨
        effectiveHost (toLower host) = "localhost".toList ∨ effectiveHost (toLower host) = "::1".toList ∨
        privatePrefixes.any (startsWith (effectiveHost (toLower host))) = true := by
  unfold isPrivateHost
  simp only [← contains_iff]
  split
  case isTrue hname => exact iff_of_true rfl (.inl (List.contains_iff_mem.1 hname))
  case isFalse hname =>
    split
    case isTrue hsuffix => exact iff_of_true rfl (.inr (.inl hsuffix))
    case isFalse hsuffix =>
      rw [List.contains_iff_mem] at hname
      simp only [hname, hsuffix, false_or, Bool.or_eq_true, beq_iff_eq, or_assoc]

section

variable {labels : List Str}

theorem labelled_decimal (net : List ℕ) : Labelled (net.map decimal) := by
  intro l hl
  obtain ⟨n, -, rfl⟩ := List.mem_map.1 hl
  refine List.all_eq_true.2 fun c hc => ?_
  have hdigit : c.isDigit = true := Nat.isDigit_of_mem_toDigits (by decide) (by decide) hc
  simp [isLabelChar, Char.isAlphanum, hdigit]

/-- The prefix tests, on labels. -/
theorem any_privatePrefixes (h : Labelled labels) :
    privatePrefixes.any (startsWith (hostName labels)) = true ↔
      (∃ net ∈ privateNets, net.map decimal <+: labels ∧ net.length < labels.length) ∨
        ∃ l ∈ labels.head?, "fc".toList <+: l ∨ "fd".toList <+: l := by
  have hnet : ∀ net ∈ privateNets, startsWith (hostName labels) (hostName (net.map decimal) ++ ['.']) = true ↔
      net.map decimal <+: labels ∧ net.length < labels.length := by
    intro net hmem
    have hne : net.map decimal ≠ [] := by
      rw [ne_eq, List.map_eq_nil_iff]
      rintro rfl
      exact absurd hmem (by decide)
    rw [startsWith_iff, hostName, hostName, intercalate_prefix (labelled_decimal net).no_dot h.no_dot hne,
      List.length_map]
  have hword : ∀ p : Str, '.' ∉ p → p ≠ [] → (startsWith (hostName labels) p = true ↔ ∃ l ∈ labels.head?, p <+: l) := by
    intro p hp hne
    rw [startsWith_iff]
    cases labels with
    | nil => simp [hostName, hne]
    | cons l ls => simp [hostName, prefix_intercalate hp]
  -- no label holds a colon
  have hcolon : ¬startsWith (hostName labels) "fe80:".toList = true := by
    intro hleads
    have hmem : ':' ∈ hostName labels := (startsWith_iff.1 hleads).subset (by decide)
    exact h.not_mem (by decide) (by decide) hmem
  rw [privatePrefixes_eq, List.any_append, Bool.or_eq_true, List.any_map, List.any_eq_true]
  refine or_congr (exists_congr fun net => and_congr_right fun hmem => hnet net hmem) ?_
  simp only [List.any_cons, List.any_nil, Bool.or_false, Bool.or_eq_true, hword _ (by decide : '.' ∉ "fc".toList)
    (by decide), hword _ (by decide : '.' ∉ "fd".toList) (by decide), hcolon]
  constructor
  · rintro (⟨l, hl, hp⟩ | ⟨l, hl, hp⟩)
    · exact ⟨l, hl, .inl hp⟩
    · exact ⟨l, hl, .inr hp⟩
  · rintro ⟨l, hl, hp | hp⟩
    · exact .inl ⟨l, hl, hp⟩
    · exact .inr ⟨l, hl, hp⟩

/-- The names that are compared, as lists of labels. -/
theorem Labelled.names_iff (h : Labelled labels) (hne : labels ≠ []) :
    hostName labels ∈ ["localhost".toList, "0.0.0.0".toList, "internal".toList, "localhost.localdomain".toList] ↔
      labels ∈ [["localhost".toList], ["0".toList, "0".toList, "0".toList, "0".toList], ["internal".toList],
        ["localhost".toList, "localdomain".toList]] := by
  have heq : ∀ labels' : List Str, Labelled labels' → labels' ≠ [] →
      (hostName labels = hostName labels' ↔ labels = labels') :=
    fun labels' h' hne' => h.hostName_eq_iff hne h' hne'
  have h1 := heq ["localhost".toList] (by decide) (by decide)
  have h2 := heq ["0".toList, "0".toList, "0".toList, "0".toList] (by decide) (by decide)
  have h3 := heq ["internal".toList] (by decide) (by decide)
  have h4 := heq ["localhost".toList, "localdomain".toList] (by decide) (by decide)
  simp only [List.mem_cons, List.not_mem_nil, or_false, ← h1, ← h2, ← h3, ← h4]
  rfl

/-- The words that are searched for, as beginnings of labels. -/
theorem Labelled.words_iff (h : Labelled labels) :
    (∃ l ∈ labels.tail, "internal" <+: l ∨ "local" <+: l) ↔
      ".internal" <:+: hostName labels ∨ ".local" <:+: hostName labels := by
  have hinternal : ".internal" <:+: hostName labels ↔ ∃ l ∈ labels.tail, "internal" <+: l :=
    cons_infix_intercalate (by decide) h.no_dot
  have hlocal : ".local" <:+: hostName labels ↔ ∃ l ∈ labels.tail, "local" <+: l :=
    cons_infix_intercalate (by decide) h.no_dot
  rw [hinternal, hlocal]
  simp only [and_or_left, exists_or]

/-- There are no brackets to remove. -/
theorem Labelled.effectiveHost_eq (h : Labelled labels) : effectiveHost (hostName labels) = hostName labels := by
  have hopen : '[' ∉ hostName labels := h.not_mem (by decide) (by decide)
  refine if_neg fun hbrackets => hopen ?_
  exact List.mem_of_mem_head? hbrackets.2.1

/-- **For a host made of labels the tests are tests on labels.** -/
theorem isPrivateHost_labels (h : Labelled labels) (hne : labels ≠ []) :
    isPrivateHost (hostName labels) = true ↔ PrivateLabels (labels.map toLower) := by
  have hlow := h.toLower
  have hlowne : labels.map toLower ≠ [] := by simpa using hne
  have hcolon : ':' ∉ hostName (labels.map toLower) := hlow.not_mem (by decide) (by decide)
  have hnot : ∀ {t : Str}, ':' ∈ t → hostName (labels.map toLower) ≠ t := by
    rintro t ht rfl
    exact hcolon ht
  rw [isPrivateHost_iff, toLower_hostName, hlow.effectiveHost_eq, any_privatePrefixes hlow, PrivateLabels,
    ← hlow.names_iff hlowne, hlow.words_iff]
  simp only [List.mem_cons, List.not_mem_nil, or_false, false_or,
    hnot (by decide : ':' ∈ "::1".toList), hnot (by decide : ':' ∈ "::".toList),
    hnot (by decide : ':' ∈ "[::1]".toList), hnot (by decide : ':' ∈ "[::]".toList)]
  -- the same tests in another order, `localhost` once more
  constructor
  · rintro ((h | h) | (h | h | h) | h | h)
    · exact .inl (.inl h)
    · exact .inl (.inr (.inl h))
    · exact .inl (.inr (.inr (.inl h)))
    · exact .inl (.inr (.inr (.inr h)))
    · exact .inr (.inl h)
    · exact .inl (.inl h)
    · exact .inr (.inr h)
  · rintro ((h | h | h | h) | h | h)
    · exact .inl (.inl h)
    · exact .inl (.inr h)
    · exact .inr (.inl (.inl h))
    · exact .inr (.inl (.inr (.inl h)))
    · exact .inr (.inl (.inr (.inr h)))
    · exact .inr (.inr (.inr h))

end

/-! ## Addresses in dotted decimal -/

/-- An IPv4 address: its octets, the first one first. -/
structure Ipv4 where
  a : Fin 256
  b : Fin 256
  c : Fin 256
  d : Fin 256
  deriving DecidableEq

namespace Ipv4

/-- Canonical dotted decimal. -/
def dotted (addr : Ipv4) : Str := hostName ([addr.a.val, addr.b.val, addr.c.val, addr.d.val].map decimal)

/-- The address as a number of 32 bits. -/
def toNat (addr : Ipv4) : ℕ := addr.a * 2 ^ 24 + addr.b * 2 ^ 16 + addr.c * 2 ^ 8 + addr.d

end Ipv4

/-- A block of addresses: those that agree with `base` in their first `len` bits. -/
structure Cidr where
  base : Ipv4
  len : ℕ

/-- The address is in the block. -/
def Cidr.Contains (block : Cidr) (addr : Ipv4) : Prop :=
  addr.toNat / 2 ^ (32 - block.len) = block.base.toNat / 2 ^ (32 - block.len)

instance (block : Cidr) (addr : Ipv4) : Decidable (block.Contains addr) := inferInstanceAs (Decidable (_ = _))

/-- `127.0.0.0/8`, `10.0.0.0/8`, `192.168.0.0/16`, `169.254.0.0/16` and `172.16.0.0/12`. -/
def privateBlocks : List Cidr :=
  [⟨⟨127, 0, 0, 0⟩, 8⟩, ⟨⟨10, 0, 0, 0⟩, 8⟩, ⟨⟨192, 168, 0, 0⟩, 16⟩, ⟨⟨169, 254, 0, 0⟩, 16⟩, ⟨⟨172, 16, 0, 0⟩, 12⟩]

theorem decimal_injective : Function.Injective decimal := by
  intro m n h
  have hm : Nat.ofDigitChars 10 (decimal m) 0 = m := Nat.ofDigitChars_ten_toDigits
  have hn : Nat.ofDigitChars 10 (decimal n) 0 = n := Nat.ofDigitChars_ten_toDigits
  rw [← hm, h, hn]

theorem decimal_isDigit {n : ℕ} {c : Char} (h : c ∈ decimal n) : c.isDigit = true :=
  Nat.isDigit_of_mem_toDigits (by decide) (by decide) h

theorem toLower_decimal (n : ℕ) : toLower (decimal n) = decimal n := by
  have hself : ∀ c ∈ decimal n, c.toLower = c := fun c hc => toLower_digit (decimal_isDigit hc)
  rw [toLower, List.map_congr_left hself, List.map_id']

/-- A word that begins with no digit is no prefix of a number. -/
theorem not_prefix_decimal {c : Char} (hc : c.isDigit = false) (w : Str) (n : ℕ) : ¬c :: w <+: decimal n := by
  intro h
  have hdigit := decimal_isDigit (h.subset List.mem_cons_self)
  rw [hc] at hdigit
  cases hdigit

theorem map_toLower_decimal (ns : List ℕ) : (ns.map decimal).map toLower = ns.map decimal := by
  rw [List.map_map]
  exact List.map_congr_left fun n _ => toLower_decimal n

/-- Numbers as labels: only the tests for zero and for the private ranges can fire. -/
theorem privateLabels_decimal (ns : List ℕ) :
    PrivateLabels (ns.map decimal) ↔
      ns = [0, 0, 0, 0] ∨ ∃ net ∈ privateNets, net <+: ns ∧ net.length < ns.length := by
  have hword : ∀ {c : Char} (w : Str), c.isDigit = false → ∀ l ∈ ns.map decimal, ¬c :: w <+: l := by
    intro c w hc l hl
    obtain ⟨n, -, rfl⟩ := List.mem_map.1 hl
    exact not_prefix_decimal hc w n
  have hzero : ["0".toList, "0".toList, "0".toList, "0".toList] = [0, 0, 0, 0].map decimal := by decide
  have hnames : ns.map decimal ∈ [["localhost".toList], ["0".toList, "0".toList, "0".toList, "0".toList],
      ["internal".toList], ["localhost".toList, "localdomain".toList]] ↔ ns = [0, 0, 0, 0] := by
    have hlocalhost : ∀ rest, ns.map decimal ≠ "localhost".toList :: rest := by
      intro rest heq
      exact hword "ocalhost".toList (by decide) "localhost".toList (by rw [heq]; simp) List.prefix_rfl
    have hinternal : ns.map decimal ≠ ["internal".toList] := by
      intro heq
      exact hword "nternal".toList (by decide) "internal".toList (by rw [heq]; simp) List.prefix_rfl
    rw [hzero]
    simp only [List.mem_cons, List.not_mem_nil, or_false, hlocalhost, hinternal, false_or]
    exact (List.map_injective_iff.2 decimal_injective).eq_iff
  have htail : ¬∃ l ∈ (ns.map decimal).tail, "internal".toList <+: l ∨ "local".toList <+: l := by
    rintro ⟨l, hl, h | h⟩
    · exact hword _ (by decide) l (List.mem_of_mem_tail hl) h
    · exact hword _ (by decide) l (List.mem_of_mem_tail hl) h
  have hhead : ¬∃ l ∈ (ns.map decimal).head?, "fc".toList <+: l ∨ "fd".toList <+: l := by
    rintro ⟨l, hl, h | h⟩
    · exact hword _ (by decide) l (List.mem_of_mem_head? hl) h
    · exact hword _ (by decide) l (List.mem_of_mem_head? hl) h
  simp only [PrivateLabels, hnames, htail, hhead, false_or, or_false, List.length_map,
    List.prefix_map_iff_of_injective decimal_injective]

/-- The private nets by their first two octets. -/
def InPrivateNet (a b : ℕ) : Prop :=
  a = 127 ∨ a = 10 ∨ a = 192 ∧ b = 168 ∨ a = 169 ∧ b = 254 ∨ a = 172 ∧ 16 ≤ b ∧ b ≤ 31

instance (a b : ℕ) : Decidable (InPrivateNet a b) := inferInstanceAs (Decidable (_ ∨ _))

theorem privateNets_iff (a b c d : ℕ) :
    (∃ net ∈ privateNets, net <+: [a, b, c, d] ∧ net.length < [a, b, c, d].length) ↔ InPrivateNet a b := by
  simp only [privateNets, List.mem_append, List.mem_cons, List.not_mem_nil, or_false, List.mem_map, List.mem_range,
    or_and_right, exists_or, exists_eq_left, exists_exists_and_eq_and, List.cons_prefix_cons, List.nil_prefix,
    List.length_cons, List.length_nil, and_true, InPrivateNet]
  constructor
  · rintro ((⟨h, -⟩ | ⟨h, -⟩ | ⟨h, -⟩ | ⟨h, -⟩) | ⟨i, hi, h, -⟩) <;> omega
  · rintro (h | h | h | h | h)
    · exact .inl (.inl ⟨h.symm, by decide⟩)
    · exact .inl (.inr (.inl ⟨h.symm, by decide⟩))
    · exact .inl (.inr (.inr (.inl ⟨⟨h.1.symm, h.2.symm⟩, by decide⟩)))
    · exact .inl (.inr (.inr (.inr ⟨⟨h.1.symm, h.2.symm⟩, by decide⟩)))
    · exact .inr ⟨b - 16, by omega, ⟨by omega, by omega⟩, by decide⟩

theorem privateBlocks_iff (addr : Ipv4) :
    (∃ block ∈ privateBlocks, block.Contains addr) ↔ InPrivateNet addr.a.val addr.b.val := by
  obtain ⟨a, b, c, d⟩ := addr
  have hb := b.isLt
  have hc := c.isLt
  have hd := d.isLt
  have h8 : ∀ n : ℕ, (Ipv4.mk a b c d).toNat / 2 ^ 24 = n ↔ a.val = n := by
    intro n
    simp only [Ipv4.toNat]
    omega
  have h16 : ∀ m n : ℕ, n < 256 → ((Ipv4.mk a b c d).toNat / 2 ^ 16 = m * 256 + n ↔ a.val = m ∧ b.val = n) := by
    intro m n hn
    simp only [Ipv4.toNat]
    omega
  have h12 : (Ipv4.mk a b c d).toNat / 2 ^ 20 = 172 * 16 + 1 ↔ a.val = 172 ∧ 16 ≤ b.val ∧ b.val ≤ 31 := by
    simp only [Ipv4.toNat]
    omega
  rw [privateBlocks, List.exists_mem_cons_iff, List.exists_mem_cons_iff, List.exists_mem_cons_iff,
    List.exists_mem_cons_iff, List.exists_mem_cons_iff]
  exact or_congr (h8 127) (or_congr (h8 10) (or_congr (h16 192 168 (by decide))
    (or_congr (h16 169 254 (by decide)) ((or_iff_left (by simp)).trans h12))))

theorem octets_zero_iff (a b c d : Fin 256) :
    [a.val, b.val, c.val, d.val] = [0, 0, 0, 0] ↔ (⟨a, b, c, d⟩ : Ipv4) = ⟨0, 0, 0, 0⟩ := by
  constructor
  · intro h
    simp only [List.cons.injEq, and_true] at h
    obtain ⟨ha0, hb0, hc0, hd0⟩ := h
    obtain rfl : a = 0 := Fin.ext ha0
    obtain rfl : b = 0 := Fin.ext hb0
    obtain rfl : c = 0 := Fin.ext hc0
    obtain rfl : d = 0 := Fin.ext hd0
    rfl
  · intro h
    cases h
    rfl

/-- The textual tests on dotted decimal. -/
theorem isPrivateHost_dotted (addr : Ipv4) :
    isPrivateHost addr.dotted = true ↔ InPrivateNet addr.a.val addr.b.val ∨ addr = ⟨0, 0, 0, 0⟩ := by
  obtain ⟨a, b, c, d⟩ := addr
  rw [Ipv4.dotted, isPrivateHost_labels (labelled_decimal _) (by simp), map_toLower_decimal,
    privateLabels_decimal, privateNets_iff, octets_zero_iff]
  exact or_comm

/-- **Private addresses in dotted decimal.** The textual tests are membership in the private blocks, or the
address `0.0.0.0`. -/
theorem ipv4_private_iff (addr : Ipv4) :
    isPrivateHost addr.dotted = true ↔
      (∃ block ∈ privateBlocks, block.Contains addr) ∨ addr = ⟨0, 0, 0, 0⟩ := by
  rw [privateBlocks_iff]
  exact isPrivateHost_dotted addr

/-! ## Host names -/

/-- A host name: dot-separated labels that are not empty, the last one with a letter. -/
structure DnsName where
  labels : List Str
  nonempty : labels ≠ []
  labelled : Labelled labels
  label_ne : [] ∉ labels
  letter : (labels.getLast nonempty).any Char.isAlpha = true

namespace DnsName

variable (name : DnsName)

/-- The name as it is written. -/
def text : Str := hostName name.labels

/-- **The names and suffixes that are reserved for local networks**, ignoring case. -/
def Reserved : Prop :=
  toLower name.text ∈ ["localhost".toList, "localhost.localdomain".toList, "internal".toList] ∨
    toLower (name.labels.getLast name.nonempty) ∈ ["internal".toList, "local".toList]

/-- Nothing in the name reads, ignoring case, like a part of another kind of host: a later label like the begin
of a reserved suffix, the first label like an IPv6 prefix, or the first labels like a private IPv4 range. -/
structure Plain : Prop where
  later : ∀ l ∈ name.labels.tail, ¬"internal" <+: toLower l ∧ ¬"local" <+: toLower l
  first : ∀ l ∈ name.labels.head?, ¬"fc" <+: toLower l ∧ ¬"fd" <+: toLower l
  numbers : ∀ net ∈ privateNets, ¬net.map decimal <+: name.labels.map toLower

end DnsName

theorem not_isDigit_toLower {c : Char} (h : c.isAlpha = true) : c.toLower.isDigit = false := by
  by_contra hdigit
  rw [Bool.not_eq_false, Char.isDigit, Bool.and_eq_true, decide_eq_true_eq, decide_eq_true_eq] at hdigit
  have hle : c.toLower.toNat ≤ 57 := hdigit.2
  rw [isAlpha_iff] at h
  rcases toLower_cases c with hc | ⟨-, -, hc⟩
  · rw [hc] at hle
    omega
  · omega

/-- The last label is no number. -/
theorem DnsName.labels_ne_decimal (name : DnsName) (ns : List ℕ) : name.labels.map toLower ≠ ns.map decimal := by
  intro heq
  obtain ⟨c, hc, halpha⟩ := List.any_eq_true.1 name.letter
  have hmem : toLower (name.labels.getLast name.nonempty) ∈ ns.map decimal := by
    rw [← heq]
    exact List.mem_map_of_mem (List.getLast_mem name.nonempty)
  obtain ⟨n, -, hn⟩ := List.mem_map.1 hmem
  have hdigit : c.toLower.isDigit = true := decimal_isDigit (n := n) (by rw [hn]; exact List.mem_map_of_mem hc)
  rw [not_isDigit_toLower halpha] at hdigit
  cases hdigit

/-- **When a public name is let through**: a host name that counts as private is a reserved one exactly if it is
reserved anyway or nothing in it reads like another kind of host. -/
theorem public_name_iff (name : DnsName) :
    (isPrivateHost name.text = true → name.Reserved) ↔ name.Reserved ∨ name.Plain := by
  have hprivate : isPrivateHost name.text = true ↔ PrivateLabels (name.labels.map toLower) :=
    isPrivateHost_labels name.labelled name.nonempty
  constructor
  · intro hclaim
    by_cases hreserved : name.Reserved
    · exact .inl hreserved
    -- none of the tests fires
    have hnot : ¬PrivateLabels (name.labels.map toLower) := fun h => hreserved (hclaim (hprivate.2 h))
    simp only [PrivateLabels, not_or] at hnot
    obtain ⟨-, hlater, hnets, hfirst⟩ := hnot
    refine .inr ⟨fun l hl => ?_, fun l hl => ?_, fun net hnet hleads => ?_⟩
    · have hmem : toLower l ∈ (name.labels.map toLower).tail := by
        rw [← List.map_tail]
        exact List.mem_map_of_mem hl
      exact ⟨fun h => hlater ⟨_, hmem, .inl h⟩, fun h => hlater ⟨_, hmem, .inr h⟩⟩
    · have hmem : toLower l ∈ (name.labels.map toLower).head? := by
        rw [List.head?_map, Option.mem_def.1 hl]
        rfl
      exact ⟨fun h => hfirst ⟨_, hmem, .inl h⟩, fun h => hfirst ⟨_, hmem, .inr h⟩⟩
    · -- a net is followed by a dot, since the last label is no number
      refine hnets ⟨net, hnet, hleads, ?_⟩
      by_contra hlength
      rw [List.length_map] at hlength
      have hle : (name.labels.map toLower).length ≤ (net.map decimal).length := by
        rw [List.length_map, List.length_map]
        omega
      exact name.labels_ne_decimal net (hleads.eq_of_length_le hle).symm
  · rintro (hreserved | hplain) hhost
    · exact hreserved
    rcases hprivate.1 hhost with hname | ⟨l, hl, hword⟩ | ⟨net, hnet, hleads, -⟩ | ⟨l, hl, hword⟩
    · have htext : toLower name.text = hostName (name.labels.map toLower) := toLower_hostName name.labels
      simp only [List.mem_cons, List.not_mem_nil, or_false] at hname
      rcases hname with h | h | h | h
      · exact .inl (by rw [htext, h]; decide)
      · exact absurd h (name.labels_ne_decimal [0, 0, 0, 0])
      · exact .inl (by rw [htext, h]; decide)
      · exact .inl (by rw [htext, h]; decide)
    · rw [← List.map_tail] at hl
      obtain ⟨l₀, hl₀, rfl⟩ := List.mem_map.1 hl
      exact (hword.elim (hplain.later l₀ hl₀).1 (hplain.later l₀ hl₀).2).elim
    · exact absurd hleads (hplain.numbers net hnet)
    · rw [List.head?_map] at hl
      obtain ⟨l₀, hl₀, rfl⟩ := Option.map_eq_some_iff.1 hl
      exact (hword.elim (hplain.first l₀ hl₀).1 (hplain.first l₀ hl₀).2).elim

/-- `fc2.com`. -/
def fcName : DnsName where
  labels := ["fc2", "com"]
  nonempty := by decide
  labelled := by decide
  label_ne := by decide
  letter := by decide

/-- A public name that begins like a unique local IPv6 address counts as private. -/
theorem fc_name_private : isPrivateHost fcName.text = true ∧ ¬fcName.Reserved := by
  refine ⟨by decide, ?_⟩
  rintro (h | h)
  · exact absurd h (by decide)
  · exact absurd h (by decide)

end UrlShortener

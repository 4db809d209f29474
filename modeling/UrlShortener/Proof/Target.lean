import UrlShortener.Proof.Hosts

/-!
# Hosts of accepted targets

`rfcHost` reads the host of a URL as RFC 3986 does: a bracketed literal whole, otherwise the authority
up to its port. `isPrivateLiteral` reads an address literal for what it denotes, in whichever of its spellings.

* `normalizeTargetUrl_iff`: what `normalizeTargetUrl` returns, in terms of the parts of its input.
* `target_host_public_iff`: **with private targets refused, the host of an accepted URL is public exactly
  when the input does not begin its authority with a private literal in brackets.** The check cuts the
  authority at its first colon, so it never sees such a literal whole.
-/

namespace UrlShortener

open Text

/-! ## The host as RFC 3986 reads it -/

/-- What stands between `://` and the next delimiter. -/
def urlAuthority (url : Str) : Str :=
  match cut "://" url with
  | none => []
  | some (_, rest) => rest.takeWhile isAuthorityChar

/-- The bracketed literal an authority begins with. -/
def bracketLiteral (authority : Str) : Option Str :=
  if authority.head? = some '[' then (cut [']'] authority).map fun p => p.1 ++ [']'] else none

/-- The host by RFC 3986. -/
def rfcHost (url : Str) : Str :=
  (bracketLiteral (urlAuthority url)).getD (splitAuthority (urlAuthority url)).1

/-! ## Address literals

The addresses that literals denote, read as RFC 4291 writes them; hexadecimal digits are in lower case here. -/

/-- A number below 256 without leading zeros. -/
def readOctet (part : Str) : Option (Fin 256) :=
  let n := Nat.ofDigitChars 10 part 0
  if h : n < 256 ∧ decimal n = part then some ⟨n, h.1⟩ else none

/-- An IPv4 address in dotted decimal. -/
def readIpv4 (text : Str) : Option Ipv4 :=
  match text.splitOn '.' with
  | [a, b, c, d] =>
    (readOctet a).bind fun a => (readOctet b).bind fun b => (readOctet c).bind fun c =>
      (readOctet d).map fun d => ⟨a, b, c, d⟩
  | _ => none

/-- The value of a hexadecimal digit. -/
def hexValue (c : Char) : Option ℕ :=
  if c.isDigit then some (c.toNat - 48) else if 'a' ≤ c ∧ c ≤ 'f' then some (c.toNat - 87) else none

/-- A group of up to four hexadecimal digits. -/
def readGroup (part : Str) : Option ℕ :=
  if part ≠ [] ∧ part.length ≤ 4 then part.foldlM (fun n c => (hexValue c).map (16 * n + ·)) 0 else none

/-- The groups up to the end of an address, where an IPv4 address may stand for the last two. -/
def readLastGroups : List Str → Option (List ℕ)
  | [] => some []
  | [part] =>
    ((readGroup part).map fun g => [g]).or
      ((readIpv4 part).map fun addr => [256 * addr.a.val + addr.b.val, 256 * addr.c.val + addr.d.val])
  | part :: parts => (readGroup part).bind fun g => (readLastGroups parts).map (g :: ·)

/-- An IPv6 address as a number of 128 bits: eight groups, or fewer with `::` for groups of zeros. -/
def readIpv6 (text : Str) : Option ℕ :=
  let address (groups : List ℕ) : ℕ := groups.foldl (fun n g => 65536 * n + g) 0
  match cut "::" text with
  | none =>
    (readLastGroups (text.splitOn ':')).bind fun groups => if groups.length = 8 then some (address groups) else none
  | some (left, right) =>
    (if left = [] then some [] else (left.splitOn ':').mapM readGroup).bind fun front =>
      (if right = [] then some [] else readLastGroups (right.splitOn ':')).bind fun back =>
        if front.length + back.length < 8 then
          some (address (front ++ List.replicate (8 - front.length - back.length) 0 ++ back))
        else none

/-- The loopback address, the unique local addresses `fc00::/7`, the link-local ones `fe80::/10`, and the private
addresses of IPv4 that are mapped to `::ffff:0:0/96`. -/
def PrivateIpv6 (addr : ℕ) : Prop :=
  addr = 1 ∨ addr / 2 ^ 121 = 0x7e ∨ addr / 2 ^ 118 = 0x3fa ∨
    addr / 2 ^ 32 = 0xffff ∧ InPrivateNet (addr / 2 ^ 24 % 256) (addr / 2 ^ 16 % 256)

instance (addr : ℕ) : Decidable (PrivateIpv6 addr) := inferInstanceAs (Decidable (_ ∨ _))

/-- **A literal of a private address**: in dotted decimal a loopback, RFC 1918 or link-local one, and in brackets an
IPv6 address, perhaps with a zone. -/
def isPrivateLiteral (host : Str) : Bool :=
  match toLower host with
  | '[' :: rest =>
    rest.getLast? == some ']' && (readIpv6 (rest.dropLast.takeWhile (· != '%'))).any fun addr => PrivateIpv6 addr
  | text => (readIpv4 text).any fun addr => InPrivateNet addr.a addr.b

theorem readOctet_some {part : Str} {n : Fin 256} (h : readOctet part = some n) : decimal n.val = part := by
  unfold readOctet at h
  simp only at h
  split at h
  · rename_i hpart
    cases h
    exact hpart.2
  · cases h

/-- What is read as an IPv4 address is its dotted decimal. -/
theorem readIpv4_some {text : Str} {addr : Ipv4} (h : readIpv4 text = some addr) : text = addr.dotted := by
  have hjoin : hostName (text.splitOn '.') = text := List.intercalate_splitOn _
  unfold readIpv4 at h
  split at h
  · rename_i a b c d hsplit
    obtain ⟨a', ha, h⟩ := Option.bind_eq_some_iff.1 h
    obtain ⟨b', hb, h⟩ := Option.bind_eq_some_iff.1 h
    obtain ⟨c', hc, h⟩ := Option.bind_eq_some_iff.1 h
    obtain ⟨d', hd, rfl⟩ := Option.map_eq_some_iff.1 h
    rw [← hjoin, hsplit, ← readOctet_some ha, ← readOctet_some hb, ← readOctet_some hc, ← readOctet_some hd]
    rfl
  · cases h

/-! ## Case -/

theorem toLower_append (s t : Str) : toLower (s ++ t) = toLower s ++ toLower t := List.map_append

theorem toLower_idem (s : Str) : toLower (toLower s) = toLower s := by
  rw [toLower, toLower, List.map_map]
  refine List.map_congr_left fun c _ => ?_
  rcases toLower_cases c with h | ⟨hge, -, h⟩
  · simp only [Function.comp_apply, h]
  · rcases toLower_cases c.toLower with h' | ⟨-, h', -⟩
    · exact h'
    · omega

theorem mem_toLower {c : Char} (hc : c.toNat < 65 ∨ 90 < c.toNat ∧ c.toNat < 97 ∨ 122 < c.toNat) {s : Str} :
    c ∈ toLower s ↔ c ∈ s := by
  simp [toLower, toLower_eq_iff hc]

/-- Only the case of the host is lost by `isPrivateHost`. -/
theorem isPrivateHost_congr {s t : Str} (h : toLower s = toLower t) : isPrivateHost s = isPrivateHost t := by
  unfold isPrivateHost
  rw [h]

theorem isPrivateLiteral_congr {s t : Str} (h : toLower s = toLower t) : isPrivateLiteral s = isPrivateLiteral t := by
  unfold isPrivateLiteral
  rw [h]

/-- A private literal counts as private, unless it is in brackets. -/
theorem isPrivateHost_of_literal {host : Str} (h : isPrivateLiteral host = true) :
    isPrivateHost host = true ∨ (toLower host).head? = some '[' ∧ ']' ∈ toLower host := by
  unfold isPrivateLiteral at h
  split at h
  · rename_i rest heq
    rw [heq]
    obtain ⟨hlast, -⟩ := Bool.and_eq_true_iff.1 h
    exact .inr ⟨rfl, List.mem_cons_of_mem _ (List.mem_of_getLast? (beq_iff_eq.1 hlast))⟩
  · obtain ⟨addr, hread, hprivate⟩ := (Option.any_eq_true _ _).1 h
    have hdotted := (isPrivateHost_dotted addr).2 (.inl (of_decide_eq_true hprivate))
    rw [← readIpv4_some hread] at hdotted
    exact .inl ((isPrivateHost_congr (toLower_idem host)).symm.trans hdotted)

theorem cut_toLower {c : Char} (hc : c.toNat < 65 ∨ 90 < c.toNat ∧ c.toNat < 97 ∨ 122 < c.toNat) (s : Str) :
    cut [c] (toLower s) = (cut [c] s).map fun p => (toLower p.1, toLower p.2) := by
  cases hcut : cut [c] s with
  | none =>
    rw [cut_singleton_none] at hcut
    rw [cut_singleton_none.2 (mt (mem_toLower hc).1 hcut)]
    rfl
  | some p =>
    obtain ⟨a, b⟩ := p
    have hs := cut_eq hcut
    have ha : c ∉ a := cut_singleton_not_mem hcut
    have hlow : c.toLower = c := (toLower_eq_iff hc).2 rfl
    rw [hs, toLower_append, toLower_append, show toLower [c] = [c] by simp [toLower, hlow], List.append_assoc]
    exact cut_singleton (mt (mem_toLower hc).1 ha)

theorem bracketLiteral_toLower (s : Str) : bracketLiteral (toLower s) = (bracketLiteral s).map toLower := by
  have hopen : (toLower s).head? = some '[' ↔ s.head? = some '[' := by
    cases s with
    | nil => simp [toLower]
    | cons c s => simp [toLower, toLower_eq_iff (d := '[') (by decide)]
  unfold bracketLiteral
  rw [cut_toLower (by decide)]
  simp only [hopen]
  split
  · cases cut [']'] s with
    | none => rfl
    | some p => simp [toLower]
  · rfl

theorem bracketLiteral_isSome {s : Str} (hopen : s.head? = some '[') (hclose : ']' ∈ s) : bracketLiteral s ≠ none := by
  intro hnone
  rw [bracketLiteral, if_pos hopen, Option.map_eq_none_iff] at hnone
  exact cut_singleton_none.1 hnone hclose

/-- What follows an authority without a closing bracket does not matter. -/
theorem bracketLiteral_append {s t : Str} (hs : s ≠ []) (ht : ']' ∉ t) :
    bracketLiteral (s ++ t) = bracketLiteral s := by
  unfold bracketLiteral
  rw [List.head?_append_of_ne_nil _ hs]
  split
  · cases hcut : cut [']'] s with
    | none =>
      have hnone : cut [']'] (s ++ t) = none := by
        rw [cut_singleton_none, List.mem_append]
        rintro (h | h)
        · exact cut_singleton_none.1 hcut h
        · exact ht h
      rw [hnone]
    | some p =>
      obtain ⟨a, b⟩ := p
      have ha := cut_singleton_not_mem hcut
      have hst : s ++ t = a ++ ']' :: (b ++ t) := by simp [cut_eq hcut]
      rw [hst, cut_singleton ha]
      rfl
  · rfl

/-! ## Authorities -/

theorem isAuthorityChar_toLower (c : Char) : isAuthorityChar c.toLower = isAuthorityChar c := by
  unfold isAuthorityChar
  rw [toLower_beq (by decide), toLower_beq (by decide), toLower_beq (by decide)]

/-- A text that begins no authority. -/
def EndsAuthority (suffix : Str) : Prop := ∀ c ∈ suffix.head?, isAuthorityChar c = false

theorem endsAuthority_dropWhile (s : Str) : EndsAuthority (s.dropWhile isAuthorityChar) := by
  intro c hc
  have h := List.head?_dropWhile_not isAuthorityChar s
  rw [Option.mem_def.1 hc] at h
  simpa using h

theorem takeWhile_authority {authority suffix : Str} (ha : ∀ c ∈ authority, isAuthorityChar c = true)
    (hs : EndsAuthority suffix) : (authority ++ suffix).takeWhile isAuthorityChar = authority := by
  rw [List.takeWhile_append_of_pos ha]
  cases suffix with
  | nil => simp
  | cons c t =>
    rw [List.takeWhile_cons_of_neg (by simp [hs c rfl]), List.append_nil]

theorem dropWhile_authority {authority suffix : Str} (ha : ∀ c ∈ authority, isAuthorityChar c = true)
    (hs : EndsAuthority suffix) : (authority ++ suffix).dropWhile isAuthorityChar = suffix := by
  rw [List.dropWhile_append_of_pos ha]
  cases suffix with
  | nil => rfl
  | cons c t => rw [List.dropWhile_cons_of_neg (by simp [hs c rfl])]

theorem urlAuthority_eq {scheme authority suffix : Str} (hscheme : ':' ∉ scheme)
    (ha : ∀ c ∈ authority, isAuthorityChar c = true) (hs : EndsAuthority suffix) :
    urlAuthority (scheme ++ "://" ++ (authority ++ suffix)) = authority := by
  unfold urlAuthority
  have hcut : cut "://".toList (scheme ++ "://".toList ++ (authority ++ suffix)) =
      some (scheme, authority ++ suffix) := cut_of_head_not_mem hscheme
  rw [hcut]
  exact takeWhile_authority ha hs

theorem splitUrl_some {url scheme rest : Str} (h : splitUrl url = some (scheme, rest)) :
    url = scheme ++ "://" ++ rest ∧ ':' ∉ scheme := by
  unfold splitUrl at h
  simp only at h
  split at h
  · rename_i c _ rest' hscheme hdrop
    split at h
    · cases h
      refine ⟨?_, fun hc => ?_⟩
      · rw [List.takeWhile_append_dropWhile]
        conv_lhs => rw [← @List.takeWhile_append_dropWhile _ isSchemeChar url, hdrop]
        simp
      · exact absurd (List.mem_takeWhile_imp hc) (by decide)
    · cases h
  · cases h

/-- The suffix of a URL that is split has no line terminator. -/
theorem splitUrl_suffix {url scheme rest : Str} (h : splitUrl url = some (scheme, rest)) :
    (rest.dropWhile isAuthorityChar).all isDotChar = true := by
  unfold splitUrl at h
  simp only at h
  split at h
  · split at h
    · rename_i hparts
      cases h
      rw [List.takeWhile_append_dropWhile]
      exact hparts.2.2
    · cases h
  · cases h

/-- A scheme in any case, an authority and a suffix are split where they meet. -/
theorem splitUrl_parts {scheme authority suffix : Str} (hscheme : ∀ c ∈ scheme, c.isAlpha = true)
    (hscheme_ne : scheme ≠ []) (hauth_ne : authority ≠ []) (ha : ∀ c ∈ authority, isAuthorityChar c = true)
    (hs : EndsAuthority suffix) (hdots : suffix.all isDotChar = true) :
    splitUrl (scheme ++ "://" ++ (authority ++ suffix)) = some (scheme, authority ++ suffix) := by
  have hclass : ∀ c ∈ scheme, isSchemeChar c = true := by
    intro c hc
    simp [isSchemeChar, Char.isAlphanum, hscheme c hc]
  have htake : (scheme ++ ':' :: '/' :: '/' :: (authority ++ suffix)).takeWhile isSchemeChar = scheme := by
    rw [List.takeWhile_append_of_pos hclass, List.takeWhile_cons_of_neg (by decide), List.append_nil]
  have hdrop : (scheme ++ ':' :: '/' :: '/' :: (authority ++ suffix)).dropWhile isSchemeChar =
      ':' :: '/' :: '/' :: (authority ++ suffix) := by
    rw [List.dropWhile_append_of_pos hclass, List.dropWhile_cons_of_neg (by decide)]
  have hurl : scheme ++ "://" ++ (authority ++ suffix) =
      scheme ++ ':' :: '/' :: '/' :: (authority ++ suffix) := by simp
  obtain ⟨c, t, rfl⟩ := List.exists_cons_of_ne_nil hscheme_ne
  unfold splitUrl
  rw [hurl, htake, hdrop]
  simp only [takeWhile_authority ha hs, dropWhile_authority ha hs]
  exact if_pos ⟨hscheme c (by simp), hauth_ne, hdots⟩

/-! ## The parts of a target -/

/-- A port with the colon before it. -/
def portText : Option Str → Str
  | none => []
  | some port => ':' :: port

theorem splitAuthority_append {host : Str} (hcolon : ':' ∉ host) (port : Option Str) :
    splitAuthority (host ++ portText port) = (host, port) := by
  unfold splitAuthority
  cases port with
  | none => rw [portText, List.append_nil, cut_singleton_none.2 hcolon]
  | some port => rw [portText, cut_singleton hcolon]

theorem splitAuthority_eq (authority : Str) :
    ∃ host port, authority = host ++ portText port ∧ ':' ∉ host := by
  cases hcut : cut [':'] authority with
  | none => exact ⟨authority, none, by simp [portText], cut_singleton_none.1 hcut⟩
  | some p =>
    obtain ⟨host, port⟩ := p
    exact ⟨host, some port, by simp [cut_eq hcut, portText], cut_singleton_not_mem hcut⟩

/-- A port that is not printed: an empty one, or the default one of the scheme. -/
def DroppedPort (scheme port : Str) : Prop :=
  port = [] ∨ toLower scheme = "http" ∧ port = "80" ∨
    toLower scheme = "https" ∧ port = "443"

/-- **A URL in parts**, as `normalizeTargetUrl` takes it apart. -/
structure TargetParts where
  scheme : Str
  host : Str
  port : Option Str
  suffix : Str

namespace TargetParts

variable (p : TargetParts)

/-- Host and port. -/
def authority : Str := p.host ++ portText p.port

/-- The URL as it is written. -/
def text : Str := p.scheme ++ "://" ++ (p.authority ++ p.suffix)

/-- The port as it is printed. -/
def shownPort : Str := showPort (keepPort (toLower p.scheme) p.port)

/-- The URL as it is stored. -/
def normal : Str := toLower p.scheme ++ "://" ++ (toLower p.host ++ p.shownPort ++ p.suffix)

/-- The parts can be read back from the text. -/
structure Shaped : Prop where
  scheme_colon : ':' ∉ p.scheme
  host_colon : ':' ∉ p.host
  chars : ∀ c ∈ p.authority, isAuthorityChar c = true
  suffix_ends : EndsAuthority p.suffix

/-- **The checks of `normalizeTargetUrl`.** -/
structure Accepted (config : ServerConfig) : Prop extends p.Shaped where
  scheme : toLower p.scheme = "http" ∨ toLower p.scheme = "https"
  host_ne : p.host ≠ []
  no_user : '@' ∉ p.authority
  suffix_dots : p.suffix.all isDotChar = true
  allowed : (!config.shortenerAllowPrivateTargets && isPrivateHost (toLower p.host)) = false

variable {p} {config : ServerConfig}

/-- A port is printed as it is or not at all. -/
theorem shownPort_cases (p : TargetParts) :
    p.shownPort = portText p.port ∨
      p.shownPort = [] ∧ ∃ port, p.port = some port ∧ DroppedPort p.scheme port := by
  unfold shownPort keepPort
  split
  · rename_i hdefault
    rcases hdefault with ⟨hscheme, hport⟩ | ⟨hscheme, hport⟩
    · exact .inr ⟨rfl, _, hport, .inr (.inl ⟨hscheme, rfl⟩)⟩
    · exact .inr ⟨rfl, _, hport, .inr (.inr ⟨hscheme, rfl⟩)⟩
  · cases hport : p.port with
    | none => exact .inl rfl
    | some port =>
      unfold showPort
      by_cases hempty : port = []
      · exact .inr ⟨if_pos hempty, port, rfl, .inl hempty⟩
      · exact .inl (if_neg hempty)

theorem shownPort_of_dropped {port : Str} (hport : p.port = some port) (h : DroppedPort p.scheme port) :
    p.shownPort = [] := by
  unfold shownPort keepPort
  rw [hport]
  split
  · rfl
  · rename_i hkept
    rcases h with rfl | ⟨hscheme, rfl⟩ | ⟨hscheme, rfl⟩
    · rfl
    · exact absurd (.inl ⟨hscheme, rfl⟩) hkept
    · exact absurd (.inr ⟨hscheme, rfl⟩) hkept

/-- What is printed after the host is part of what stood there. -/
theorem shownPort_subset (p : TargetParts) : p.shownPort ⊆ portText p.port := by
  rcases p.shownPort_cases with h | ⟨h, -⟩
  · rw [h]
    exact List.Subset.refl _
  · rw [h]
    exact List.nil_subset _

/-- The scheme is made of letters, in whatever case. -/
theorem Accepted.scheme_alpha (h : p.Accepted config) : ∀ c ∈ p.scheme, c.isAlpha = true := by
  intro c hc
  have hlower : c.toLower ∈ "https".toList := by
    have hmem : c.toLower ∈ toLower p.scheme := List.mem_map_of_mem hc
    rcases h.scheme with hs | hs
    · rw [hs] at hmem
      exact List.mem_of_mem_take (i := 4) hmem
    · rwa [hs] at hmem
  have hrange : 97 ≤ c.toLower.toNat ∧ c.toLower.toNat ≤ 122 := by
    have hall : "https".toList.all (fun d => decide (97 ≤ d.toNat ∧ d.toNat ≤ 122)) = true := by decide
    exact of_decide_eq_true (List.all_eq_true.1 hall _ hlower)
  rw [isAlpha_iff]
  rcases toLower_cases c with hsame | ⟨hge, hle, -⟩
  · rw [hsame] at hrange
    exact .inr hrange
  · exact .inl ⟨hge, hle⟩

theorem Accepted.scheme_ne (h : p.Accepted config) : p.scheme ≠ [] := by
  intro hnil
  have hs := h.scheme
  rw [hnil] at hs
  rcases hs with hs | hs <;> cases hs

theorem Accepted.authority_ne (h : p.Accepted config) : p.authority ≠ [] :=
  List.append_ne_nil_of_left_ne_nil h.host_ne _

end TargetParts

/-- **What `normalizeTargetUrl` returns**: the normal form of the parts of the trimmed input, if these pass the
checks. -/
theorem normalizeTargetUrl_iff {input u : Str} {config : ServerConfig} :
    normalizeTargetUrl input config = some u ↔
      ∃ p : TargetParts, p.Accepted config ∧ trim input = p.text ∧ u = p.normal := by
  constructor
  · intro h
    unfold normalizeTargetUrl at h
    simp only at h
    split at h
    · cases h
    split at h
    · cases h
    rename_i scheme rest hsplit
    obtain ⟨htrim, hcolon⟩ := splitUrl_some hsplit
    split at h
    · cases h
    rename_i hscheme
    split at h
    · cases h
    rename_i huser
    obtain ⟨host, port, hauth, hhost⟩ := splitAuthority_eq (rest.takeWhile isAuthorityChar)
    have hrest : rest = host ++ portText port ++ rest.dropWhile isAuthorityChar := by
      rw [← hauth, List.takeWhile_append_dropWhile]
    have hchars : ∀ c ∈ host ++ portText port, isAuthorityChar c = true := by
      rw [← hauth]
      exact fun c hc => List.mem_takeWhile_imp hc
    rw [hauth] at huser
    rw [hauth, splitAuthority_append hhost] at h
    simp only at h
    split at h
    · cases h
    rename_i hne
    split at h
    · cases h
    rename_i hallowed
    cases h
    refine ⟨⟨scheme, host, port, rest.dropWhile isAuthorityChar⟩, ⟨⟨hcolon, hhost, hchars,
      endsAuthority_dropWhile rest⟩, ?_, ?_, huser, splitUrl_suffix hsplit, by simpa using hallowed⟩, ?_, ?_⟩
    · by_contra hother
      exact hscheme (not_or.1 hother)
    · rintro rfl
      exact hne rfl
    · rw [htrim]
      exact congrArg _ hrest
    · simp only [TargetParts.normal, TargetParts.shownPort, List.append_assoc]
  · rintro ⟨p, hp, htrim, rfl⟩
    have hsplit : splitUrl (trim input) = some (p.scheme, p.authority ++ p.suffix) := by
      rw [htrim]
      exact splitUrl_parts hp.scheme_alpha hp.scheme_ne hp.authority_ne hp.chars hp.suffix_ends hp.suffix_dots
    have hne : trim input ≠ [] := by
      rw [htrim, TargetParts.text]
      simp
    have hhost : toLower p.host ≠ [] := by
      simpa [toLower] using hp.host_ne
    have hscheme : ¬(toLower p.scheme ≠ "http" ∧ toLower p.scheme ≠ "https") := by
      rintro ⟨h1, h2⟩
      exact hp.scheme.elim h1 h2
    unfold normalizeTargetUrl
    simp only [if_neg hne, hsplit, if_neg hscheme, takeWhile_authority hp.chars hp.suffix_ends,
      dropWhile_authority hp.chars hp.suffix_ends, if_neg hp.no_user]
    rw [TargetParts.authority, splitAuthority_append hp.host_colon]
    simp only [if_neg hhost, hp.allowed, TargetParts.normal, TargetParts.shownPort, List.append_assoc]
    rfl

/-! ## The host of a target -/

/-- A dropped port has no bracket. -/
theorem DroppedPort.no_bracket {scheme port : Str} (h : DroppedPort scheme port) : ']' ∉ ':' :: port := by
  rcases h with rfl | ⟨-, rfl⟩ | ⟨-, rfl⟩ <;> decide

/-- The bracketed literal of the output is that of the input, up to case. -/
theorem bracketLiteral_normal {p : TargetParts} (hhost : p.host ≠ []) :
    (bracketLiteral (toLower p.host ++ p.shownPort)).map toLower = (bracketLiteral p.authority).map toLower := by
  rcases p.shownPort_cases with hshown | ⟨hshown, port, hport, hdropped⟩
  · rw [hshown, ← bracketLiteral_toLower, ← bracketLiteral_toLower, TargetParts.authority, toLower_append,
      toLower_append, toLower_idem]
  · have hne : ']' ∉ portText p.port := by
      rw [hport]
      exact hdropped.no_bracket
    rw [hshown, List.append_nil, TargetParts.authority, bracketLiteral_append hhost hne,
      ← bracketLiteral_toLower, toLower_idem, bracketLiteral_toLower]

/-- The output has its authority and the host before its port where it prints them. -/
theorem TargetParts.Shaped.normal_authority {p : TargetParts} (hp : p.Shaped) :
    (∀ c ∈ toLower p.host ++ p.shownPort, isAuthorityChar c = true) ∧
      (splitAuthority (toLower p.host ++ p.shownPort)).1 = toLower p.host := by
  constructor
  · intro c hc
    rcases List.mem_append.1 hc with hc | hc
    · obtain ⟨d, hd, rfl⟩ := List.mem_map.1 hc
      rw [isAuthorityChar_toLower]
      exact hp.chars d (List.mem_append_left _ hd)
    · exact hp.chars c (List.mem_append_right _ (p.shownPort_subset hc))
  · have hcolon : ':' ∉ toLower p.host := mt (mem_toLower (by decide)).1 hp.host_colon
    rcases p.shownPort_cases with hshown | ⟨hshown, -⟩
    · rw [hshown, splitAuthority_append hcolon]
    · rw [hshown, show ([] : Str) = portText none from rfl, splitAuthority_append hcolon]

/-- A host that is neither private nor the literal of a private address. -/
def PublicHost (host : Str) : Prop := isPrivateHost host = false ∧ isPrivateLiteral host = false

instance (host : Str) : Decidable (PublicHost host) := inferInstanceAs (Decidable (_ ∧ _))

theorem publicHost_congr {s t : Str} (h : toLower s = toLower t) : PublicHost s ↔ PublicHost t := by
  unfold PublicHost
  rw [isPrivateHost_congr h, isPrivateLiteral_congr h]

/-- **When the host of an accepted URL is public**, with private targets refused: no name or literal that counts as
private, and no other spelling of a private address. -/
theorem target_host_public_iff {input u : Str} {config : ServerConfig}
    (hallow : config.shortenerAllowPrivateTargets = false) (h : normalizeTargetUrl input config = some u) :
    PublicHost (rfcHost u) ↔
      ∀ literal, bracketLiteral (urlAuthority (trim input)) = some literal → PublicHost literal := by
  obtain ⟨p, hp, htrim, rfl⟩ := normalizeTargetUrl_iff.1 h
  obtain ⟨hchars, hhost⟩ := hp.normal_authority
  have hlit := bracketLiteral_normal hp.host_ne
  have hin : urlAuthority (trim input) = p.authority := by
    rw [htrim]
    exact urlAuthority_eq hp.scheme_colon hp.chars hp.suffix_ends
  have hout : urlAuthority p.normal = toLower p.host ++ p.shownPort :=
    urlAuthority_eq (mt (mem_toLower (by decide)).1 hp.scheme_colon) hchars hp.suffix_ends
  rw [hin]
  unfold rfcHost
  rw [hout]
  cases hb : bracketLiteral p.authority with
  | none =>
    -- without a literal the host is the part that was checked
    have hb' : bracketLiteral (toLower p.host ++ p.shownPort) = none := by simpa [hb] using hlit
    have hpublic : isPrivateHost (toLower p.host) = false := by simpa [hallow] using hp.allowed
    rw [hb', Option.getD_none, hhost]
    refine iff_of_true ⟨hpublic, ?_⟩ nofun
    by_contra hliteral
    rw [Bool.not_eq_false] at hliteral
    rcases isPrivateHost_of_literal hliteral with hprivate | ⟨hopen, hclose⟩
    · rw [hpublic] at hprivate
      cases hprivate
    · rw [toLower_idem] at hopen hclose
      have hne : toLower p.host ≠ [] := by
        rintro hnil
        rw [hnil] at hclose
        cases hclose
      refine bracketLiteral_isSome ?_ (List.mem_append_left _ hclose) hb'
      rw [List.head?_append_of_ne_nil _ hne, hopen]
  | some literal =>
    -- the check has seen the host up to the first colon only, which says nothing about the literal
    rw [hb, Option.map_some] at hlit
    obtain ⟨literal', hb', hlower⟩ := Option.map_eq_some_iff.1 hlit
    rw [hb', Option.getD_some, publicHost_congr hlower]
    simp

theorem target_host_public_iff_sample :
    normalizeTargetUrl "http://[2001:DB8::1]:80/x".toList {} = some "http://[2001:DB8::1]:80/x".toList ∧
    PublicHost (rfcHost "http://[2001:DB8::1]:80/x".toList) := by
  have h : normalizeTargetUrl "http://[2001:DB8::1]:80/x".toList {} =
      some "http://[2001:DB8::1]:80/x".toList := by decide
  refine ⟨h, (target_host_public_iff rfl h).2 ?_⟩
  have hlit : bracketLiteral (urlAuthority (trim "http://[2001:DB8::1]:80/x".toList)) =
      some "[2001:DB8::1]".toList := by decide
  rw [hlit]
  rintro _ ⟨⟩
  decide

/-- The loopback address of IPv6 is accepted, and so are spellings of private addresses that no test knows. -/
theorem loopback_literal_accepted :
    (normalizeTargetUrl "http://[::1]/".toList {} = some "http://[::1]/".toList ∧
      rfcHost "http://[::1]/".toList = "[::1]".toList ∧ isPrivateHost "[::1]".toList = true) ∧
    ∀ literal ∈ ["[0:0:0:0:0:0:0:1]".toList, "[::ffff:127.0.0.1]".toList, "[fe90::1]".toList],
      let url := "http://".toList ++ literal ++ "/".toList
      normalizeTargetUrl url {} = some url ∧ rfcHost url = literal ∧ isPrivateLiteral literal = true ∧
        isPrivateHost literal = false := by
  decide

end UrlShortener

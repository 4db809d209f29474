import UrlShortener.Proof.Target
import UrlShortener.Spec.Handlers

/-!
# Normal forms of targets

What a second pass of `normalizeTargetUrl`, and a client that reads the `Location` header, make of an accepted
target.

* `normalized_visible_iff`: **an accepted URL has no control character and no blank exactly when the trimmed
  input has none.** The expression for URLs keeps line ends out of the suffix, but not out of the authority.
* `normalizeTargetUrl_again_iff`: **an accepted URL is its own normal form unless the host ends in a blank before
  a port that is dropped.** The input is trimmed once, before the port is taken away.
-/

namespace UrlShortener

open Text

/-! ## Trimming -/

theorem trim_sublist (s : Str) : (trim s).Sublist s :=
  (List.rdropWhile_prefix _ _).sublist.trans (List.dropWhile_suffix _).sublist

/-- A trimmed text does not end in a blank. -/
theorem getLast?_trim {s : Str} {c : Char} (h : c ∈ (trim s).getLast?) : isTrimmed c = false := by
  obtain ⟨hne, rfl⟩ := List.mem_getLast?_eq_getLast h
  rw [← Bool.not_eq_true]
  exact List.rdropWhile_last_not isTrimmed (s.dropWhile isTrimmed) hne

/-- A text that does not begin with a blank is trimmed if it does not end in one. -/
theorem trim_cons {c : Char} {s : Str} (hc : isTrimmed c = false) :
    trim (c :: s) = c :: s ↔ ∀ d ∈ (c :: s).getLast?, isTrimmed d = false := by
  rw [trim, List.dropWhile_cons_of_neg (by simp [hc]), List.rdropWhile_eq_self_iff]
  rw [List.getLast?_eq_some_getLast (List.cons_ne_nil c s)]
  constructor
  · rintro h _ ⟨⟩
    simpa using h (List.cons_ne_nil c s)
  · intro h _
    simpa using h _ rfl

theorem isTrimmed_toLower (c : Char) : isTrimmed c.toLower = isTrimmed c := by
  unfold isTrimmed
  rw [toLower_beq (by decide), toLower_beq (by decide), toLower_beq (by decide), toLower_beq (by decide)]

/-- The case of a text does not matter for its last character being a blank. -/
theorem getLast?_of_toLower {s t : Str} (h : toLower s = toLower t)
    (ht : ∀ c ∈ t.getLast?, isTrimmed c = false) : ∀ c ∈ s.getLast?, isTrimmed c = false := by
  intro c hc
  have hlast : c.toLower ∈ (toLower t).getLast? := by
    rw [← h, toLower, List.getLast?_map, Option.mem_def.1 hc]
    rfl
  rw [toLower, List.getLast?_map] at hlast
  obtain ⟨d, hd, hlower⟩ := Option.map_eq_some_iff.1 hlast
  rw [← isTrimmed_toLower, ← hlower, isTrimmed_toLower]
  exact ht d hd

/-! ## Parts and their normal form -/

namespace TargetParts

variable {p q : TargetParts} {config : ServerConfig}

/-- The parts are determined by the text. -/
theorem Shaped.eq_of_text_eq (hp : p.Shaped) (hq : q.Shaped) (h : p.text = q.text) : p = q := by
  have hcut : ∀ {r : TargetParts}, r.Shaped →
      cut "://" r.text = some (r.scheme, r.authority ++ r.suffix) :=
    fun hr => cut_of_head_not_mem hr.scheme_colon
  have hpair : some (p.scheme, p.authority ++ p.suffix) = some (q.scheme, q.authority ++ q.suffix) := by
    rw [← hcut hp, ← hcut hq, h]
  rw [Option.some.injEq, Prod.mk.injEq] at hpair
  obtain ⟨hscheme, hrest⟩ := hpair
  have hauth : p.authority = q.authority := by
    rw [← takeWhile_authority hp.chars hp.suffix_ends, hrest, takeWhile_authority hq.chars hq.suffix_ends]
  have hsuffix : p.suffix = q.suffix := by
    rw [← dropWhile_authority hp.chars hp.suffix_ends, hrest, dropWhile_authority hq.chars hq.suffix_ends]
  have hsplit : (p.host, p.port) = (q.host, q.port) := by
    rw [← splitAuthority_append hp.host_colon, ← splitAuthority_append hq.host_colon]
    exact congrArg splitAuthority hauth
  rw [Prod.mk.injEq] at hsplit
  cases p
  cases q
  simp_all

/-- The normal form differs from the text in case only, or by a port that is dropped. -/
theorem normal_cases (p : TargetParts) :
    toLower p.normal = toLower p.text ∨
      ∃ port, p.port = some port ∧ DroppedPort p.scheme port ∧
        p.normal = toLower p.scheme ++ "://" ++ (toLower p.host ++ p.suffix) := by
  rcases p.shownPort_cases with hshown | ⟨hshown, port, hport, hdropped⟩
  · refine .inl ?_
    simp only [normal, text, authority, hshown, toLower_append, toLower_idem]
  · exact .inr ⟨port, hport, hdropped, by rw [normal, hshown, List.append_nil]⟩

theorem normal_length_le (p : TargetParts) : p.normal.length ≤ p.text.length := by
  have hshown : p.shownPort.length ≤ (portText p.port).length := by
    rcases p.shownPort_cases with h | ⟨h, -⟩
    · rw [h]
    · rw [h]
      exact Nat.zero_le _
  simp only [normal, text, authority, List.length_append, toLower, List.length_map]
  omega

/-- The port that is read from the normal form is printed as it stands there. -/
theorem shownPort_again (p : TargetParts) :
    ∃ port, portText port = p.shownPort ∧ showPort (keepPort (toLower p.scheme) port) = p.shownPort := by
  rcases p.shownPort_cases with h | ⟨h, -⟩
  · exact ⟨p.port, h.symm, rfl⟩
  · refine ⟨none, h.symm, ?_⟩
    rw [h]
    simp [keepPort, showPort]

/-- **A normal form passes the checks again and is left alone.** -/
theorem Accepted.normal_again (hp : p.Accepted config) :
    ∃ q : TargetParts, q.Accepted config ∧ q.text = p.normal ∧ q.normal = p.normal := by
  obtain ⟨port, htext, hshown⟩ := p.shownPort_again
  refine ⟨⟨toLower p.scheme, toLower p.host, port, p.suffix⟩, ⟨⟨?_, ?_, ?_, hp.suffix_ends⟩, ?_, ?_, ?_,
    hp.suffix_dots, ?_⟩, ?_, ?_⟩
  · exact mt (mem_toLower (by decide)).1 hp.scheme_colon
  · exact mt (mem_toLower (by decide)).1 hp.host_colon
  · rw [authority, htext]
    exact hp.normal_authority.1
  · rw [toLower_idem]
    exact hp.scheme
  · simpa [toLower] using hp.host_ne
  · rw [authority, htext, List.mem_append, mem_toLower (by decide)]
    rintro (h | h)
    · exact hp.no_user (List.mem_append_left _ h)
    · exact hp.no_user (List.mem_append_right _ (p.shownPort_subset h))
  · rw [toLower_idem]
    exact hp.allowed
  · rw [text, authority, htext, normal]
  · rw [normal, shownPort, toLower_idem, toLower_idem, hshown, normal]

theorem Accepted.normal_head (hp : p.Accepted config) : ∃ t, p.normal = 'h' :: t := by
  rcases hp.scheme with h | h
  · exact ⟨_, by rw [normal, h]; rfl⟩
  · exact ⟨_, by rw [normal, h]; rfl⟩

end TargetParts

/-- An accepted URL is its own normal form if there is nothing to trim. -/
theorem normalizeTargetUrl_normal {p : TargetParts} {config : ServerConfig} (hp : p.Accepted config) :
    normalizeTargetUrl p.normal config = some p.normal ↔ trim p.normal = p.normal := by
  rw [normalizeTargetUrl_iff]
  constructor
  · rintro ⟨q, -, htext, hnormal⟩
    -- normal forms are not longer than the text they are made of
    have hle : p.normal.length ≤ (trim p.normal).length := by
      rw [htext]
      exact (congrArg List.length hnormal).le.trans q.normal_length_le
    exact (trim_sublist _).eq_of_length_le hle
  · intro htrim
    obtain ⟨q, hq, htext, hnormal⟩ := hp.normal_again
    exact ⟨q, hq, htrim.trans htext.symm, hnormal.symm⟩

/-! ## A second pass -/

/-- The trimmed input is a scheme, a host that ends in a blank, and a port that is dropped. -/
def BlankBeforePort (input : Str) : Prop :=
  ∃ scheme host blank port,
    trim input = scheme ++ "://" ++ (host ++ blank :: ':' :: port) ∧
    ':' ∉ scheme ∧ ':' ∉ host ∧ (∀ c ∈ host, isAuthorityChar c = true) ∧
    isTrimmed blank = true ∧ DroppedPort scheme port

theorem DroppedPort.chars {scheme port : Str} (h : DroppedPort scheme port) :
    ∀ c ∈ ':' :: port, isAuthorityChar c = true := by
  rw [← List.all_eq_true]
  rcases h with rfl | ⟨-, rfl⟩ | ⟨-, rfl⟩ <;> decide

theorem isAuthorityChar_of_isTrimmed {c : Char} (h : isTrimmed c = true) :
    isAuthorityChar c = true ∧ c ≠ ':' := by
  simp only [isTrimmed, Bool.or_eq_true, beq_iff_eq] at h
  rcases h with ((rfl | rfl) | rfl) | rfl <;> decide

/-- The parts that such an input is made of. -/
theorem BlankBeforePort.parts {p : TargetParts} {input : Str} (hp : p.Shaped) (htrim : trim input = p.text)
    (h : BlankBeforePort input) :
    ∃ host blank port, p = ⟨p.scheme, host ++ [blank], some port, []⟩ ∧ isTrimmed blank = true ∧
      DroppedPort p.scheme port := by
  obtain ⟨scheme, host, blank, port, heq, hscheme, hcolon, hhost, hblank, hdropped⟩ := h
  obtain ⟨hauth, hne⟩ := isAuthorityChar_of_isTrimmed hblank
  have hq : TargetParts.Shaped ⟨scheme, host ++ [blank], some port, []⟩ := by
    refine ⟨hscheme, ?_, ?_, fun c hc => by cases hc⟩
    · simpa [hcolon] using Ne.symm hne
    · intro c hc
      rcases List.mem_append.1 hc with hc | hc
      · rcases List.mem_append.1 hc with hc | hc
        · exact hhost c hc
        · rw [List.mem_singleton.1 hc]
          exact hauth
      · exact hdropped.chars c hc
  have hp' : p = ⟨scheme, host ++ [blank], some port, []⟩ := by
    refine hp.eq_of_text_eq hq ?_
    rw [← htrim, heq]
    simp [TargetParts.text, TargetParts.authority, portText]
  refine ⟨host, blank, port, ?_, hblank, ?_⟩
  · rw [hp']
  · rw [hp']
    exact hdropped

/-- **When normalization is a projection.** -/
theorem normalizeTargetUrl_again_iff {input u : Str} {config : ServerConfig}
    (h : normalizeTargetUrl input config = some u) :
    normalizeTargetUrl u config = some u ↔ ¬BlankBeforePort input := by
  obtain ⟨p, hp, htrim, rfl⟩ := normalizeTargetUrl_iff.1 h
  obtain ⟨t, ht⟩ := hp.normal_head
  have hlast : trim p.normal = p.normal ↔ ∀ c ∈ p.normal.getLast?, isTrimmed c = false := by
    rw [ht]
    exact trim_cons (by decide)
  have hinput : ∀ c ∈ p.text.getLast?, isTrimmed c = false := by
    rw [← htrim]
    exact fun c hc => getLast?_trim hc
  rw [normalizeTargetUrl_normal hp, hlast]
  constructor
  · intro hclean hblank
    obtain ⟨host, blank, port, hp', htrimmed, hdropped⟩ := hblank.parts hp.toShaped htrim
    have hshown : p.shownPort = [] := TargetParts.shownPort_of_dropped (by rw [hp']) hdropped
    have hnormal : p.normal = toLower p.scheme ++ "://" ++ toLower host ++ [blank.toLower] := by
      rw [TargetParts.normal, hshown, hp']
      simp [toLower]
    have hblank := hclean blank.toLower (by rw [hnormal, List.getLast?_concat]; rfl)
    rw [isTrimmed_toLower, htrimmed] at hblank
    cases hblank
  · intro hblank
    rcases p.normal_cases with hsame | ⟨port, hport, hdropped, hnormal⟩
    · exact getLast?_of_toLower hsame hinput
    -- without the port, the normal form ends in the suffix or, if there is none, in the host
    rw [hnormal]
    rcases List.eq_nil_or_concat p.suffix with hsuffix | ⟨s, d, hsuffix⟩
    · obtain ⟨host, blank, hhost⟩ := (List.eq_nil_or_concat p.host).resolve_left hp.host_ne
      intro c hc
      have hc' : c = blank.toLower := by
        rw [hsuffix, hhost, List.append_nil, List.concat_eq_append, toLower_append, ← List.append_assoc] at hc
        rw [show toLower [blank] = [blank.toLower] from rfl, List.getLast?_concat] at hc
        exact (Option.some.inj hc).symm
      rw [hc', isTrimmed_toLower]
      by_contra hnot
      rw [Bool.not_eq_false] at hnot
      rw [List.concat_eq_append] at hhost
      refine hblank ⟨p.scheme, host, blank, port, ?_, hp.scheme_colon, ?_, ?_, hnot, hdropped⟩
      · rw [htrim, TargetParts.text, TargetParts.authority, hhost, hport, hsuffix]
        simp [portText]
      · intro hmem
        exact hp.host_colon (by rw [hhost]; exact List.mem_append_left _ hmem)
      · intro c hmem
        exact hp.chars c (List.mem_append_left _ (by rw [hhost]; exact List.mem_append_left _ hmem))
    · rw [List.concat_eq_append] at hsuffix
      intro c hc
      refine hinput c ?_
      rw [hsuffix, ← List.append_assoc, ← List.append_assoc, List.getLast?_concat] at hc
      rw [TargetParts.text, hsuffix, ← List.append_assoc, ← List.append_assoc, List.getLast?_concat]
      exact hc

theorem normalizeTargetUrl_again_iff_sample :
    normalizeTargetUrl " HTTP://A.example:80/x y ".toList {} = some "http://a.example/x y".toList ∧
    (normalizeTargetUrl "http://a.example/x y".toList {} = some "http://a.example/x y".toList ↔
      ¬BlankBeforePort " HTTP://A.example:80/x y ".toList) :=
  ⟨by decide +kernel, normalizeTargetUrl_again_iff (by decide +kernel)⟩

/-- A blank before a default port is the end of the result, and goes in the second pass. -/
theorem blank_before_port_trimmed :
    normalizeTargetUrl "http://a :80".toList {} = some "http://a ".toList ∧
    normalizeTargetUrl "http://a ".toList {} = some "http://a".toList := by
  decide +kernel

/-! ## Control characters -/

/-- Neither an ASCII control character nor a blank. -/
def isVisible (c : Char) : Bool := decide (32 < c.toNat ∧ c.toNat ≠ 127)

/-- No blanks and no control characters. -/
def Visible (s : Str) : Prop := ∀ c ∈ s, isVisible c = true

theorem isVisible_toLower (c : Char) : isVisible c.toLower = isVisible c := by
  rcases toLower_cases c with h | ⟨hge, hle, h⟩
  · rw [h]
  · unfold isVisible
    rw [h, decide_eq_decide]
    omega

theorem visible_toLower {s : Str} : Visible (toLower s) ↔ Visible s := by
  simp [Visible, toLower, isVisible_toLower]

theorem visible_append (s t : Str) : Visible (s ++ t) ↔ Visible s ∧ Visible t := by
  simp only [Visible, List.mem_append, or_imp, forall_and]

theorem DroppedPort.visible {scheme port : Str} (h : DroppedPort scheme port) : Visible (':' :: port) := by
  rw [Visible, ← List.all_eq_true]
  rcases h with rfl | ⟨-, rfl⟩ | ⟨-, rfl⟩ <;> decide

/-- Case and dropped ports do not hide anything. -/
theorem TargetParts.visible_normal (p : TargetParts) : Visible p.normal ↔ Visible p.text := by
  rcases p.normal_cases with h | ⟨port, hport, hdropped, h⟩
  · rw [← visible_toLower, h, visible_toLower]
  · have hvisible : Visible (portText p.port) := by
      rw [hport]
      exact hdropped.visible
    have hhost : Visible (p.host ++ portText p.port) ↔ Visible p.host := by
      rw [visible_append, and_iff_left hvisible]
    simp only [h, text, authority, visible_append _ p.suffix, visible_append _ (_ ++ p.suffix), hhost,
      visible_append (toLower p.scheme), visible_append p.scheme, visible_toLower]

/-- **When a redirect to an accepted URL is one header line**, without control characters and blanks. -/
theorem normalized_visible_iff {input u : Str} {config : ServerConfig}
    (h : normalizeTargetUrl input config = some u) :
    (Visible u ∧ ∀ call link redirectStatus, link.targetUrl = u →
      ∀ value ∈ (redirectResponse call link redirectStatus).location, '\r' ∉ value ∧ '\n' ∉ value) ↔
      Visible (trim input) := by
  obtain ⟨p, -, htrim, rfl⟩ := normalizeTargetUrl_iff.1 h
  rw [htrim, ← p.visible_normal]
  constructor
  · exact And.left
  · intro hvisible
    refine ⟨hvisible, fun call link redirectStatus htarget value hvalue => ?_⟩
    have hlocation : (redirectResponse call link redirectStatus).location = some p.normal := by
      rw [← htarget]
      rfl
    rw [Option.mem_def, hlocation, Option.some.injEq] at hvalue
    rw [← hvalue]
    refine ⟨fun hcr => ?_, fun hlf => ?_⟩
    · exact absurd (hvisible _ hcr) (by decide)
    · exact absurd (hvisible _ hlf) (by decide)

theorem normalized_visible_iff_sample :
    normalizeTargetUrl "http://a.example/x".toList {} = some "http://a.example/x".toList ∧
    Visible "http://a.example/x".toList := by
  have h : normalizeTargetUrl "http://a.example/x".toList {} = some "http://a.example/x".toList := by
    decide +kernel
  refine ⟨h, ((normalized_visible_iff h).2 ?_).1⟩
  rw [Visible, ← List.all_eq_true]
  decide

/-- A line end in the authority reaches the `Location` header. -/
theorem location_split :
    normalizeTargetUrl "http://a\r\nSet-Cookie: b".toList {} = some "http://a\r\nset-cookie: b".toList ∧
    (redirectResponse { config := {}, env := .still, req := { method := .get, target := [] } }
      { id := [], slug := [], targetUrl := "http://a\r\nset-cookie: b".toList, createdAt := [], updatedAt := [] }
      302).location =
        some "http://a\r\nset-cookie: b".toList ∧
    '\r' ∈ "http://a\r\nset-cookie: b".toList ∧ '\n' ∈ "http://a\r\nset-cookie: b".toList :=
  ⟨by decide +kernel, rfl, by decide, by decide⟩

end UrlShortener

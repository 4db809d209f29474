import UrlShortener.Spec.HostHeader

/-!
# The host of a `Host` header

Three functions take the port off the value of a `Host` header. `OnRedirectOutcome` searches the last colon and
minds the brackets of an IPv6 literal; `makeRedirectResponse` and `emitClickEvent` cut at the first colon.

* `stripPort_iff`: a cut at the first colon leaves the host exactly if the host has no colon.
* `onRedirectOutcome_domain`: the hook finds the host in every form.
* `host_header_iff`: **the three agree with the header exactly on hosts without a colon.**
-/

namespace UrlShortener

open Text

variable {call : Call} {host : Str} {port : Option Str}

/-- The host part of a header: a name, or an IPv6 literal in brackets. An address in dotted decimal counts as a
name. -/
inductive HostForm : Str → Prop
  | name {host : Str} (hcolon : ':' ∉ host) (hlength : host.length ≤ 255) : HostForm host
  | literal {address : Str} (hcolon : ':' ∈ address) : HostForm ('[' :: address ++ [']'])

/-- `host` or `host:port`. -/
def hostValue (host : Str) (port : Option Str) : Str :=
  match port with
  | none => host
  | some digits => host ++ ':' :: digits

/-! ## The first colon -/

theorem colon_not_mem_stripPort (value : Str) : ':' ∉ stripPort value := by
  unfold stripPort
  cases hcut : cut [':'] value with
  | none => exact cut_singleton_none.1 hcut
  | some p => exact cut_singleton_not_mem hcut

/-- **A cut at the first colon** leaves the host, if that has no colon itself. -/
theorem stripPort_iff (host : Str) (port : Option Str) : stripPort (hostValue host port) = host ↔ ':' ∉ host := by
  constructor
  · intro h
    rw [← h]
    exact colon_not_mem_stripPort _
  · intro hcolon
    cases port with
    | none => simp [hostValue, stripPort, cut_singleton_none.2 hcolon]
    | some digits => simp [hostValue, stripPort, cut_singleton hcolon]

/-! ## The last colon -/

theorem beforeLast_of_not_mem {c : Char} {s : Str} (h : c ∉ s) : beforeLast c s = s := by
  have hnone : cut [c] s.reverse = none := cut_singleton_none.2 (by simpa using h)
  simp [beforeLast, hnone]

theorem beforeLast_append {c : Char} {s t : Str} (h : c ∉ t) : beforeLast c (s ++ c :: t) = s := by
  have hsplit : (s ++ c :: t).reverse = t.reverse ++ c :: s.reverse := by simp
  have hcut : cut [c] (t.reverse ++ c :: s.reverse) = some (t.reverse, s.reverse) :=
    cut_singleton (by simpa using h)
  rw [beforeLast, hsplit, hcut]
  exact List.reverse_reverse s

/-- A port does not end in a bracket and has no colon. -/
theorem port_plain {digits : Str} (h : digits.all Char.isDigit = true) :
    ':' ∉ digits ∧ (':' :: digits).getLast? ≠ some ']' := by
  have hdigit : ∀ c ∈ digits, c.isDigit = true := List.all_eq_true.1 h
  refine ⟨fun hmem => absurd (hdigit _ hmem) (by decide), fun hlast => ?_⟩
  rcases List.mem_cons.1 (List.mem_of_getLast? hlast) with hc | hc
  · cases hc
  · exact absurd (hdigit _ hc) (by decide)

/-- **The hook finds the host**, with or without a port. -/
theorem onRedirectOutcome_domain (hhost : HostForm host) (hport : ∀ digits ∈ port, digits.all Char.isDigit = true)
    {input : RedirectAnalyticsInput} (hinput : input.host = hostValue host port) (now : TimePoint) :
    (onRedirectOutcome input now).domain = host := by
  have hdomain : (onRedirectOutcome input now).domain =
      if input.host ≠ [] ∧ input.host.getLast? ≠ some ']' then beforeLast ':' input.host else input.host := rfl
  cases port with
  | some digits =>
    obtain ⟨hcolon, hlast⟩ := port_plain (hport digits rfl)
    have hvalue : input.host = host ++ ':' :: digits := hinput
    rw [hdomain, hvalue, if_pos ⟨by simp, by rwa [List.getLast?_append_of_ne_nil _ (by simp)]⟩]
    exact beforeLast_append hcolon
  | none =>
    have hvalue : input.host = host := hinput
    rw [hdomain, hvalue]
    cases hhost with
    | name hcolon hlength =>
      split
      · exact beforeLast_of_not_mem hcolon
      · rfl
    | literal hcolon => exact if_neg fun h => h.2 List.getLast?_concat

/-! ## The three together -/

theorem makeRedirectResponse_location (tls : TlsConfig) {value : Str} (hvalue : value ≠ [])
    (hreq : call.req.host = some value) :
    (makeRedirectResponse call tls).location = some ("https://" ++ stripPort value ++
      (if tls.port = 443 then [] else ':' :: decimal tls.port.toNat) ++ call.req.target) := by
  obtain ⟨c, h, rfl⟩ := List.exists_cons_of_ne_nil hvalue
  simp only [makeRedirectResponse, hreq, Response.location, ite_not]
  rfl

theorem emitClickEvent_domain {value slug : Str} {link : Option Link} {status : ℕ} {now : TimePoint} {w : World}
    {e : ClickEvent} (hreq : call.req.host = some value)
    (he : (emitClickEvent call slug link status now w).clicks = w.clicks ++ [e]) :
    e.domain = clampString (stripPort value) 255 := by
  unfold emitClickEvent at he
  split at he
  · simp at he
  · have hlast := List.append_cancel_left he
    rw [← List.head_eq_of_cons_eq hlast, hreq]
    rfl

/-- **When the three agree with the header.** Take a `Host` header of the form `host` or `host:port`. The redirect
to HTTPS goes to the host on the TLS port, and the click event and the context of the hook have the host as their
domain, exactly if the host has no colon, that is, is not an IPv6 literal. The hook is right in any case. -/
theorem host_header_iff (call : Call) (tls : TlsConfig) (host : Str) (port : Option Str) (hhost : HostForm host)
    (hport : ∀ digits ∈ port, digits.all Char.isDigit = true) (hne : hostValue host port ≠ [])
    (hreq : call.req.host = some (hostValue host port)) (slug : Str) (link : Option Link) (status : ℕ)
    (now : TimePoint) (w : World) (input : RedirectAnalyticsInput) (hinput : input.host = hostValue host port) :
    ((makeRedirectResponse call tls).location = some ("https://" ++ host ++
          (if tls.port = 443 then [] else ':' :: decimal tls.port.toNat) ++ call.req.target) ∧
        (∀ e, (emitClickEvent call slug link status now w).clicks = w.clicks ++ [e] → e.domain = host) ∧
        (onRedirectOutcome input now).domain = host ↔ ':' ∉ host) ∧
      (onRedirectOutcome input now).domain = host := by
  have hhook := onRedirectOutcome_domain hhost hport hinput now
  refine ⟨⟨fun h => ?_, fun hcolon => ?_⟩, hhook⟩
  · have hlocation := h.1
    rw [makeRedirectResponse_location tls hne hreq, Option.some.injEq, List.append_cancel_right_eq,
      List.append_cancel_right_eq, List.append_cancel_left_eq] at hlocation
    exact (stripPort_iff host port).1 hlocation
  · have hstrip := (stripPort_iff host port).2 hcolon
    refine ⟨by rw [makeRedirectResponse_location tls hne hreq, hstrip], fun e he => ?_, hhook⟩
    rw [emitClickEvent_domain hreq he, hstrip, clampString]
    cases hhost with
    | name _ hlength => exact List.take_of_length_le hlength
    | literal hmem => exact absurd (by simp [hmem]) hcolon

/-- A request for `/abc` with this header. -/
def askHost (value : Str) : Call :=
  { config := {}, env := .still, req := { method := .get, target := "/abc", host := some value } }

theorem host_header_iff_sample :
    (makeRedirectResponse (askHost "a.io:8000".toList) { port := 8443 }).location
        = some "https://a.io:8443/abc".toList ∧
      (onRedirectOutcome { host := "a.io:8000".toList } 0).domain = "a.io".toList ∧
      ∀ e, (emitClickEvent (askHost "a.io:8000".toList) "abc".toList none 404 0 {}).clicks = [] ++ [e] →
        e.domain = "a.io".toList := by
  have h := host_header_iff (askHost "a.io:8000".toList) { port := 8443 } "a.io".toList (some "8000".toList)
    (.name (by decide) (by decide)) (by simp) (by decide) rfl "abc".toList none 404 0 {}
    { host := "a.io:8000".toList } rfl
  obtain ⟨hlocation, hclick, hhook⟩ := h.1.2 (by decide)
  exact ⟨hlocation, hhook, hclick⟩

/-- **An IPv6 literal is torn at its first colon**, but not by the hook. -/
theorem literal_torn :
    (makeRedirectResponse (askHost "[::1]:8000".toList) {}).location = some "https://[/abc".toList ∧
      (emitClickEvent (askHost "[::1]:8000".toList) "abc".toList none 404 0 {}).clicks.map (·.domain)
        = ["[".toList] ∧
      (onRedirectOutcome { host := "[::1]:8000".toList } 0).domain = "[::1]".toList := by
  decide +kernel

end UrlShortener

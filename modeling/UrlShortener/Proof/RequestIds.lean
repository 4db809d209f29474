import UrlShortener.Spec.HttpSession
import Mathlib.Data.Nat.Digits.Defs

/-!
# Request identifiers

* `handleShortenerRequest_carries`: every response of the router carries exactly one `X-Request-Id`, the one of the
  request it was given.
* `resolveRequestId_spec`: the identifier a session gives to its request is the client's if that is valid, and 32
  hexadecimal digits otherwise.
-/

namespace UrlShortener

open Text

/-- The values of the `X-Request-Id` headers. -/
def requestIds (headers : List (Str × Str)) : List Str :=
  (headers.filter fun h => h.1 == "X-Request-Id".toList).map Prod.snd

/-- The response has one `X-Request-Id` header, and it says `id`. -/
def Carries (id : Str) (res : Response) : Prop := requestIds res.headers = [id]

theorem requestIds_append (hs hs' : List (Str × Str)) : requestIds (hs ++ hs') = requestIds hs ++ requestIds hs' := by
  unfold requestIds
  rw [List.filter_append, List.map_append]

/-- A header of another name does not count. -/
theorem requestIds_other {name : Str} (h : (name == "X-Request-Id".toList) = false) (value : Str)
    (hs : List (Str × Str)) : requestIds ((name, value) :: hs) = requestIds hs := by
  have hne : ¬ (name == "X-Request-Id".toList) = true := by
    rw [h]
    exact Bool.false_ne_true
  exact congrArg (List.map Prod.snd) (List.filter_cons_of_neg (p := fun h : Str × Str => h.1 == _) hne)

theorem requestIds_self (id : Str) : requestIds [("X-Request-Id".toList, id)] = [id] := by
  have heq : ("X-Request-Id".toList == "X-Request-Id".toList) = true := by decide
  exact congrArg (List.map Prod.snd) (List.filter_cons_of_pos (p := fun h : Str × Str => h.1 == _) heq)

/-! ## The responses -/

theorem makeResponse_carries (call : Call) (status : ℕ) (body contentType : Str) :
    Carries (requestIdFromRequest call) (makeResponse call status body contentType) := by
  have htype : requestIds (if contentType = [] then [] else [("Content-Type".toList, contentType)]) = [] := by
    split
    · rfl
    · exact requestIds_other (by decide) _ _
  have hsniff : requestIds (if call.isTls then [("X-Content-Type-Options".toList, "nosniff".toList)] else []) = [] := by
    split
    · exact requestIds_other (by decide) _ _
    · rfl
  unfold Carries makeResponse
  rw [requestIds_append, requestIds_append, requestIds_append, requestIds_append, htype, hsniff,
    requestIds_other (by decide), requestIds_self]
  split
  · rw [requestIds_other (by decide)]
    rfl
  · rfl

theorem makeApiErrorResponse_carries (call : Call) (status : ℕ) (code message : Str) :
    Carries (requestIdFromRequest call) (makeApiErrorResponse call status code message) :=
  makeResponse_carries ..

theorem redirectResponse_carries (call : Call) (link : Link) (status : ℕ) :
    Carries (requestIdFromRequest call) (redirectResponse call link status) := by
  unfold Carries redirectResponse
  rw [requestIds_other (by decide), requestIds_other (by decide), requestIds_self]

theorem makeRedirectResponse_carries (call : Call) (tls : TlsConfig) :
    Carries (requestIdFromRequest call) (makeRedirectResponse call tls) := by
  unfold Carries makeRedirectResponse
  simp only
  rw [requestIds_other (by decide), requestIds_other (by decide), requestIds_self]

/-! ## The handlers -/

theorem handleApplicationRequest_carries (call : Call) (w : World) :
    Carries (requestIdFromRequest call) (handleApplicationRequest call w).1 := by
  unfold handleApplicationRequest
  simp only
  split
  · split <;> exact makeResponse_carries ..
  · exact makeResponse_carries ..
  · split <;> exact makeResponse_carries ..
  · exact makeResponse_carries ..

theorem linkStateError_carries (call : Call) (slug : Str) (link : Option Link) (w : World) :
    Carries (requestIdFromRequest call) (linkStateError call slug link w).1 := by
  unfold linkStateError
  simp only
  split <;> exact makeApiErrorResponse_carries ..

theorem serveLink_carries (call : Call) (slug : Str) (w : World) :
    Carries (requestIdFromRequest call) (serveLink call slug w).1 := by
  unfold serveLink
  split
  · exact linkStateError_carries ..
  · split
    · exact linkStateError_carries ..
    · split
      · exact makeApiErrorResponse_carries ..
      · exact redirectResponse_carries ..

theorem answerView_carries (call : Call) (status : ℕ) (show_ : LinkView → Str) (w : World)
    (r : Result LinkView × LinkStore) :
    Carries (requestIdFromRequest call) (answerView call status show_ w r).1 := by
  unfold answerView
  cases r.1 with
  | error e => exact makeApiErrorResponse_carries ..
  | ok view => exact makeResponse_carries ..

theorem createLinkFromRequest_carries (call : Call) (slugMode : CreateSlugFieldMode) (w : World) :
    Carries (requestIdFromRequest call) (createLinkFromRequest call slugMode w).1 := by
  unfold createLinkFromRequest
  split
  · exact makeApiErrorResponse_carries ..
  · exact answerView_carries ..

theorem handlePatchLink_carries (call : Call) (context : RouteContext) (w : World) :
    Carries (requestIdFromRequest call) (handlePatchLink call context w).1 := by
  unfold handlePatchLink
  simp only
  split
  · exact makeApiErrorResponse_carries ..
  · split
    · exact makeApiErrorResponse_carries ..
    · exact answerView_carries ..

theorem handlePlaceholderFeature_carries (call : Call) (context : RouteContext) (w : World) :
    Carries (requestIdFromRequest call) (handlePlaceholderFeature call context w).1 := by
  unfold handlePlaceholderFeature
  split <;> exact makeApiErrorResponse_carries ..

theorem handleLinkStats_carries (call : Call) (context : RouteContext) (w : World) :
    Carries (requestIdFromRequest call) (handleLinkStats call context w).1 := by
  unfold handleLinkStats
  simp only
  split
  · split
    · exact makeApiErrorResponse_carries ..
    · exact makeResponse_carries ..
  · split
    · exact makeApiErrorResponse_carries ..
    · exact makeResponse_carries ..

theorem handleFallbackUriStore_carries (call : Call) (w : World) :
    Carries (requestIdFromRequest call) (handleFallbackUriStore call w).1 := by
  unfold handleFallbackUriStore
  split
  · exact makeApiErrorResponse_carries ..
  · exact handleApplicationRequest_carries ..

theorem handlePrefixedRedirect_carries (call : Call) (context : RouteContext) (w : World) :
    Carries (requestIdFromRequest call) (handlePrefixedRedirect call context w).1 := by
  unfold handlePrefixedRedirect
  simp only
  split
  · exact makeApiErrorResponse_carries ..
  · exact serveLink_carries ..

theorem handleRootRedirect_carries (call : Call) (context : RouteContext) (w : World) :
    Carries (requestIdFromRequest call) (handleRootRedirect call context w).1 := by
  unfold handleRootRedirect
  simp only
  split
  · exact handleApplicationRequest_carries ..
  · split
    · exact handleApplicationRequest_carries ..
    · split
      · exact handleApplicationRequest_carries ..
      · exact serveLink_carries ..

theorem handler_carries (handler : Handler) (call : Call) (context : RouteContext) (w : World) :
    Carries (requestIdFromRequest call) (handler.run call context w).1 := by
  cases handler with
  | healthz => exact makeResponse_carries ..
  | readyz => exact makeResponse_carries ..
  | metrics => exact makeResponse_carries ..
  | placeholderFeature => exact handlePlaceholderFeature_carries ..
  | linkStats => exact handleLinkStats_carries ..
  | patchLink => exact handlePatchLink_carries ..
  | createLink => exact createLinkFromRequest_carries ..
  | compatCreateLink => exact createLinkFromRequest_carries ..
  | prefixedRedirect => exact handlePrefixedRedirect_carries ..
  | rootRedirect => exact handleRootRedirect_carries ..
  | fallbackUriStore => exact handleFallbackUriStore_carries ..
  | _ => exact answerView_carries ..

/-- **Every response of the router carries the identifier of its request**, once. -/
theorem handleShortenerRequest_carries (call : Call) (w : World) :
    Carries (requestIdFromRequest call) (handleShortenerRequest call w).1 := by
  unfold handleShortenerRequest
  split
  · exact handler_carries ..
  · exact makeApiErrorResponse_carries ..

/-! ## The identifier of a session -/

/-- An identifier that can stand in a header: not empty, and of letters, digits, `-`, `_` and `.` only. -/
def SafeId (id : Str) : Prop := id ≠ [] ∧ id.all isRequestIdChar = true

theorem isRequestIdChar_digitChar : ∀ d < 16, isRequestIdChar (Nat.digitChar d) = true := by decide

theorem isRequestIdChar_toDigits (n : ℕ) : ∀ c ∈ Nat.toDigits 16 n, isRequestIdChar c = true := by
  induction n using Nat.strong_induction_on with
  | _ n ih =>
    by_cases hlt : n < 16
    · rw [Nat.toDigits_of_lt_base hlt]
      intro c hc
      rw [List.mem_singleton.1 hc]
      exact isRequestIdChar_digitChar n hlt
    · rw [Nat.toDigits_of_base_le (by decide) (Nat.le_of_not_lt hlt)]
      intro c hc
      rcases List.mem_append.1 hc with hc | hc
      · exact ih (n / 16) (by omega) c hc
      · rw [List.mem_singleton.1 hc]
        exact isRequestIdChar_digitChar _ (Nat.mod_lt _ (by decide))

theorem hex16_spec (n : UInt64) : (hex16 n).length = 16 ∧ ∀ c ∈ hex16 n, isRequestIdChar c = true := by
  have hlen : (Nat.toDigits 16 n.toNat).length ≤ 16 := by
    refine Nat.toDigits_length 16 _ 16 (by decide) ?_
    exact lt_of_lt_of_eq n.toNat_lt (by decide)
  unfold hex16
  constructor
  · rw [List.length_append, List.length_replicate]
    omega
  · intro c hc
    rcases List.mem_append.1 hc with hc | hc
    · rw [List.eq_of_mem_replicate hc]
      decide
    · exact isRequestIdChar_toDigits _ c hc

theorem generateRequestId_safe (hi lo : UInt64) :
    SafeId (generateRequestId hi lo) ∧ (generateRequestId hi lo).length = 32 := by
  obtain ⟨hhi, hhiChars⟩ := hex16_spec hi
  obtain ⟨hlo, hloChars⟩ := hex16_spec lo
  have hlen : (generateRequestId hi lo).length = 32 := by rw [generateRequestId, List.length_append, hhi, hlo]
  refine ⟨⟨?_, ?_⟩, hlen⟩
  · intro hnil
    rw [hnil] at hlen
    cases hlen
  · rw [List.all_eq_true]
    intro c hc
    exact (List.mem_append.1 hc).elim (hhiChars c) (hloChars c)

theorem isValidRequestId_iff {value : Str} {maxLen : UInt32} :
    isValidRequestId value maxLen = true ↔ SafeId value ∧ value.length ≤ maxLen.toNat := by
  unfold isValidRequestId SafeId
  split
  · next h => simp only [Bool.false_eq_true, false_iff]; grind
  · next h => grind

/-- **The identifier of a session** is safe to echo, and the client's if that is valid. -/
theorem resolveRequestId_spec (incoming : Incoming) (config : SessionConfig) (hi lo : UInt64) :
    SafeId (resolveRequestId incoming config hi lo) ∧
      (resolveRequestId incoming config hi lo).length ≤ max 32 config.requestIdMaxLength.toNat ∧
      (∀ value, incoming.requestId = some value → SafeId value → value.length ≤ config.requestIdMaxLength.toNat →
        resolveRequestId incoming config hi lo = value) := by
  unfold resolveRequestId
  by_cases hvalid : isValidRequestId (incoming.requestId.getD []) config.requestIdMaxLength = true
  · obtain ⟨hsafe, hlen⟩ := isValidRequestId_iff.1 hvalid
    simp only [hvalid, if_true]
    refine ⟨hsafe, le_max_of_le_right hlen, ?_⟩
    intro value hvalue _ _
    rw [hvalue]
    rfl
  · obtain ⟨hsafe, hlen⟩ := generateRequestId_safe hi lo
    simp only [hvalid, if_false, Bool.false_eq_true]
    refine ⟨hsafe, le_max_of_le_left hlen.le, ?_⟩
    intro value hvalue hs hle
    rw [hvalue] at hvalid
    exact absurd (isValidRequestId_iff.2 ⟨hs, hle⟩) hvalid

end UrlShortener

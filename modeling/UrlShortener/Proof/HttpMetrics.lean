import UrlShortener.Proof.RequestIds
import UrlShortener.Calls.Tally
import Mathlib.Algebra.BigOperators.Group.Finset.Piecewise

/-!
# The registry accounts for every session

Any number of sessions run on one server, and their calls interleave in any order. At every moment each counter of the
registry is the number of sessions that stand at a certain point of their program.

* `At`: the points a session can stand at. `At.step` says what one call leaves.
* `Counts`: a counter that every call moves together with the session that makes it; `Counts.interleave` is the law for
  whole schedules.
* `registry_accounts`: the six counters of the sessions.
-/

namespace UrlShortener

open Calls

/-- What is left to do once the response is there. -/
def finish (incoming : Incoming) (res : Response) : ServerProg Outcome :=
  .call .leave fun _ => .call (.record (metricKeyFor incoming res)) fun _ => .ret (.answered res)

/-- What is left to do once the request has been entered. -/
def answering (config : SessionConfig) (s : Session) (incoming : Incoming) : ServerProg Outcome :=
  s.respond config incoming >>= finish incoming

/-- The request exceeds one of the two limits. -/
def Session.oversized (config : SessionConfig) (s : Session) : Bool :=
  match s.incoming with
  | none => false
  | some incoming =>
    s.gate config incoming == .targetTooLarge || s.gate config incoming == .payloadTooLarge

/-! ## Where a session stands -/

section

variable (config : SessionConfig) (s : Session)

/-- The programs a session can be left with. A response it has at hand carries the identifier it has resolved. -/
inductive At : ServerProg Outcome → Prop
  | shaking (htls : s.isTls = true) (hshake : s.handshake = true) :
    At (.call .handshakeSucceeded fun _ => s.onRead config)
  | rejected (htls : s.isTls = true) (hshake : s.handshake = false) :
    At (.call .handshakeFailed fun _ => .ret .handshakeFailed)
  | unreadable (hread : s.incoming = none) : At (.call .parseError fun _ => .ret .parseError)
  | arriving (incoming : Incoming) (hread : s.incoming = some incoming) :
    At (.call .enter fun _ => answering config s incoming)
  | refusing (incoming : Incoming) (hread : s.incoming = some incoming) (hsize : s.oversized config = true)
      (res : Response) (hid : Carries (resolveRequestId incoming config s.hi s.lo) res) :
    At (.call .malformed fun _ => finish incoming res)
  | handling (incoming : Incoming) (hread : s.incoming = some incoming) (hsize : s.oversized config = false) :
    At (.call (.handle (s.call config incoming)) (finish incoming))
  | leaving (incoming : Incoming) (hread : s.incoming = some incoming) (res : Response)
      (hid : Carries (resolveRequestId incoming config s.hi s.lo) res) : At (finish incoming res)
  | recording (incoming : Incoming) (hread : s.incoming = some incoming) (res : Response)
      (hid : Carries (resolveRequestId incoming config s.hi s.lo) res) :
    At (.call (.record (metricKeyFor incoming res)) fun _ => .ret (.answered res))
  | ended (outcome : Outcome) (houtcome : ∀ res, outcome ≠ .answered res) : At (.ret outcome)
  | answered (incoming : Incoming) (hread : s.incoming = some incoming) (res : Response)
      (hid : Carries (resolveRequestId incoming config s.hi s.lo) res) : At (.ret (.answered res))

end

variable {config : SessionConfig} {s : Session}

/-- The request that the handlers see has the identifier of the session, whatever the client sent. -/
theorem requestIdFromRequest_call (incoming : Incoming) (metrics : Str) :
    requestIdFromRequest { s.call config incoming with env.metrics := metrics } =
      resolveRequestId incoming config s.hi s.lo := by
  obtain ⟨⟨hne, -⟩, -⟩ := resolveRequestId_spec incoming config s.hi s.lo
  unfold requestIdFromRequest Session.call Incoming.request
  cases hid : resolveRequestId incoming config s.hi s.lo with
  | nil => exact absurd hid hne
  | cons c id => rfl

/-- The three ways on from there: too large, answered at once, or handed to the router. -/
theorem answering_cases (config : SessionConfig) {incoming : Incoming} (hread : s.incoming = some incoming) :
    (∃ res, answering config s incoming = .call .malformed (fun _ => finish incoming res) ∧
      s.oversized config = true ∧ Carries (resolveRequestId incoming config s.hi s.lo) res) ∨
    (∃ res, answering config s incoming = finish incoming res ∧
      s.oversized config = false ∧ Carries (resolveRequestId incoming config s.hi s.lo) res) ∨
    answering config s incoming = .call (.handle (s.call config incoming)) (finish incoming) ∧
      s.oversized config = false := by
  have hsize : s.oversized config =
      (s.gate config incoming == .targetTooLarge || s.gate config incoming == .payloadTooLarge) := by
    rw [Session.oversized, hread]
  rw [hsize, ← requestIdFromRequest_call incoming (s.call config incoming).env.metrics]
  unfold answering Session.respond
  cases s.gate config incoming with
  | targetTooLarge => exact .inl ⟨_, rfl, rfl, makeApiErrorResponse_carries ..⟩
  | payloadTooLarge => exact .inl ⟨_, rfl, rfl, makeApiErrorResponse_carries ..⟩
  | redirect => exact .inr (.inl ⟨_, rfl, rfl, makeRedirectResponse_carries ..⟩)
  | pass => exact .inr (.inr ⟨rfl, rfl⟩)

theorem at_answering {incoming : Incoming} (hread : s.incoming = some incoming) :
    At config s (answering config s incoming) := by
  rcases answering_cases config hread with ⟨res, heq, hsize, hid⟩ | ⟨res, heq, -, hid⟩ | ⟨heq, hsize⟩
  · rw [heq]
    exact .refusing incoming hread hsize res hid
  · rw [heq]
    exact .leaving incoming hread res hid
  · rw [heq]
    exact .handling incoming hread hsize

theorem onRead_none (config : SessionConfig) (hread : s.incoming = none) :
    s.onRead config = .call .parseError fun _ => .ret .parseError := by
  unfold Session.onRead
  rw [hread]
  rfl

theorem onRead_some (config : SessionConfig) {incoming : Incoming} (hread : s.incoming = some incoming) :
    s.onRead config = .call .enter fun _ => answering config s incoming := by
  unfold Session.onRead
  rw [hread]
  rfl

theorem at_onRead : At config s (s.onRead config) := by
  cases hread : s.incoming with
  | none =>
    rw [onRead_none config hread]
    exact .unreadable hread
  | some incoming =>
    rw [onRead_some config hread]
    exact .arriving incoming hread

theorem at_run : At config s (s.run config) := by
  unfold Session.run
  split
  · next htls =>
    split
    · next hshake => exact .shaking htls hshake
    · next hshake => exact .rejected htls (Bool.eq_false_of_not_eq_true hshake)
  · exact at_onRead

/-- **What one call leaves.** -/
theorem At.step {c : ServerCall} {k : c.Answer → ServerProg Outcome} (h : At config s (.call c k)) (srv : Server) :
    At config s (k (c.handler srv).1) := by
  cases h with
  | shaking => exact at_onRead
  | rejected => exact .ended _ (by simp)
  | unreadable => exact .ended _ (by simp)
  | arriving incoming hread => exact at_answering hread
  | refusing incoming hread _ res hid => exact .leaving incoming hread res hid
  | handling incoming hread =>
    refine .leaving incoming hread _ ?_
    rw [← requestIdFromRequest_call incoming (renderMetrics srv.metrics)]
    exact handleShortenerRequest_carries ..
  | leaving incoming hread res hid => exact .recording incoming hread res hid
  | recording incoming hread res hid => exact .answered incoming hread res hid

/-! ## Counters that follow the sessions -/

/-- A session that has entered and not left. -/
def isInside : ServerProg Outcome → Bool
  | .call .malformed _ => true
  | .call (.handle _) _ => true
  | .call .leave _ => true
  | _ => false

/-- A session whose request is too large and has been counted as such. -/
def isRefused (config : SessionConfig) (s : Session) : ServerProg Outcome → Bool
  | .call .leave _ => s.oversized config
  | .call (.record _) _ => s.oversized config
  | .ret (.answered _) => s.oversized config
  | _ => false

/-- A session that has been answered and is counted under `key`. -/
def hasRecorded (key : Str) (s : Session) : ServerProg Outcome → Bool
  | .ret (.answered res) => s.incoming.any fun incoming => metricKeyFor incoming res == key
  | _ => false

/-- The session ended before a request was read. -/
def isUnread : ServerProg Outcome → Bool
  | .ret .parseError => true
  | _ => false

/-- The session ended in the handshake. -/
def isRejected : ServerProg Outcome → Bool
  | .ret .handshakeFailed => true
  | _ => false

/-- A TLS session whose handshake has succeeded. -/
def hasShaken (s : Session) : ServerProg Outcome → Bool
  | .call .handshakeSucceeded _ => false
  | _ => s.isTls && s.handshake

/-- A counter that every call moves as it moves the mark of the session that makes it. -/
def Counts (config : SessionConfig) (counter : Server → UInt64) (mark : Session → ServerProg Outcome → Bool) : Prop :=
  ∀ s c k srv, At config s (.call c k) →
    counter (c.handler srv).2 + UInt64.ofNat (mark s (.call c k)).toNat =
      counter srv + UInt64.ofNat (mark s (k (c.handler srv).1)).toNat

variable {ι : Type} [DecidableEq ι]

/-- The sessions at their start. -/
def connections (config : SessionConfig) (sessions : ι → Session) (srv : Server) :
    Pool ServerCall ServerCall.Answer (fun _ : ι => Outcome) Server :=
  ⟨fun i => (sessions i).run config, srv⟩

/-- **The law for whole schedules.** -/
theorem Counts.interleave [Fintype ι] {counter : Server → UInt64} {mark : Session → ServerProg Outcome → Bool}
    (h : Counts config counter mark) {world : World} (hzero : counter { world := world } = 0)
    (hstart : ∀ s : Session, mark s (s.run config) = false) (sessions : ι → Session) (schedule : List ι) :
    let P := (connections config sessions { world := world }).interleave ServerCall.handler schedule
    counter P.state = UInt64.ofNat (Finset.univ.filter fun i => mark (sessions i) (P.prog i) = true).card := by
  have hsum : ∀ progs : ι → ServerProg Outcome,
      (Finset.univ.filter fun i => mark (sessions i) (progs i) = true).card =
        ∑ i, (mark (sessions i) (progs i)).toNat := by
    intro progs
    rw [Finset.card_filter]
    refine Finset.sum_congr rfl fun i _ => ?_
    cases mark (sessions i) (progs i) <;> rfl
  intro P
  rw [hsum]
  refine Pool.interleave_tally (fun srv n => counter srv = UInt64.ofNat n) (fun i p => (mark (sessions i) p).toNat)
    (fun i p => At config (sessions i) p) (fun i c k srv hat => hat.step srv) ?_ (fun i => at_run) ?_ schedule
  · intro i c k srv rest hat hrest
    have hmove := h (sessions i) c k srv hat
    rw [hrest, UInt64.ofNat_add] at hmove
    rw [UInt64.ofNat_add]
    grind
  · simp [connections, hzero, hstart]

section

variable (metrics : MetricsRegistry) (key : Str)

@[simp] theorem record_inflightRequests : (metrics.record key).inflightRequests = metrics.inflightRequests := rfl

@[simp] theorem record_parseErrorsTotal : (metrics.record key).parseErrorsTotal = metrics.parseErrorsTotal := rfl

@[simp] theorem record_malformedRequestsTotal :
    (metrics.record key).malformedRequestsTotal = metrics.malformedRequestsTotal := rfl

/-- How often the key has been recorded. -/
def MetricsRegistry.count : UInt64 := (metrics.httpRequestsTotal.lookup key).getD 0

theorem record_count (key' : Str) :
    (metrics.record key').count key = metrics.count key + UInt64.ofNat (key' == key).toNat := by
  unfold MetricsRegistry.count MetricsRegistry.record
  by_cases h : key' = key
  · subst h
    simp
  · have hne : key ≠ key' := Ne.symm h
    have hbeq : (key' == key) = false := beq_eq_false_iff_ne.2 h
    simp [Finmap.lookup_insert_of_ne _ hne, hbeq]

end

theorem counts_inside : Counts config (fun srv => srv.metrics.inflightRequests) fun _ => isInside := by
  intro s c k srv hat
  cases hat with
  | arriving incoming hread =>
    rcases answering_cases config hread with ⟨res, heq, -⟩ | ⟨res, heq, -⟩ | ⟨heq, -⟩ <;>
      simp [heq, isInside, finish, ServerCall.handler]
  | shaking =>
    cases hread : s.incoming <;> simp [onRead_none, onRead_some, hread, isInside, ServerCall.handler]
  | _ => simp [isInside, finish, ServerCall.handler]

theorem counts_refused : Counts config (fun srv => srv.metrics.malformedRequestsTotal) (isRefused config) := by
  intro s c k srv hat
  cases hat with
  | arriving incoming hread =>
    rcases answering_cases config hread with ⟨res, heq, hsize, -⟩ | ⟨res, heq, hsize, -⟩ | ⟨heq, hsize⟩ <;>
      simp [heq, hsize, isRefused, finish, ServerCall.handler]
  | shaking =>
    cases hread : s.incoming <;> simp [onRead_none, onRead_some, hread, isRefused, ServerCall.handler]
  | refusing _ _ hsize => simp [hsize, isRefused, finish, ServerCall.handler]
  | handling _ _ hsize => simp [hsize, isRefused, finish, ServerCall.handler]
  | _ => simp [isRefused, ServerCall.handler]

theorem counts_recorded (key : Str) : Counts config (fun srv => srv.metrics.count key) (hasRecorded key) := by
  intro s c k srv hat
  cases hat with
  | arriving incoming hread =>
    rcases answering_cases config hread with ⟨res, heq, hsize, -⟩ | ⟨res, heq, hsize, -⟩ | ⟨heq, hsize⟩ <;>
      simp [heq, hasRecorded, finish, ServerCall.handler, MetricsRegistry.count]
  | shaking =>
    cases hread : s.incoming <;>
      simp [onRead_none, onRead_some, hread, hasRecorded, ServerCall.handler, MetricsRegistry.count]
  | recording incoming hread res => simp [hread, hasRecorded, ServerCall.handler, record_count]
  | _ => simp [hasRecorded, finish, ServerCall.handler, MetricsRegistry.count]

theorem counts_unread : Counts config (fun srv => srv.metrics.parseErrorsTotal) fun _ => isUnread := by
  intro s c k srv hat
  cases hat with
  | arriving incoming hread =>
    rcases answering_cases config hread with ⟨res, heq, -⟩ | ⟨res, heq, -⟩ | ⟨heq, -⟩ <;>
      simp [heq, isUnread, finish, ServerCall.handler]
  | shaking =>
    cases hread : s.incoming <;> simp [onRead_none, onRead_some, hread, isUnread, ServerCall.handler]
  | _ => simp [isUnread, finish, ServerCall.handler]

theorem counts_rejected : Counts config (fun srv => srv.tlsHandshakeFailureCount) fun _ => isRejected := by
  intro s c k srv hat
  cases hat with
  | arriving incoming hread =>
    rcases answering_cases config hread with ⟨res, heq, -⟩ | ⟨res, heq, -⟩ | ⟨heq, -⟩ <;>
      simp [heq, isRejected, finish, ServerCall.handler]
  | shaking =>
    cases hread : s.incoming <;> simp [onRead_none, onRead_some, hread, isRejected, ServerCall.handler]
  | _ => simp [isRejected, finish, ServerCall.handler]

theorem counts_shaken : Counts config (fun srv => srv.tlsHandshakeSuccessCount) hasShaken := by
  intro s c k srv hat
  cases hat with
  | arriving incoming hread =>
    rcases answering_cases config hread with ⟨res, heq, -⟩ | ⟨res, heq, -⟩ | ⟨heq, -⟩ <;>
      simp [heq, hasShaken, finish, ServerCall.handler]
  | shaking htls hshake =>
    cases hread : s.incoming <;>
      simp [onRead_none, onRead_some, hread, hasShaken, htls, hshake, ServerCall.handler]
  | _ => simp [hasShaken, finish, ServerCall.handler]

/-! ## The books -/

/-- A session at its start is marked by none of them. -/
theorem run_unmarked (s : Session) (key : Str) :
    isInside (s.run config) = false ∧ isRefused config s (s.run config) = false ∧
      hasRecorded key s (s.run config) = false ∧ isUnread (s.run config) = false ∧
      isRejected (s.run config) = false ∧ hasShaken s (s.run config) = false := by
  unfold Session.run
  cases htls : s.isTls with
  | true =>
    cases hshake : s.handshake with
    | true => exact ⟨rfl, rfl, rfl, rfl, rfl, rfl⟩
    | false =>
      have hnot : (s.isTls && s.handshake) = false := by rw [htls, hshake]; rfl
      exact ⟨rfl, rfl, rfl, rfl, rfl, hnot⟩
  | false =>
    cases hread : s.incoming <;>
      simp [onRead_none, onRead_some, hread, isInside, isRefused, hasRecorded, isUnread, isRejected, hasShaken, htls]

/-- **What the counters say** of the sessions that have run so far. -/
structure Accounts (config : SessionConfig) [Fintype ι] (sessions : ι → Session)
    (P : Pool ServerCall ServerCall.Answer (fun _ : ι => Outcome) Server) : Prop where
  inflight : P.state.metrics.inflightRequests =
    UInt64.ofNat (Finset.univ.filter fun i => isInside (P.prog i) = true).card
  malformed : P.state.metrics.malformedRequestsTotal =
    UInt64.ofNat (Finset.univ.filter fun i => isRefused config (sessions i) (P.prog i) = true).card
  requests : ∀ key, P.state.metrics.count key =
    UInt64.ofNat (Finset.univ.filter fun i => hasRecorded key (sessions i) (P.prog i) = true).card
  parseErrors : P.state.metrics.parseErrorsTotal =
    UInt64.ofNat (Finset.univ.filter fun i => isUnread (P.prog i) = true).card
  handshakeFailures : P.state.tlsHandshakeFailureCount =
    UInt64.ofNat (Finset.univ.filter fun i => isRejected (P.prog i) = true).card
  handshakeSuccesses : P.state.tlsHandshakeSuccessCount =
    UInt64.ofNat (Finset.univ.filter fun i => hasShaken (sessions i) (P.prog i) = true).card

/-- **The registry accounts for every session**, at every moment of every interleaving, whatever is in the stores at the
start. -/
theorem registry_accounts [Fintype ι] (config : SessionConfig) (world : World) (sessions : ι → Session)
    (schedule : List ι) :
    Accounts config sessions
      ((connections config sessions { world := world }).interleave ServerCall.handler schedule) where
  inflight := counts_inside.interleave rfl (fun s => (run_unmarked s []).1) sessions schedule
  malformed := counts_refused.interleave rfl (fun s => (run_unmarked s []).2.1) sessions schedule
  requests key := (counts_recorded key).interleave rfl (fun s => (run_unmarked s key).2.2.1) sessions schedule
  parseErrors := counts_unread.interleave rfl (fun s => (run_unmarked s []).2.2.2.1) sessions schedule
  handshakeFailures := counts_rejected.interleave rfl (fun s => (run_unmarked s []).2.2.2.2.1) sessions schedule
  handshakeSuccesses := counts_shaken.interleave rfl (fun s => (run_unmarked s []).2.2.2.2.2) sessions schedule

/-! ## Identifiers -/

/-- **Every answer carries a safe identifier**, once: the client's own where that is valid. The client's
`X-Internal-Request-Id` plays no part. -/
theorem answers_carry_identifier (config : SessionConfig) (srv : Server) (sessions : ι → Session) (schedule : List ι)
    (i : ι) (res : Response)
    (h : ((connections config sessions srv).interleave ServerCall.handler schedule).prog i = .ret (.answered res)) :
    ∃ incoming id, (sessions i).incoming = some incoming ∧ Carries id res ∧ SafeId id ∧
      id.length ≤ max 32 config.requestIdMaxLength.toNat ∧
      ∀ value, incoming.requestId = some value → SafeId value → value.length ≤ config.requestIdMaxLength.toNat →
        id = value := by
  have hat := Pool.interleave_form (fun i p => At config (sessions i) p) (fun i c k srv hat => hat.step srv)
    (P := connections config sessions srv) (fun i => at_run) schedule i
  rw [h] at hat
  cases hat with
  | ended _ houtcome => exact absurd rfl (houtcome res)
  | answered incoming hread _ hid =>
    obtain ⟨hsafe, hlen, hown⟩ := resolveRequestId_spec incoming config (sessions i).hi (sessions i).lo
    exact ⟨incoming, _, hread, hid, hsafe, hlen, hown⟩

theorem get_isToken : "GET".toList.all isTokenChar = true := by decide

/-- A request that is too long, with an identifier of its own and a forged internal one. -/
def longRequest : Session where
  isTls := false
  incoming := some
    { methodString := "GET", methodToken := get_isToken, target := "/abc"
      requestId := some "client-1", internalRequestId := some "forged" }
  env := .still
  hi := 0
  lo := 0

theorem longRequest_carries :
    ∃ res, ((connections { maxRequestTargetLength := 3 } (fun _ : Unit => longRequest) {}).interleave
        ServerCall.handler [(), (), (), ()]).prog () = .ret (.answered res) ∧
      Carries "client-1" res := by
  refine ⟨_, rfl, ?_⟩
  obtain ⟨incoming, id, hread, hid, -, -, hown⟩ :=
    answers_carry_identifier { maxRequestTargetLength := 3 } {} (fun _ : Unit => longRequest) [(), (), (), ()] () _ rfl
  cases hread
  obtain rfl := hown _ rfl ⟨by decide, by decide⟩ (by decide)
  exact hid

end UrlShortener

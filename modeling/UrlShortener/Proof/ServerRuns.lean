import UrlShortener.Proof.HttpMetrics
import UrlShortener.Proof.Restart

/-!
# The server over the process model

A run of the server does to the stores what a run of the process does: its sessions add limits and the redirect to
HTTPS in front of the router, and no way around it.

* `step_world`: one step leaves the stores as they are, or hands them to the router once.
* `serverAfter_world`: **the stores after a run of the server are those of a run of the process** over the requests
  that were let through, from the same start; `admitted_spec` says what is known of those.
* `uri_store_bounded`: so no entry that a run adds to the URI store exceeds the limits of a request.
* `plain_sessions_invisible`: while plain requests are redirected to HTTPS, the stores are those of the TLS sessions
  alone.
-/

namespace UrlShortener

open Calls

variable {config : SessionConfig} {s : Session} {srv : Server}

/-! ## The text of the metrics -/

theorem run_metrics (handler : Handler) (call : Call) (context : RouteContext) (w : World) (text : Str) :
    (handler.run { call with env.metrics := text } context w).2 = (handler.run call context w).2 := by
  cases handler <;> rfl

/-- The stores do not depend on the text of the metrics. -/
theorem handleShortenerRequest_metrics (call : Call) (w : World) (text : Str) :
    (handleShortenerRequest { call with env.metrics := text } w).2 = (handleShortenerRequest call w).2 := by
  unfold handleShortenerRequest
  cases dispatch applicationRoutes call.req.method call.req.target with
  | invoke handler context => exact run_metrics handler call context w text
  | error status code message => rfl

/-! ## One step -/

/-- The request that the session hands to the router, if it does. -/
def Session.admitted (config : SessionConfig) (s : Session) : Option Incoming :=
  if s.isTls && !s.handshake then none
  else s.incoming.filter fun incoming => s.gate config incoming == .pass

/-- The call that reaches the router in a step, if one does. -/
def ServerOp.call? (config : SessionConfig) : ServerOp → Option Call
  | .session s => (s.admitted config).map (s.call config)
  | .reloadTlsContext _ => none

theorem onRead_world (config : SessionConfig) (s : Session) (srv : Server) :
    ((s.onRead config).run ServerCall.handler srv).2.world =
      match s.incoming.filter fun incoming => s.gate config incoming == .pass with
      | none => srv.world
      | some incoming => (handleShortenerRequest (s.call config incoming) srv.world).2 := by
  cases hread : s.incoming with
  | none =>
    rw [onRead_none config hread]
    rfl
  | some incoming =>
    rw [onRead_some config hread, Option.filter_some]
    unfold answering Session.respond
    cases s.gate config incoming with
    | pass => exact handleShortenerRequest_metrics ..
    | _ => rfl

theorem run_world (config : SessionConfig) (s : Session) (srv : Server) :
    ((s.run config).run ServerCall.handler srv).2.world =
      match s.admitted config with
      | none => srv.world
      | some incoming => (handleShortenerRequest (s.call config incoming) srv.world).2 := by
  unfold Session.run Session.admitted
  cases s.isTls with
  | false => exact onRead_world config s srv
  | true =>
    cases s.handshake with
    | true => exact onRead_world config s _
    | false => rfl

/-- **One step of the server is at most one request to the process.** -/
theorem step_world (config : SessionConfig) (op : ServerOp) (srv : Server) :
    (Server.step config op srv).world =
      match op.call? config with
      | none => srv.world
      | some call => (step (.request call) srv.world).2 := by
  cases op with
  | reloadTlsContext built =>
    show (srv.reloadTlsContext config built).world = srv.world
    unfold Server.reloadTlsContext
    split
    · rfl
    · split <;> rfl
  | session session =>
    refine (run_world config session srv).trans ?_
    simp only [ServerOp.call?]
    cases session.admitted config <;> rfl

/-! ## Runs -/

/-- **The server refines the process.** -/
theorem serverAfter_world (config : SessionConfig) (uris : UriMap) (ops : List ServerOp) :
    (serverAfter config uris ops).world = Runs.after (fun op w => (step op w).2) { uris := uris }
      ((ops.filterMap (ServerOp.call? config)).map .request) := by
  suffices H : ∀ srv : Server, (Runs.after (Server.step config) srv ops).world =
      Runs.after (fun op w => (step op w).2) srv.world ((ops.filterMap (ServerOp.call? config)).map .request) from
    H { world := { uris := uris } }
  intro srv
  induction ops generalizing srv with
  | nil => rfl
  | cons op ops ih =>
    rw [Runs.after_cons, ih, step_world]
    cases hcall : op.call? config with
    | none => rw [List.filterMap_cons_none hcall]
    | some call => rw [List.filterMap_cons_some hcall, List.map_cons, Runs.after_cons]

/-- What is known of a request that reaches the router. -/
structure Admitted (config : SessionConfig) (call : Call) : Prop where
  config_eq : call.config = config.toServerConfig
  target : call.req.target.length ≤ config.maxRequestTargetLength.toNat
  body : call.req.body.length ≤ config.maxRequestBodyBytes.toNat
  tls : config.httpRedirectToHttps = true → config.tlsEnabled = true → call.isTls = true

theorem gate_pass {incoming : Incoming} (h : s.gate config incoming = .pass) :
    Admitted config (s.call config incoming) := by
  unfold Session.gate at h
  split at h
  · cases h
  next htarget =>
  split at h
  · cases h
  next hbody =>
  split at h
  · cases h
  next hredirect =>
  refine ⟨rfl, Nat.le_of_not_lt htarget, Nat.le_of_not_lt hbody, ?_⟩
  intro hon htls
  show s.isTls = true
  simpa [hon, htls] using hredirect

/-- What the limits say of an admitted request. -/
theorem admitted_spec {op : ServerOp} {call : Call} (h : op.call? config = some call) : Admitted config call := by
  cases op with
  | reloadTlsContext built => cases h
  | session s =>
    obtain ⟨incoming, hadm, rfl⟩ := Option.map_eq_some_iff.1 h
    unfold Session.admitted at hadm
    split at hadm
    · cases hadm
    · obtain ⟨-, hgate⟩ := Option.filter_eq_some_iff.1 hadm
      exact gate_pass (beq_iff_eq.1 hgate)

/-- The entry is within the limits of a request. -/
def Bounded (config : SessionConfig) (uri : Str) (entry : Str × Str) : Prop :=
  uri.length ≤ config.maxRequestTargetLength.toNat ∧ entry.1.length ≤ config.maxRequestBodyBytes.toNat

instance (config : SessionConfig) (uri : Str) (entry : Str × Str) : Decidable (Bounded config uri entry) :=
  inferInstanceAs (Decidable (_ ∧ _))

/-- **No entry of the URI store exceeds the limits of a request**, if none did at the start. -/
theorem uri_store_bounded (config : SessionConfig) (uris : UriMap) (ops : List ServerOp)
    (hstart : ∀ uri entry, uris.lookup uri = some entry → Bounded config uri entry) (uri : Str) (entry : Str × Str)
    (h : (serverAfter config uris ops).world.uris.lookup uri = some entry) : Bounded config uri entry := by
  rw [serverAfter_world] at h
  rcases after_uris_saved _ _ uri entry h with hold | ⟨op, hop, hsaved⟩
  · exact hstart uri entry hold
  obtain ⟨call, hcall, rfl⟩ := List.mem_map.1 hop
  obtain ⟨sop, -, hsop⟩ := List.mem_filterMap.1 hcall
  have hadm : Admitted config call := admitted_spec hsop
  simp only [Op.savedEntry] at hsaved
  split at hsaved
  · split at hsaved
    · cases hsaved
    · cases hsaved
      exact ⟨hadm.target, hadm.body⟩
  · cases hsaved

theorem post_isToken : "POST".toList.all isTokenChar = true := by decide

/-- `POST /foo` on the plain listener. -/
def postFoo : Session where
  isTls := false
  incoming := some
    { methodString := "POST", methodToken := post_isToken, target := "/foo", body := "x" }
  env := .still
  hi := 0
  lo := 0

/-- A store with one entry, as a start may load it. -/
def loadedUris : UriMap := Finmap.singleton " /bar" (" y", " text/plain")

/-- An entry that was loaded and one that is saved. -/
theorem uri_store_bounded_foo :
    (serverAfter {} loadedUris [.session postFoo]).world.uris.lookup "/foo".toList =
        some ("x".toList, "application/octet-stream".toList) ∧
      ∀ uri entry, (serverAfter {} loadedUris [.session postFoo]).world.uris.lookup uri = some entry →
        Bounded {} uri entry := by
  refine ⟨by decide +kernel, uri_store_bounded {} loadedUris [.session postFoo] ?_⟩
  intro uri entry h
  by_cases huri : uri = " /bar".toList
  · have hentry : loadedUris.lookup " /bar".toList = some (" y".toList, " text/plain".toList) := rfl
    rw [huri, hentry] at h
    rw [huri, ← Option.some.inj h]
    decide
  · rw [Finmap.lookup_eq_none.2 (by simpa [loadedUris] using huri)] at h
    cases h

/-! ## Plain requests that are redirected -/

/-- A session of the TLS listener, or no session. -/
def ServerOp.isTls : ServerOp → Bool
  | .session s => s.isTls
  | .reloadTlsContext _ => true

/-- **While plain requests are redirected they are invisible to the stores**: these are what the TLS sessions alone
make of them. -/
theorem plain_sessions_invisible (config : SessionConfig) (hredirect : config.httpRedirectToHttps = true)
    (htls : config.tlsEnabled = true) (uris : UriMap) (ops : List ServerOp) :
    (serverAfter config uris ops).world = (serverAfter config uris (ops.filter ServerOp.isTls)).world := by
  have hskip : ∀ op : ServerOp, op.isTls = false → op.call? config = none := by
    intro op hop
    rw [Option.eq_none_iff_forall_ne_some]
    intro call hcall
    have hside : call.isTls = true := (admitted_spec hcall).tls hredirect htls
    cases op with
    | reloadTlsContext built => cases hcall
    | session s =>
      obtain ⟨incoming, -, rfl⟩ := Option.map_eq_some_iff.1 hcall
      exact Bool.false_ne_true (hop.symm.trans hside)
  have hcalls : ops.filterMap (ServerOp.call? config) =
      (ops.filter ServerOp.isTls).filterMap (ServerOp.call? config) := by
    rw [List.filterMap_filter]
    refine List.filterMap_congr fun op _ => ?_
    cases hop : op.isTls with
    | true => rfl
    | false => exact hskip op hop
  rw [serverAfter_world, serverAfter_world, hcalls]

/-- A plain `POST /foo` is redirected and not saved, while the same request over TLS would be. -/
theorem plain_sessions_invisible_foo :
    let config : SessionConfig := { httpRedirectToHttps := true, tlsEnabled := true }
    (serverAfter config loadedUris [.session postFoo]).world = (serverAfter config loadedUris []).world ∧
      (serverAfter config loadedUris [.session { postFoo with isTls := true }]).world.uris.lookup "/foo".toList =
        some ("x".toList, "application/octet-stream".toList) := by
  intro config
  refine ⟨plain_sessions_invisible config rfl rfl loadedUris [.session postFoo], ?_⟩
  decide +kernel

end UrlShortener

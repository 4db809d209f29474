import UrlShortener.Proof.ServerRuns
import UrlShortener.Proof.ViewJson

/-!
# Reading the metrics back

The text of `/metrics` is scraped by other programs. It determines the registry, and the key of each counter determines
what is counted under it.

* `metricKey_inj`: a key determines the method, the route label and the class of the status.
* `KeyedByRequests.run`: every key of the registry is the key of a request.
* `metrics_text_readable`: **two servers with the same text have the same counters**, and no counter is shared.
-/

namespace UrlShortener

open Text Calls

/-! ## Keys -/

theorem routeLabelForTarget_mem (target : Str) :
    routeLabelForTarget target ∈ ["metrics", "healthz", "readyz", "redirect_prefixed", "api_links", "redirect_root",
      "app"].map String.toList := by
  unfold routeLabelForTarget
  split
  · decide
  split
  · decide
  split
  · decide
  split
  · decide
  split
  · decide
  split
  · decide
  · decide

theorem routeLabel_plain : (["metrics", "healthz", "readyz", "redirect_prefixed", "api_links", "redirect_root",
    "app"].map String.toList).all (fun l => l.all fun c => c != ',' && c != '}') = true := by decide

theorem routeLabel_free (target : Str) : ',' ∉ routeLabelForTarget target ∧ '}' ∉ routeLabelForTarget target := by
  have hall := List.all_eq_true.1 routeLabel_plain _ (routeLabelForTarget_mem target)
  have hchar : ∀ c ∈ routeLabelForTarget target, c ≠ ',' ∧ c ≠ '}' := by
    intro c hc
    simpa using List.all_eq_true.1 hall c hc
  exact ⟨fun h => (hchar _ h).1 rfl, fun h => (hchar _ h).2 rfl⟩

theorem token_free {method : Str} (h : method.all isTokenChar = true) : ',' ∉ method ∧ '}' ∉ method := by
  have hcomma : isTokenChar ',' = false := by decide
  have hbrace : isTokenChar '}' = false := by decide
  constructor
  · intro hmem
    rw [List.all_eq_true.1 h _ hmem] at hcomma
    cases hcomma
  · intro hmem
    rw [List.all_eq_true.1 h _ hmem] at hbrace
    cases hbrace

/-- **A key determines what it counts.** -/
theorem metricKey_inj {method method' label label' : Str} {status status' : ℕ} (hmethod : ',' ∉ method)
    (hmethod' : ',' ∉ method') (hlabel : ',' ∉ label) (hlabel' : ',' ∉ label')
    (h : metricKey method label status = metricKey method' label' status') :
    method = method' ∧ label = label' ∧ status / 100 = status' / 100 := by
  have hshape : ∀ (m l : Str) (n : ℕ), metricKey m l n =
      "method=" ++ (m ++ ',' :: ("route=" ++ (l ++ ',' :: ("status_class=" ++
        (decimal (n / 100) ++ "xx"))))) := by
    -- the words are abstracted, so that nothing looks into them
    have hassoc : ∀ a m b l c d e : Str, a ++ m ++ (',' :: b) ++ l ++ (',' :: c) ++ (d ++ e) =
        a ++ (m ++ ',' :: (b ++ (l ++ ',' :: (c ++ (d ++ e))))) := by
      intro a m b l c d e
      simp
    exact fun m l n => hassoc _ m "route=" l "status_class=" _ _
  rw [hshape, hshape] at h
  obtain ⟨hm, htail⟩ := append_cons_inj hmethod hmethod' (List.append_cancel_left h)
  obtain ⟨hl, hend⟩ := append_cons_inj hlabel hlabel' (List.append_cancel_left htail)
  have hdigits := List.append_cancel_right (List.append_cancel_left hend)
  exact ⟨hm, hl, decimal_injective hdigits⟩

theorem metricKeyFor_free (incoming : Incoming) (res : Response) : '}' ∉ metricKeyFor incoming res := by
  have hmethod := (token_free incoming.methodToken).2
  have hlabel := (routeLabel_free incoming.target).2
  have hdigits : '}' ∉ decimal (res.status / 100) := fun h => absurd (decimal_isDigit h) (by decide)
  unfold metricKeyFor metricKey statusClass
  simp only [List.mem_append, not_or]
  exact ⟨⟨⟨⟨⟨by decide, hmethod⟩, by decide⟩, hlabel⟩, by decide⟩, hdigits, by decide⟩

/-! ## Lines -/

/-- A number is read up to the end of its line. -/
theorem number_line_inj {lit r s : Str} {a b : ℕ}
    (h : lit ++ (decimal a ++ '\n' :: r) = lit ++ (decimal b ++ '\n' :: s)) : a = b ∧ r = s := by
  have hnewline : ∀ r : Str, Leaves Char.isDigit ('\n' :: r) := by
    intro r c hc
    cases hc
    decide
  obtain ⟨hvalue, hrest⟩ := decimal_code (hnewline r) (hnewline s) (List.append_cancel_left h)
  exact ⟨hvalue, (List.cons.inj hrest).2⟩

/-- The line of one counter. -/
def metricLine (p : Str × ℕ) : Str :=
  "http_requests_total\x7b" ++ p.1 ++ "\x7d " ++ decimal p.2 ++ ['\n']

theorem metricLine_inj {p q : Str × ℕ} {r s : Str} (hp : '}' ∉ p.1) (hq : '}' ∉ q.1)
    (h : metricLine p ++ r = metricLine q ++ s) : p = q ∧ r = s := by
  have hshape : ∀ (p : Str × ℕ) (r : Str), metricLine p ++ r =
      "http_requests_total\x7b" ++ (p.1 ++ '}' :: ([' '] ++ (decimal p.2 ++ '\n' :: r))) := by
    have hassoc : ∀ a k b v r : Str, a ++ k ++ ('}' :: b) ++ v ++ ['\n'] ++ r =
        a ++ (k ++ '}' :: (b ++ (v ++ '\n' :: r))) := by
      intro a k b v r
      simp
    exact fun p r => hassoc _ p.1 [' '] _ r
  rw [hshape, hshape] at h
  obtain ⟨hkey, htail⟩ := append_cons_inj hp hq (List.append_cancel_left h)
  obtain ⟨hvalue, hrest⟩ := number_line_inj htail
  exact ⟨Prod.ext hkey hvalue, hrest⟩

theorem metricLines_inj {l m : List (Str × ℕ)} (hl : ∀ p ∈ l, '}' ∉ p.1) (hm : ∀ p ∈ m, '}' ∉ p.1)
    (h : l.flatMap metricLine = m.flatMap metricLine) : l = m := by
  have hne : ∀ (p : Str × ℕ) (r : Str), metricLine p ++ r ≠ [] := by
    intro p r hnil
    have hlast := (List.append_eq_nil_iff.1 (List.append_eq_nil_iff.1 hnil).1).2
    cases hlast
  induction l generalizing m with
  | nil =>
    cases m with
    | nil => rfl
    | cons q m => exact absurd h.symm (hne q _)
  | cons p l ih =>
    cases m with
    | nil => exact absurd h (hne p _)
    | cons q m =>
      rw [List.flatMap_cons, List.flatMap_cons] at h
      obtain ⟨rfl, hrest⟩ := metricLine_inj (hl p List.mem_cons_self) (hm q List.mem_cons_self) h
      have htail : l = m := ih (fun p hp => hl p (List.mem_cons_of_mem _ hp))
        (fun p hp => hm p (List.mem_cons_of_mem _ hp)) hrest
      rw [htail]

/-! ## The registry -/

theorem sortedCounts_entries (counts : UnorderedMap Str UInt64) :
    (sortedCounts counts : Multiset (Str × ℕ)) = counts.entries.map fun e => (e.1, e.2.toNat) := by
  rw [sortedCounts, ← Multiset.map_coe, Multiset.sort_eq, Multiset.map_map]
  rfl

theorem sortedCounts_injective : Function.Injective sortedCounts := by
  intro m m' h
  refine Finmap.ext_iff.2 ?_
  have hmap : m.entries.map (fun e => (e.1, e.2.toNat)) = m'.entries.map fun e => (e.1, e.2.toNat) := by
    rw [← sortedCounts_entries, ← sortedCounts_entries, h]
  refine Multiset.map_injective (f := fun e : (_ : Str) × UInt64 => (e.1, e.2.toNat)) ?_ hmap
  rintro ⟨k, v⟩ ⟨k', v'⟩ heq
  obtain ⟨hk, hv⟩ := Prod.mk.inj heq
  obtain rfl : k = k' := hk
  obtain rfl : v = v' := UInt64.toNat_inj.1 hv
  rfl

theorem mem_sortedCounts {counts : UnorderedMap Str UInt64} {p : Str × ℕ} (h : p ∈ sortedCounts counts) :
    p.1 ∈ counts := by
  have hmem : p ∈ counts.entries.map fun e => (e.1, e.2.toNat) := by
    rw [← sortedCounts_entries]
    exact Multiset.mem_coe.2 h
  obtain ⟨e, he, rfl⟩ := Multiset.mem_map.1 hmem
  exact Finmap.mem_def.2 (Multiset.mem_map.2 ⟨e, he, rfl⟩)

/-- Every key of the registry is the key of a request. -/
def KeyedByRequests (metrics : MetricsRegistry) : Prop :=
  ∀ key ∈ metrics.httpRequestsTotal, ∃ incoming res, key = metricKeyFor incoming res

theorem KeyedByRequests.free {m : MetricsRegistry} (hm : KeyedByRequests m) :
    ∀ p ∈ sortedCounts m.httpRequestsTotal, '}' ∉ p.1 := by
  intro p hp
  obtain ⟨incoming, res, hkey⟩ := hm _ (mem_sortedCounts hp)
  rw [hkey]
  exact metricKeyFor_free incoming res

/-- The text, its words and numbers taken apart. -/
theorem renderMetrics_shape (m : MetricsRegistry) :
    renderMetrics m =
      "http_inflight_requests " ++ (decimal m.inflightRequests.toNat ++ '\n' ::
      ("http_parse_errors_total " ++ (decimal m.parseErrorsTotal.toNat ++ '\n' ::
      ("http_malformed_requests_total " ++ (decimal m.malformedRequestsTotal.toNat ++ '\n' ::
      ("tls_reload_success_total " ++ (decimal m.tlsReloadSuccessTotal.toNat ++ '\n' ::
      ("tls_reload_failure_total " ++ (decimal m.tlsReloadFailureTotal.toNat ++ '\n' ::
      (sortedCounts m.httpRequestsTotal).flatMap metricLine))))))))) := by
  have hassoc : ∀ a v b w c x d y e z r : Str,
      a ++ v ++ ['\n'] ++ b ++ w ++ ['\n'] ++ c ++ x ++ ['\n'] ++ d ++ y ++ ['\n'] ++ e ++ z ++ ['\n'] ++ r =
        a ++ (v ++ '\n' :: (b ++ (w ++ '\n' :: (c ++ (x ++ '\n' :: (d ++ (y ++ '\n' ::
          (e ++ (z ++ '\n' :: r))))))))) := by
    intros
    simp
  exact hassoc ..

/-- **The text determines the registry.** -/
theorem renderMetrics_inj {m m' : MetricsRegistry} (hm : KeyedByRequests m) (hm' : KeyedByRequests m')
    (h : renderMetrics m = renderMetrics m') : m = m' := by
  rw [renderMetrics_shape, renderMetrics_shape] at h
  obtain ⟨hinflight, h1⟩ := number_line_inj h
  obtain ⟨hparse, h2⟩ := number_line_inj h1
  obtain ⟨hmalformed, h3⟩ := number_line_inj h2
  obtain ⟨hsuccess, h4⟩ := number_line_inj h3
  obtain ⟨hfailure, h5⟩ := number_line_inj h4
  have hcounts := sortedCounts_injective (metricLines_inj hm.free hm'.free h5)
  cases m
  cases m'
  simp only [MetricsRegistry.mk.injEq]
  exact ⟨UInt64.toNat_inj.1 hinflight, UInt64.toNat_inj.1 hparse, UInt64.toNat_inj.1 hmalformed,
    UInt64.toNat_inj.1 hsuccess, UInt64.toNat_inj.1 hfailure, hcounts⟩

/-! ## Runs -/

theorem KeyedByRequests.record {m : MetricsRegistry} (h : KeyedByRequests m) (incoming : Incoming) (res : Response) :
    KeyedByRequests (m.record (metricKeyFor incoming res)) := by
  intro key hkey
  rcases Finmap.mem_insert.1 hkey with rfl | hold
  · exact ⟨incoming, res, rfl⟩
  · exact h key hold

/-- A session counts under the key of its request. -/
theorem KeyedByRequests.run {srv : Server} (h : KeyedByRequests srv.metrics) (config : SessionConfig) (s : Session) :
    KeyedByRequests ((s.run config).run ServerCall.handler srv).2.metrics := by
  refine (Prog.run_invariant (I := fun p (srv : Server) => At config s p ∧ KeyedByRequests srv.metrics) ?_
    ⟨at_run, h⟩).2
  rintro c k srv ⟨hat, hkeys⟩
  refine ⟨hat.step srv, ?_⟩
  cases hat with
  | recording incoming hread res hid => exact hkeys.record incoming res
  | _ => exact hkeys

theorem serverAfter_keyed (config : SessionConfig) (uris : UriMap) (ops : List ServerOp) :
    KeyedByRequests (serverAfter config uris ops).metrics := by
  refine Runs.after_invariant (P := fun srv : Server => KeyedByRequests srv.metrics) ?_ ?_ ops
  · intro op srv h
    cases op with
    | session s => exact h.run config s
    | reloadTlsContext built =>
      show KeyedByRequests (srv.reloadTlsContext config built).metrics
      unfold Server.reloadTlsContext
      split
      · exact h
      · split <;> exact h
  · intro key hkey
    exact absurd hkey Finmap.notMem_empty

/-- **A scrape can be read back.** Two servers with the same text have the same counters, and what a counter counts can
be told from its key. -/
theorem metrics_text_readable (config config' : SessionConfig) (uris uris' : UriMap) (ops ops' : List ServerOp)
    (h : renderMetrics (serverAfter config uris ops).metrics = renderMetrics (serverAfter config' uris' ops').metrics) :
    (serverAfter config uris ops).metrics = (serverAfter config' uris' ops').metrics ∧
      ∀ key ∈ (serverAfter config uris ops).metrics.httpRequestsTotal,
        (∃ incoming res, key = metricKeyFor incoming res) ∧
        ∀ (incoming incoming' : Incoming) (res res' : Response),
          key = metricKeyFor incoming res → key = metricKeyFor incoming' res' →
          incoming.methodString = incoming'.methodString ∧
            routeLabelForTarget incoming.target = routeLabelForTarget incoming'.target ∧
            res.status / 100 = res'.status / 100 := by
  refine ⟨renderMetrics_inj (serverAfter_keyed config uris ops) (serverAfter_keyed config' uris' ops') h, ?_⟩
  intro key hkey
  refine ⟨serverAfter_keyed config uris ops key hkey, ?_⟩
  intro incoming incoming' res res' heq heq'
  exact metricKey_inj (token_free incoming.methodToken).1 (token_free incoming'.methodToken).1
    (routeLabel_free incoming.target).1 (routeLabel_free incoming'.target).1 (heq.symm.trans heq')

/-- `GET` of the target on the plain listener. -/
def visitSession (target : Str) : Session :=
  { longRequest with
    incoming := some { methodString := "GET", methodToken := get_isToken, target := target } }

/-- A visit that finds nothing and a `POST`, in two orders and with different visits: the texts are the same, and the
key of the visits says what they were. -/
theorem metrics_text_readable_visits :
    let srv := serverAfter {} ∅ [.session (visitSession "/abc".toList), .session postFoo]
    let srv' := serverAfter {} ∅ [.session postFoo, .session (visitSession "/xyz".toList)]
    let key := "method=GET,route=redirect_root,status_class=4xx".toList
    srv.metrics = srv'.metrics ∧ srv.metrics.count key = 1 ∧
      ∀ incoming res, key = metricKeyFor incoming res →
        incoming.methodString = "GET".toList ∧ res.status / 100 = 4 := by
  intro srv srv' key
  have hcounts : srv.metrics = srv'.metrics := by
    refine MetricsRegistry.ext ?_ ?_ ?_ ?_ ?_ ?_ <;> decide +kernel
  obtain ⟨hsame, hkeys⟩ := metrics_text_readable {} {} ∅ ∅ [.session (visitSession "/abc".toList), .session postFoo]
    [.session postFoo, .session (visitSession "/xyz".toList)] (congrArg renderMetrics hcounts)
  have hkey : key ∈ srv.metrics.httpRequestsTotal := by decide +kernel
  refine ⟨hsame, by decide +kernel, fun incoming res hread => ?_⟩
  obtain ⟨hmethod, -, hstatus⟩ := (hkeys key hkey).2 incoming
    { methodString := "GET".toList, methodToken := get_isToken, target := "/abc".toList } res
    ⟨404, [], []⟩ hread (by decide +kernel)
  exact ⟨hmethod, hstatus⟩

end UrlShortener

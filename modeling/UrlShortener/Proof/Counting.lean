import UrlShortener.Proof.Redirects

/-!
# Counting redirects

A redirect is counted twice: in the statistics of its link, by a write-back of the whole record, and as a
click event.

* `step_clicks`: the events an operation appends.
* `Effect.totalRedirects`: what an operation does to the counter of a link.
* `redirects_counted`: **both counts are the number of redirects to the slug**, and nothing else changes
  the counter.
-/

namespace UrlShortener

open Runs

variable {call : Call} {context : RouteContext} {op : Op} {w : World} {cat cat' : Catalog} {a : Answer}
  {s : Str} {l : Link}

instance (call : Call) (s : Str) : Decidable (RedirectRequest call s) :=
  inferInstanceAs (Decidable (_ ∧ (_ ∧ _ ∨ _)))

instance (res : Response) : Decidable res.Redirects :=
  inferInstanceAs (Decidable (_ ∨ _))

/-- The operation is a redirect request for `s` and is answered by a redirect. -/
def redirectsTo (s : Str) (op : Op) (w : World) : Bool :=
  match op with
  | .command _ _ _ => false
  | .request call => decide (RedirectRequest call s) && decide (handleShortenerRequest call w).1.Redirects

/-- **The number of redirects to `s`** in a run from `w`. -/
def redirectCount (s : Str) (w : World) : List Op → ℕ
  | [] => 0
  | op :: ops => (if redirectsTo s op w then 1 else 0) + redirectCount s (step op w).2 ops

/-- A click event of a redirect to `s`. -/
def ClickEvent.isRedirectTo (s : Str) (e : ClickEvent) : Bool :=
  e.slug == s && (300 ≤ e.statusCode && e.statusCode < 400)

/-- The number of click events of `s` with a 3xx status. -/
def redirectClicks (s : Str) (w : World) : ℕ := w.clicks.countP (·.isRedirectTo s)

/-! ## Click events -/

theorem emitClickEvent_clicks (slug : Str) (link : Option Link) (status : ℕ) (now : TimePoint)
    (ha : call.config.analyticsEnabled = true) :
    ∃ e, (emitClickEvent call slug link status now w).clicks = w.clicks ++ [e] ∧ e.slug = slug ∧
      e.statusCode = status := by
  unfold emitClickEvent
  rw [ha]
  exact ⟨_, rfl, rfl, rfl⟩

/-- An event of a refused request does not count. -/
theorem redirectClicks_emit_refused {slug : Str} {link : Option Link} {status : ℕ} {now : TimePoint}
    (h : status = 404 ∨ status = 410) :
    redirectClicks s (emitClickEvent call slug link status now w) = redirectClicks s w := by
  cases ha : call.config.analyticsEnabled with
  | false => simp [emitClickEvent, ha]
  | true =>
    obtain ⟨e, he, -, hstatus⟩ := emitClickEvent_clicks (w := w) slug link status now ha
    have hno : e.isRedirectTo s = false := by
      unfold ClickEvent.isRedirectTo
      rcases h with rfl | rfl <;> simp [hstatus]
    unfold redirectClicks
    rw [he, List.countP_append, List.countP_singleton, hno]
    rfl

theorem redirectClicks_emit_redirect {slug : Str} {now : TimePoint}
    (ha : call.config.analyticsEnabled = true) :
    redirectClicks s (emitClickEvent call slug (some l) (redirectStatusFor l) now w) =
      redirectClicks s w + if slug = s then 1 else 0 := by
  obtain ⟨e, he, hslug, hstatus⟩ :=
    emitClickEvent_clicks (w := w) slug (some l) (redirectStatusFor l) now ha
  have hyes : e.isRedirectTo s = decide (slug = s) := by
    unfold ClickEvent.isRedirectTo
    rw [hslug, hstatus]
    rcases redirectStatusFor_eq l with hs | hs <;> simp [hs, beq_eq_decide]
  unfold redirectClicks
  rw [he, List.countP_append, List.countP_singleton, hyes]
  simp

theorem redirectClicks_linkStateError (slug : Str) (link : Option Link) :
    redirectClicks s (linkStateError call slug link w).2 = redirectClicks s w := by
  unfold linkStateError
  simp only
  split
  all_goals first
    | exact redirectClicks_emit_refused (.inl rfl)
    | exact redirectClicks_emit_refused (.inr rfl)

/-- Serving a slug appends a redirect event exactly if it redirects. -/
theorem redirectClicks_serveLink (ha : call.config.analyticsEnabled = true) (slug : Str) :
    redirectClicks s (serveLink call slug w).2 =
      redirectClicks s w + if slug = s ∧ (serveLink call slug w).1.Redirects then 1 else 0 := by
  unfold serveLink
  split
  · rw [redirectClicks_linkStateError, if_neg fun h => linkStateError_not_redirects _ _ h.2]
    rfl
  · rename_i link st hget
    split
    · rw [redirectClicks_linkStateError, if_neg fun h => linkStateError_not_redirects _ _ h.2]
      rfl
    · simp only [passwordGuardCheck, rateLimitGuardAllow, Bool.not_true, Bool.or_self, Bool.false_eq_true,
        if_false, redirectResponse_redirects, and_true]
      exact redirectClicks_emit_redirect ha

theorem handleApplicationRequest_clicks (call : Call) (w : World) :
    (handleApplicationRequest call w).2.clicks = w.clicks := by
  unfold handleApplicationRequest
  simp only
  split
  · split <;> rfl
  · rfl
  · split <;> rfl
  · rfl

/-- Only the two redirect handlers emit events. -/
theorem run_clicks {handler : Handler} (hroot : handler ≠ .rootRedirect) (hpre : handler ≠ .prefixedRedirect) :
    (handler.run call context w).2.clicks = w.clicks := by
  by_cases hfallback : handler = .fallbackUriStore
  · subst hfallback
    simp only [Handler.run, handleFallbackUriStore]
    split
    · rfl
    · exact handleApplicationRequest_clicks call w
  · have hself : handler.run call context w = _ := run_links_only hroot hpre hfallback w w.uris
    rw [hself]

/-- The two redirect handlers emit a redirect event for the slug they redirect to. -/
theorem redirectClicks_run {handler : Handler} (ha : call.config.analyticsEnabled = true)
    (hd : dispatch applicationRoutes call.req.method call.req.target = .invoke handler context)
    (hh : handler = .rootRedirect ∨ handler = .prefixedRedirect) :
    redirectClicks s (handler.run call context w).2 =
      redirectClicks s w +
        if RedirectRequest call s ∧ (handler.run call context w).1.Redirects then 1 else 0 := by
  have hserve : ∀ slug, RedirectRequest call slug →
      redirectClicks s (serveLink call slug w).2 =
        redirectClicks s w +
          if RedirectRequest call s ∧ (serveLink call slug w).1.Redirects then 1 else 0 := by
    intro slug hreq
    have hiff : slug = s ↔ RedirectRequest call s :=
      ⟨fun h => h ▸ hreq, fun h => hreq.slug_unique h⟩
    rw [redirectClicks_serveLink ha slug]
    simp only [hiff]
  have hfall : redirectClicks s (handleApplicationRequest call w).2 =
      redirectClicks s w +
        if RedirectRequest call s ∧ (handleApplicationRequest call w).1.Redirects then 1 else 0 := by
    rw [if_neg fun h => handleApplicationRequest_not_redirects call w h.2]
    unfold redirectClicks
    rw [handleApplicationRequest_clicks]
    rfl
  rcases hh with rfl | rfl
  · obtain ⟨hmethod, hseg, hquery⟩ := rootRedirect_invoke hd
    simp only [Handler.run, handleRootRedirect]
    split
    · exact hfall
    · split
      · exact hfall
      · rename_i hq
        split
        · exact hfall
        · exact hserve _ ⟨hmethod, .inl ⟨hseg, hquery.trans (not_not.1 hq)⟩⟩
  · obtain ⟨hmethod, hseg⟩ := prefixedRedirect_invoke hd
    simp only [Handler.run, handlePrefixedRedirect]
    split
    · rw [redirectClicks_emit_refused (.inl rfl), if_neg]
      · rfl
      · simp [Response.Redirects]
    · exact hserve _ ⟨hmethod, .inr hseg⟩

/-- **The events of one operation**: one redirect event of `s` if it redirects to `s`, and none otherwise. -/
theorem step_clicks (h : Represents w.links cat)
    (ha : ∀ call, op = .request call → call.config.analyticsEnabled = true) :
    redirectClicks s (step op w).2 = redirectClicks s w + if redirectsTo s op w then 1 else 0 := by
  cases op with
  | command config env c => rfl
  | request call =>
    have ha := ha call rfl
    simp only [redirectsTo, Bool.and_eq_true, decide_eq_true_eq]
    simp only [step]
    cases hd : dispatch applicationRoutes call.req.method call.req.target with
    | invoke handler context =>
      rw [handle_invoke hd]
      by_cases hh : handler = .rootRedirect ∨ handler = .prefixedRedirect
      · exact redirectClicks_run ha hd hh
      rw [not_or] at hh
      rw [if_neg fun hr => run_not_redirects h hh.1 hh.2 hr.2]
      unfold redirectClicks
      rw [run_clicks hh.1 hh.2]
      rfl
    | error status code message =>
      rw [handle_error hd, if_neg]
      · rfl
      · rcases dispatch_error hd with rfl | rfl <;> simp [Response.Redirects]

/-! ## The counter of a link -/

theorem redirectsTo_iff : redirectsTo s op w = true ↔
    (∃ call, op = .request call ∧ RedirectRequest call s) ∧ (step op w).1.Redirects := by
  cases op with
  | command config env c => simp [redirectsTo]
  | request call => simp [redirectsTo, step, Answer.Redirects]

/-- An operation that redirects to `s` counts it at the link of `s`. -/
theorem Effect.link_of_redirectsTo (he : Effect op w cat (step op w).1 cat') (h : redirectsTo s op w = true) :
    ∃ l now, cat.link s = some l ∧ cat'.link s = some (countRedirect l now) := by
  obtain ⟨⟨call, hop, hreq⟩, hred⟩ := redirectsTo_iff.1 h
  generalize (step op w).1 = a at he hred
  cases he with
  | quiet _ _ ha => exact absurd hred ha
  | command _ _ _ _ _ _ ha _ => exact absurd hred ha
  | redirect call' l hop' _ hreq' hl _ =>
    rw [hop] at hop'
    cases hop'
    obtain rfl := hreq.slug_unique hreq'
    exact ⟨l, _, hl, by rw [Catalog.link_replace, if_pos rfl]⟩

/-- **The counter of a link** goes up by one if the operation redirects to the slug, and its statistics
stay as they are otherwise. -/
theorem Effect.stats (he : Effect op w cat (step op w).1 cat') (hl : cat.link s = some l) :
    ∃ l', cat'.link s = some l' ∧ (redirectsTo s op w = false → l'.stats = l.stats) ∧
      (redirectsTo s op w = true → l'.stats.totalRedirects = l.stats.totalRedirects + 1) := by
  cases hto : redirectsTo s op w with
  | true =>
    obtain ⟨m, now, hm, hm'⟩ := he.link_of_redirectsTo hto
    rw [hl] at hm
    cases hm
    exact ⟨_, hm', nofun, fun _ => rfl⟩
  | false =>
    rcases he.at_slug s with hsame | ⟨_, _, _, _, _, _, _, _, hnone, _⟩ |
      ⟨c, f, now, m, l', view, -, -, hm, -, hedit, hcat'⟩ | ⟨call, m, hop, -, hreq, ha, -⟩
    · exact ⟨l, hsame.trans hl, fun _ => rfl, nofun⟩
    · rw [hl] at hnone
      cases hnone
    · rw [hl] at hm
      cases hm
      exact ⟨_, hcat', fun _ => hedit.stats, nofun⟩
    · -- the fourth case redirects to `s`
      have : redirectsTo s op w = true :=
        redirectsTo_iff.2 ⟨⟨call, hop, hreq⟩, ha ▸ redirectResponse_redirects call m⟩
      rw [hto] at this
      cases this

/-- Without a link there is nothing to redirect to; a new link starts from zero. -/
theorem Effect.stats_of_none (he : Effect op w cat (step op w).1 cat') (hl : cat.link s = none) :
    redirectsTo s op w = false ∧ ∀ l', cat'.link s = some l' → l'.stats.totalRedirects = 0 := by
  have hto : redirectsTo s op w = false := by
    by_contra hto
    obtain ⟨_, _, hm, -⟩ := he.link_of_redirectsTo (Bool.not_eq_false _ ▸ hto)
    rw [hl] at hm
    cases hm
  refine ⟨hto, fun l' hl' => ?_⟩
  rcases he.at_slug s with hsame | ⟨_, _, _, m, _, _, hbuilt, _, -, hcat'⟩ |
    ⟨_, _, _, m, _, _, -, -, hm, -⟩ | ⟨_, m, -, -, -, -, hm, -⟩
  · rw [hsame, hl] at hl'
    cases hl'
  · rw [hcat'] at hl'
    cases hl'
    rw [hbuilt.stats]
  · rw [hl] at hm
    cases hm
  · rw [hl] at hm
    cases hm

/-! ## Runs -/

/-- The counter of the link `s` is the number `n` of redirects so far; without a link there were none. -/
def Counted (s : Str) (n : ℕ) (cat : Catalog) : Prop :=
  match cat.link s with
  | none => n = 0
  | some l => l.stats.totalRedirects = UInt64.ofNat n

/-- Along every run the counter goes up with the redirects. -/
theorem run_counted {pre : List Op} {n : ℕ} (h : Represents (worldAfter pre).links cat) (hn : Counted s n cat)
    (post : List Op) :
    ∃ cat', Represents (worldAfter (pre ++ post)).links cat' ∧
      Counted s (n + redirectCount s (worldAfter pre) post) cat' := by
  induction post generalizing pre cat n with
  | nil => exact ⟨cat, by rwa [List.append_nil], hn⟩
  | cons op post ih =>
    obtain ⟨cat', he, h'⟩ := step_effect h op
    have hn' : Counted s (n + if redirectsTo s op (worldAfter pre) then 1 else 0) cat' := by
      unfold Counted at hn ⊢
      cases hl : cat.link s with
      | none =>
        rw [hl] at hn
        obtain ⟨hto, hnew⟩ := he.stats_of_none hl
        cases hl' : cat'.link s with
        | none => simpa [hto] using hn
        | some l' => simp_all
      | some l =>
        rw [hl] at hn
        obtain ⟨l', hl', hsame, hup⟩ := he.stats hl
        rw [hl']
        cases hto : redirectsTo s op (worldAfter pre) with
        | true => simpa [hn] using hup hto
        | false => simpa [hn] using congrArg Stats.totalRedirects (hsame hto)
    rw [← worldAfter_concat] at h'
    obtain ⟨cat'', h'', hn''⟩ := ih h' hn'
    rw [Nat.add_assoc, worldAfter_concat] at hn''
    rw [List.append_cons]
    exact ⟨cat'', h'', hn''⟩

/-- Along every run with analytics the redirect events go up with the redirects. -/
theorem run_clicks_counted (pre post : List Op)
    (ha : ∀ call, .request call ∈ post → call.config.analyticsEnabled = true) :
    redirectClicks s (worldAfter (pre ++ post)) =
      redirectClicks s (worldAfter pre) + redirectCount s (worldAfter pre) post := by
  induction post generalizing pre with
  | nil => simp [redirectCount]
  | cons op post ih =>
    obtain ⟨cat, h⟩ := run_represents pre
    have hstep := step_clicks (s := s) h fun call hop => ha call (hop ▸ List.mem_cons_self)
    rw [List.append_cons, ih (pre ++ [op]) fun call hmem => ha call (List.mem_cons_of_mem _ hmem),
      worldAfter_concat, hstep, Nat.add_assoc]
    rfl

theorem Counted.of_none (h : cat.link s = none) : Counted s 0 cat := by
  simp [Counted, h]

/-- **Redirects are counted exactly, twice.** In every run with analytics enabled, the counter of a link is
the number of redirects to its slug since it was created, modulo 2^64, and this is the number of click
events of the slug with a 3xx status; and no command, and no request that is not answered by a redirect,
changes the statistics of a link. -/
theorem redirects_counted (pre post : List Op) (s : Str) (l : Link)
    (hanalytics : ∀ call, .request call ∈ pre ++ post → call.config.analyticsEnabled = true)
    (hpre : (worldAfter pre).links.repository.getBySlug s = none)
    (hl : (worldAfter (pre ++ post)).links.repository.getBySlug s = some l) :
    l.stats.totalRedirects.toNat = redirectCount s (worldAfter pre) post % 2 ^ 64 ∧
    redirectClicks s (worldAfter (pre ++ post)) = redirectCount s (worldAfter pre) post ∧
    ∀ op, op.command? ≠ none ∨ ¬ (step op (worldAfter (pre ++ post))).1.Redirects →
      ∃ l', (worldAfter (pre ++ post ++ [op])).links.repository.getBySlug s = some l' ∧
        l'.stats = l.stats := by
  have hempty : Represents (worldAfter []).links .empty := Represents.empty
  obtain ⟨cat, hcat, hcount⟩ := run_counted hempty (Counted.of_none (Catalog.link_empty s)) pre
  rw [List.nil_append] at hcat
  have hnone : cat.link s = none := by rw [← hcat.getBySlug, hpre]
  obtain ⟨cat', hcat', hcount'⟩ := run_counted hcat (Counted.of_none hnone) post
  have hl' : cat'.link s = some l := by rw [← hcat'.getBySlug, hl]
  refine ⟨?_, ?_, fun op hop => ?_⟩
  · have htotal : l.stats.totalRedirects = UInt64.ofNat (redirectCount s (worldAfter pre) post) := by
      simpa [Counted, hl'] using hcount'
    rw [htotal, UInt64.toNat_ofNat']
  · -- nothing redirects to `s` before its link is created, so the events all come from `post`
    have hzero : redirectCount s (worldAfter []) pre = 0 := by simpa [Counted, hnone] using hcount
    have hbefore := run_clicks_counted (s := s) [] pre fun call hmem =>
      hanalytics call (List.mem_append_left _ hmem)
    have hafter := run_clicks_counted (s := s) pre post fun call hmem =>
      hanalytics call (List.mem_append_right _ hmem)
    rw [List.nil_append, hzero] at hbefore
    rw [hafter, hbefore]
    exact Nat.zero_add _
  · obtain ⟨cat'', he, hcat''⟩ := step_effect hcat' op
    have hto : redirectsTo s op (worldAfter (pre ++ post)) = false := by
      by_contra hto
      obtain ⟨⟨call, rfl, hreq⟩, hred⟩ := redirectsTo_iff.1 (Bool.not_eq_false _ ▸ hto)
      exact hop.elim (fun hsome => hsome hreq.command_eq_none) fun hno => hno hred
    obtain ⟨l', hl'', hstats, -⟩ := he.stats hl'
    exact ⟨l', by rw [worldAfter_concat, hcat''.getBySlug, hl''], hstats hto⟩

/-- Create the link `abc` and ask for it. -/
def sampleVisit : List Op := sampleRun.take 1 ++ [.request sampleGet]

theorem redirects_counted_sample :
    ∃ l, (worldAfter sampleVisit).links.repository.getBySlug "abc" = some l ∧
      l.stats.totalRedirects.toNat = 1 ∧ redirectClicks "abc" (worldAfter sampleVisit) = 1 := by
  have hrun : ((worldAfter sampleVisit).links.repository.getBySlug "abc").isSome = true ∧
      redirectCount "abc" (worldAfter []) sampleVisit = 1 := by
    decide +kernel
  obtain ⟨hstored, hcount⟩ := hrun
  obtain ⟨l, hl⟩ := Option.isSome_iff_exists.1 hstored
  have h := redirects_counted [] sampleVisit "abc" l (by simp [sampleVisit, sampleRun, sampleGet]) rfl
  rw [List.nil_append, hcount] at h
  have h := h hl
  exact ⟨l, hl, h.1, h.2.1⟩

end UrlShortener

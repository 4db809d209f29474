import UrlShortener.Proof.Requests

/-!
# When a request redirects

* `redirects_to_active_link`: **a redirect is only ever served for a link that the repository holds and
  that is active, to the URL fixed when that link was created**; and a link that was deleted or disabled
  does not redirect until it has been restored or enabled again.
-/

namespace UrlShortener

open Runs

variable {op : Op} {w : World} {cat cat' : Catalog} {a : Answer} {s : Str}

/-- The command sets `enabled` of the link `slug` to `b`. -/
def SetsEnabled (c : Command) (slug : Str) (b : Bool) : Prop :=
  c = .setLinkEnabled ⟨slug, b⟩ ∨
    ∃ u : UpdateLinkCommand, c = .updateLink u ∧ u.slug = slug ∧ u.enabled = some b

/-! ## One operation -/

theorem change_deletedAt {c : Command} {f : Str → Link → Result Link} {now : Str} {l l' : Link}
    (hc : c.change = some (s, f)) (hf : f now l = .ok l') (hd : l.deletedAt.isSome) :
    l'.deletedAt.isSome ∨ c = .restoreLink ⟨s⟩ := by
  cases c with
  | updateLink command =>
    cases hc
    obtain ⟨-, hdel, -⟩ := applyUpdate_ok hf
    exact .inl (hdel ▸ hd)
  | deleteLink command => cases hc; cases hf; exact .inl rfl
  | setLinkEnabled command => cases hc; cases hf; exact .inl hd
  | restoreLink command => cases hc; exact .inr rfl
  | createLink command => cases hc
  | getLink query => cases hc
  | previewLink query => cases hc

theorem change_enabled {c : Command} {f : Str → Link → Result Link} {now : Str} {l l' : Link}
    (hc : c.change = some (s, f)) (hf : f now l = .ok l') (hd : l.enabled = false) :
    l'.enabled = false ∨ SetsEnabled c s true := by
  cases c with
  | updateLink command =>
    cases hc
    obtain ⟨-, -, hen⟩ := applyUpdate_ok hf
    cases hb : command.enabled with
    | none =>
      rw [hb] at hen
      exact .inl (hen.trans hd)
    | some b =>
      rw [hb] at hen
      cases b with
      | false => exact .inl hen
      | true => exact .inr (.inr ⟨command, rfl, rfl, hb⟩)
  | setLinkEnabled command =>
    cases hc
    cases hf
    obtain ⟨slug, b⟩ := command
    cases b with
    | false => exact .inl rfl
    | true => exact .inr (.inl rfl)
  | deleteLink command => cases hc; cases hf; exact .inl hd
  | restoreLink command => cases hc; cases hf; exact .inl hd
  | createLink command => cases hc
  | getLink query => cases hc
  | previewLink query => cases hc

/-- A command that sets `enabled` is a change that leaves it at that value. -/
theorem change_of_setsEnabled {c : Command} {b : Bool} (h : SetsEnabled c s b) :
    ∃ f, c.change = some (s, f) ∧ ∀ now l l', f now l = .ok l' → l'.enabled = b := by
  rcases h with rfl | ⟨u, rfl, rfl, hb⟩
  · exact ⟨_, rfl, fun now l l' hf => by cases hf; rfl⟩
  · refine ⟨_, rfl, fun now l l' hf => ?_⟩
    obtain ⟨-, -, hen⟩ := applyUpdate_ok hf
    rw [hen, hb]
    rfl

/-- A command that succeeds has made its change. -/
theorem Effect.of_success (he : Effect op w cat a cat') {c : Command} {view : LinkView}
    {f : Str → Link → Result Link} (hs : Succeeds op w c view) (hc : c.change = some (s, f)) :
    ∃ now l l', f now l = .ok l' ∧ cat'.link s = some { l' with updatedAt := now } := by
  obtain ⟨config, env, hcommand, hok⟩ := hs
  cases he with
  | quiet _ hnone _ => rw [hnone] at hcommand; cases hcommand
  | redirect call l _ hnone _ _ _ => rw [hnone] at hcommand; cases hcommand
  | command _ config' env' c' cat' hcommand' _ he =>
    rw [hcommand'] at hcommand
    cases hcommand
    rw [hok] at he
    cases he with
    | read _ query l hc' _ _ => rcases hc' with rfl | rfl <;> cases hc
    | created command l _ _ _ => cases hc
    | changed _ slug f' l l' hc' hl hslug hf he =>
      rw [hc] at hc'
      cases hc'
      refine ⟨_, l, l', hf, ?_⟩
      rw [Catalog.link_replace, if_pos hslug.symm]

/-! ## Runs -/

/-- The repository holds a link under `s` that satisfies `P`. -/
def Holds (P : Link → Prop) (s : Str) (w : World) : Prop :=
  ∃ l, w.links.repository.getBySlug s = some l ∧ P l

theorem Represents.holds_iff (h : Represents w.links cat) {P : Link → Prop} :
    Holds P s w ↔ ∃ l, cat.link s = some l ∧ P l := by
  unfold Holds
  rw [h.getBySlug]

/-- A property of a stored link that redirects keep, and that only the commands `E` can take away, holds
until one of them has succeeded. -/
theorem holds_until {P : Link → Prop} {E : Command → Prop}
    (hchange : ∀ c f now l l', c.change = some (s, f) → f now l = .ok l' → P l →
      P { l' with updatedAt := now } ∨ E c)
    (hcount : ∀ l now, P l → P (countRedirect l now))
    {ops mid : List Op} (hstart : Holds P s (worldAfter ops)) (hend : ¬ Holds P s (worldAfter (ops ++ mid))) :
    ∃ mid₁ op mid₂, mid = mid₁ ++ op :: mid₂ ∧
      ∃ c view, E c ∧ Succeeds op (worldAfter (ops ++ mid₁)) c view := by
  unfold worldAfter at hend
  rw [after_append] at hend
  obtain ⟨mid₁, op, mid₂, hmid, hpre, hlost⟩ := exists_step_lost hstart hend
  refine ⟨mid₁, op, mid₂, hmid, ?_⟩
  have hw : worldAfter (ops ++ mid₁) = after (fun op w => (step op w).2) (worldAfter ops) mid₁ :=
    after_append _ _ _
  obtain ⟨cat, h⟩ := run_represents (ops ++ mid₁)
  obtain ⟨cat', he, h'⟩ := step_effect h op
  rw [← hw, h.holds_iff] at hpre
  rw [← hw, h'.holds_iff] at hlost
  obtain ⟨l, hl, hP⟩ := hpre
  -- the slug is left alone, created anew, changed by a command or counted by a redirect
  rcases he.at_slug s with hsame | ⟨_, _, _, _, _, _, _, _, hnone, _⟩ |
    ⟨c, f, now, m, l', view, hc, hs, hm, hf, _, hcat'⟩ | ⟨call, m, -, -, -, -, hm, hcat'⟩
  · exact absurd ⟨l, hsame.trans hl, hP⟩ hlost
  · rw [hl] at hnone
    cases hnone
  · rw [hl] at hm
    cases hm
    rcases hchange c f now l l' hc hf hP with hP' | hE
    · exact absurd ⟨_, hcat', hP'⟩ hlost
    · exact ⟨c, view, hE, hs⟩
  · rw [hl] at hm
    cases hm
    exact absurd ⟨_, hcat', hcount l _ hP⟩ hlost

/-- What a successful command has set holds until a command `E` has succeeded. -/
theorem holds_since_success {P : Link → Prop} {E : Command → Prop}
    (hchange : ∀ c f now l l', c.change = some (s, f) → f now l = .ok l' → P l →
      P { l' with updatedAt := now } ∨ E c)
    (hcount : ∀ l now, P l → P (countRedirect l now))
    {pre mid : List Op} {c : Command} {f : Str → Link → Result Link} {view : LinkView}
    (hs : Succeeds op (worldAfter pre) c view) (hc : c.change = some (s, f))
    (hset : ∀ now l l', f now l = .ok l' → P { l' with updatedAt := now })
    (hend : ¬ Holds P s (worldAfter (pre ++ op :: mid))) :
    ∃ mid₁ op' mid₂, mid = mid₁ ++ op' :: mid₂ ∧
      ∃ c' view', E c' ∧ Succeeds op' (worldAfter (pre ++ op :: mid₁)) c' view' := by
  have hstart : Holds P s (worldAfter (pre ++ [op])) := by
    obtain ⟨cat, h⟩ := run_represents pre
    obtain ⟨cat', he, h'⟩ := step_effect h op
    have hw : worldAfter (pre ++ [op]) = (step op (worldAfter pre)).2 := after_append _ _ _
    obtain ⟨now, l, l', hf, hcat'⟩ := he.of_success hs hc
    rw [hw, h'.holds_iff]
    exact ⟨_, hcat', hset now l l' hf⟩
  have happ : ∀ ops, pre ++ op :: ops = (pre ++ [op]) ++ ops := fun ops => by simp
  rw [happ] at hend
  obtain ⟨mid₁, op', mid₂, hmid, c', view', hE, hs'⟩ := holds_until hchange hcount hstart hend
  exact ⟨mid₁, op', mid₂, hmid, c', view', hE, happ mid₁ ▸ hs'⟩

/-- **The target of a stored link is the normalized URL of the command that created it.** -/
theorem target_from_creation {ops : List Op} {l : Link}
    (hl : (worldAfter ops).links.repository.getBySlug s = some l) :
    ∃ pre op post, ops = pre ++ op :: post ∧ ∃ config env command view,
      op.command? = some (config, env, .createLink command) ∧
      (Command.exec config env (.createLink command) (worldAfter pre).links).1 = .ok view ∧ view.slug = s ∧
      normalizeTargetUrl command.targetUrl config = some l.targetUrl := by
  -- some operation makes the slug have this target, and it cannot be one that changes a link
  have hstart : ¬ Holds (fun m => m.targetUrl = l.targetUrl) s ({} : World) := by
    rw [Represents.empty.holds_iff]
    simp
  have hend : ¬¬ Holds (fun m => m.targetUrl = l.targetUrl) s (worldAfter ops) := not_not.2 ⟨l, hl, rfl⟩
  obtain ⟨pre, op, post, hops, hpre, hgain⟩ := exists_step_lost
    (P := fun w => ¬ Holds (fun m => m.targetUrl = l.targetUrl) s w) hstart hend
  refine ⟨pre, op, post, hops, ?_⟩
  obtain ⟨cat, h⟩ := run_represents pre
  obtain ⟨cat', he, h'⟩ := step_effect h op
  change ¬ Holds (fun m => m.targetUrl = l.targetUrl) s (worldAfter pre) at hpre
  rw [h.holds_iff] at hpre
  obtain ⟨m', hm', htarget⟩ := h'.holds_iff.1 (not_not.1 hgain)
  rcases he.at_slug s with hsame | ⟨config, env, command, m, hcmd, hok, hbuilt, hslug, _, hcat'⟩ |
    ⟨c, f, now, m, l', view, hc, hs, hm, hf, hedit, hcat'⟩ | ⟨call, m, -, -, -, -, hm, hcat'⟩
  · exact absurd ⟨m', hsame ▸ hm', htarget⟩ hpre
  · rw [hcat'] at hm'
    cases hm'
    exact ⟨config, env, command, _, hcmd, hok, hslug, htarget ▸ hbuilt.targetUrl⟩
  · rw [hcat'] at hm'
    cases hm'
    exact absurd ⟨m, hm, hedit.version.targetUrl.symm.trans htarget⟩ hpre
  · rw [hcat'] at hm'
    cases hm'
    exact absurd ⟨m, hm, htarget⟩ hpre

/-! ## Redirects along a run -/

theorem redirectResponse_location (call : Call) (l : Link) (status : ℕ) :
    (redirectResponse call l status).location = some l.targetUrl := rfl

theorem resolveLinkStatus_active {l : Link} {now : TimePoint} (h : resolveLinkStatus l now = .active) :
    l.deletedAt = none ∧ l.enabled = true ∧ isExpired l.expiresAt now = false := by
  unfold resolveLinkStatus at h
  split at h
  · cases h
  rename_i hdel
  split at h
  · cases h
  rename_i hen
  split at h
  · cases h
  rename_i hexp
  exact ⟨by simpa using hdel, by simpa using hen, by simpa using hexp⟩

/-- A request that redirects asks for an active link of the repository. -/
theorem redirect_link {ops : List Op} {call : Call}
    (h : (handleShortenerRequest call (worldAfter ops)).1.Redirects) :
    ∃ l, RedirectRequest call l.slug ∧ (worldAfter ops).links.repository.getBySlug l.slug = some l ∧
      resolveLinkStatus l (call.env.clock 0) = .active ∧
      (handleShortenerRequest call (worldAfter ops)).1.location = some l.targetUrl := by
  obtain ⟨cat, hrep⟩ := run_represents ops
  obtain ⟨cat', he, -⟩ := request_effect hrep call
  generalize (handleShortenerRequest call (worldAfter ops)).1 = res at h he ⊢
  generalize ha : Answer.response res = a at he
  have hred : a.Redirects := ha ▸ h
  cases he with
  | quiet _ _ hno => exact absurd hred hno
  | command _ _ _ _ _ _ hno _ => exact absurd hred hno
  | redirect call' l hop _ hreq hl hactive =>
    cases hop
    obtain rfl := Answer.response.inj ha
    refine ⟨l, hreq, ?_, hactive, redirectResponse_location _ _ _⟩
    rw [hrep.getBySlug, hl]

/-- A redirect rules out what an active link cannot be. -/
theorem not_holds_of_redirects {ops : List Op} {call : Call} (hreq : RedirectRequest call s)
    (hred : (handleShortenerRequest call (worldAfter ops)).1.Redirects) {P : Link → Prop}
    (hP : ∀ l, l.deletedAt = none → l.enabled = true → ¬ P l) : ¬ Holds P s (worldAfter ops) := by
  obtain ⟨l, hreq', hl, hactive, -⟩ := redirect_link hred
  obtain rfl := hreq.slug_unique hreq'
  obtain ⟨hdel, hen, -⟩ := resolveLinkStatus_active hactive
  rintro ⟨m, hm, hPm⟩
  rw [hl] at hm
  cases hm
  exact hP l hdel hen hPm

/-- **Redirects are sound along every run.** A request that answers 301 or 302 asks for a slug under which
the repository holds a link that is not deleted, enabled and not expired, and the location is the target
of that link, normalized by the command that created it. After a deletion a restoration comes before the
next redirect, and after a disabling command an enabling one. -/
theorem redirects_to_active_link (ops : List Op) :
    (∀ call, (handleShortenerRequest call (worldAfter ops)).1.Redirects →
      ∃ l, RedirectRequest call l.slug ∧ (worldAfter ops).links.repository.getBySlug l.slug = some l ∧
        l.deletedAt = none ∧ l.enabled = true ∧ isExpired l.expiresAt (call.env.clock 0) = false ∧
        (handleShortenerRequest call (worldAfter ops)).1.location = some l.targetUrl ∧
        ∃ pre op post, ops = pre ++ op :: post ∧ ∃ config env command view,
          op.command? = some (config, env, .createLink command) ∧
          (Command.exec config env (.createLink command) (worldAfter pre).links).1 = .ok view ∧
          view.slug = l.slug ∧ normalizeTargetUrl command.targetUrl config = some l.targetUrl) ∧
    (∀ pre op mid slug view call, ops = pre ++ op :: mid →
      Succeeds op (worldAfter pre) (.deleteLink ⟨slug⟩) view → RedirectRequest call slug →
      (handleShortenerRequest call (worldAfter ops)).1.Redirects →
      ∃ mid₁ op' mid₂, mid = mid₁ ++ op' :: mid₂ ∧
        ∃ view', Succeeds op' (worldAfter (pre ++ op :: mid₁)) (.restoreLink ⟨slug⟩) view') ∧
    (∀ pre op mid slug c view call, ops = pre ++ op :: mid → SetsEnabled c slug false →
      Succeeds op (worldAfter pre) c view → RedirectRequest call slug →
      (handleShortenerRequest call (worldAfter ops)).1.Redirects →
      ∃ mid₁ op' mid₂, mid = mid₁ ++ op' :: mid₂ ∧
        ∃ c' view', SetsEnabled c' slug true ∧ Succeeds op' (worldAfter (pre ++ op :: mid₁)) c' view') := by
  refine ⟨fun call hred => ?_, ?_, ?_⟩
  · obtain ⟨l, hreq, hl, hactive, hloc⟩ := redirect_link hred
    obtain ⟨hdel, hen, hexp⟩ := resolveLinkStatus_active hactive
    exact ⟨l, hreq, hl, hdel, hen, hexp, hloc, target_from_creation hl⟩
  · rintro pre op mid slug view call rfl hs hreq hred
    have hend : ¬ Holds (fun l => l.deletedAt.isSome) slug (worldAfter (pre ++ op :: mid)) :=
      not_holds_of_redirects hreq hred fun l hdel _ hd => by simp [hdel] at hd
    obtain ⟨mid₁, op', mid₂, hmid, c', view', rfl, hs'⟩ := holds_since_success
      (E := fun c => c = .restoreLink ⟨slug⟩) (fun c f now l l' hc hf hd => change_deletedAt hc hf hd)
      (fun _ _ hd => hd) hs rfl (fun now l l' hf => by cases hf; rfl) hend
    exact ⟨mid₁, op', mid₂, hmid, view', hs'⟩
  · rintro pre op mid slug c view call rfl hset hs hreq hred
    have hend : ¬ Holds (fun l => l.enabled = false) slug (worldAfter (pre ++ op :: mid)) :=
      not_holds_of_redirects hreq hred fun l _ hen hd => by simp [hen] at hd
    obtain ⟨f, hc, hf⟩ := change_of_setsEnabled hset
    exact holds_since_success (E := fun c => SetsEnabled c slug true)
      (fun c f now l l' hc hf hd => change_enabled hc hf hd) (fun _ _ hd => hd) hs hc hf hend

/-- Create a link, delete it, disable it, restore it and enable it. -/
def sampleRun : List Op :=
  [.command {} .still (.createLink { targetUrl := "http://Example.com", slug := some "abc" }),
   .command {} .still (.deleteLink ⟨"abc"⟩),
   .command {} .still (.setLinkEnabled ⟨"abc", false⟩),
   .command {} .still (.restoreLink ⟨"abc"⟩),
   .command {} .still (.setLinkEnabled ⟨"abc", true⟩)]

/-- A `GET` of a slug. -/
def sampleGet : Call := { config := {}, env := .still, req := { method := .get, target := "/abc" } }

theorem redirects_to_active_link_sample :
    (handleShortenerRequest sampleGet (worldAfter sampleRun)).1.Redirects ∧
    (∃ l, RedirectRequest sampleGet l.slug ∧
      (worldAfter sampleRun).links.repository.getBySlug l.slug = some l) ∧
    (∃ mid₁ op mid₂, sampleRun.drop 2 = mid₁ ++ op :: mid₂ ∧
      ∃ view, Succeeds op (worldAfter (sampleRun.take 2 ++ mid₁)) (.restoreLink ⟨"abc"⟩) view) ∧
    ∃ mid₁ op mid₂, sampleRun.drop 3 = mid₁ ++ op :: mid₂ ∧
      ∃ c view, SetsEnabled c "abc" true ∧
        Succeeds op (worldAfter (sampleRun.take 3 ++ mid₁)) c view := by
  have hred : (handleShortenerRequest sampleGet (worldAfter sampleRun)).1.Redirects := by
    unfold Response.Redirects
    decide +kernel
  have hreq : RedirectRequest sampleGet "abc" := ⟨rfl, .inl ⟨by decide, by decide⟩⟩
  obtain ⟨hsound, hdeleted, hdisabled⟩ := redirects_to_active_link sampleRun
  refine ⟨hred, ?_, ?_, ?_⟩
  · obtain ⟨l, hreq, hl, -⟩ := hsound sampleGet hred
    exact ⟨l, hreq, hl⟩
  · exact hdeleted (sampleRun.take 1) _ _ _ _ _ rfl ⟨{}, .still, rfl, rfl⟩ hreq hred
  · exact hdisabled (sampleRun.take 2) _ _ _ _ _ _ rfl (.inl rfl) ⟨{}, .still, rfl, rfl⟩ hreq hred

end UrlShortener

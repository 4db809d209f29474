import UrlShortener.Proof.Redirects

/-!
# What an operation leaves alone

Every change is written back as a whole record, so nothing in the store itself keeps fields or links
apart.

* `Effect.link_eq`: an operation leaves every record alone but the one it is addressed to.
* `Version.trans`, `stored_version`: a record is replaced by a version of itself along every run.
* `links_framed`: **links are never removed, their fixed fields never change, operations on one slug leave
  the others alone, and a redirect touches the counters of its own link only**.
-/

namespace UrlShortener

open Runs

variable {op : Op} {w : World} {cat cat' : Catalog} {a : Answer} {s : Str} {l : Link}

/-- The repository holds the record `l`, under its identifier and under its slug. -/
def Stored (w : World) (l : Link) : Prop :=
  w.links.repository.byId.lookup l.id = some l ∧ w.links.repository.getBySlug l.slug = some l

theorem Represents.stored_iff (h : Represents w.links cat) : Stored w l ↔ cat.link l.slug = some l := by
  unfold Stored
  rw [h.byId, h.getBySlug]
  exact ⟨fun hl => hl.2, fun hl => ⟨⟨hl, rfl⟩, hl⟩⟩

/-- The operation is addressed to `s`: it changes the link `s`, creates it, or asks for a redirect to it. -/
def Addresses (op : Op) (w : World) (s : Str) : Prop :=
  (∃ config env c f, op.command? = some (config, env, c) ∧ c.change = some (s, f)) ∨
  (∃ config env command view, op.command? = some (config, env, .createLink command) ∧
    (createLink config env command w.links).1 = .ok view ∧ view.slug = s) ∨
  ∃ call, op = .request call ∧ RedirectRequest call s

/-! ## One operation -/

/-- **An operation that is not addressed to a slug** leaves the link there as it is. -/
theorem Effect.link_eq (he : Effect op w cat a cat') (h : ¬ Addresses op w s) : cat'.link s = cat.link s := by
  rcases he.at_slug s with hsame | ⟨config, env, command, m, hcommand, hok, -, hslug, -⟩ |
    ⟨c, f, now, m, l', view, hc, ⟨config, env, hcommand, -⟩, -⟩ | ⟨call, m, hop, -, hreq, -⟩
  · exact hsame
  · exact absurd (.inr (.inl ⟨config, env, command, _, hcommand, hok, hslug⟩)) h
  · exact absurd (.inl ⟨config, env, c, f, hcommand, hc⟩) h
  · exact absurd (.inr (.inr ⟨call, hop, hreq⟩)) h

theorem Version.refl (l : Link) : Version l l := ⟨rfl, rfl, rfl, rfl, rfl⟩

theorem Version.trans {l l' l'' : Link} (h : Version l l') (h' : Version l' l'') : Version l l'' :=
  ⟨h'.id.trans h.id, h'.slug.trans h.slug, h'.targetUrl.trans h.targetUrl, h'.createdAt.trans h.createdAt,
    h'.redirectType.trans h.redirectType⟩

/-- A link is replaced by a version of itself. -/
theorem Effect.version (he : Effect op w cat a cat') (hl : cat.link s = some l) :
    ∃ l', cat'.link s = some l' ∧ Version l l' := by
  rcases he.at_slug s with hsame | ⟨_, _, _, _, _, _, _, _, hnone, _⟩ |
    ⟨c, f, now, m, l', view, -, -, hm, -, hedit, hcat'⟩ | ⟨call, m, -, -, -, -, hm, hcat'⟩
  · exact ⟨l, hsame.trans hl, .refl l⟩
  · rw [hl] at hnone
    cases hnone
  · rw [hl] at hm
    cases hm
    exact ⟨_, hcat', hedit.version⟩
  · rw [hl] at hm
    cases hm
    exact ⟨_, hcat', countRedirect_version l _⟩

/-- A redirect request is addressed to its own slug only. -/
theorem Effect.link_of_request {call : Call} {s' : Str} (he : Effect (.request call) w cat a cat')
    (hreq : RedirectRequest call s) (hne : s' ≠ s) : cat'.link s' = cat.link s' := by
  apply he.link_eq
  have hnone := hreq.command_eq_none
  rintro (⟨_, _, _, _, hsome, _⟩ | ⟨_, _, _, _, hsome, _⟩ | ⟨call', hop, hreq'⟩)
  · rw [hnone] at hsome
    cases hsome
  · rw [hnone] at hsome
    cases hsome
  · cases hop
    exact hne (hreq'.slug_unique hreq)

/-- What a redirect request does to its link: nothing, or it has redirected and changed the counters. -/
theorem Effect.link_of_redirectRequest {call : Call} (he : Effect (.request call) w cat a cat')
    (hreq : RedirectRequest call s) :
    cat'.link s = cat.link s ∨ a.Redirects ∧
      ∃ l stats, cat.link s = some l ∧ cat'.link s = some { l with stats := stats } := by
  have hnone := hreq.command_eq_none
  rcases he.at_slug s with hsame | ⟨_, _, _, _, hsome, _⟩ | ⟨_, _, _, _, _, _, _, ⟨_, _, hsome, _⟩, _⟩ |
    ⟨call, m, -, -, -, rfl, hm, hcat'⟩
  · exact .inl hsame
  · rw [hnone] at hsome
    cases hsome
  · rw [hnone] at hsome
    cases hsome
  · exact .inr ⟨redirectResponse_redirects call m, m, _, hm, hcat'⟩

/-! ## Runs -/

/-- A stored link stays stored along every run, as a version of itself. -/
theorem stored_version (ops mid : List Op) (h : Stored (worldAfter ops) l) :
    ∃ l', Stored (worldAfter (ops ++ mid)) l' ∧ Version l l' := by
  obtain ⟨cat, hcat⟩ := run_represents ops
  have hstart : ∃ cat l', Represents (worldAfter ops).links cat ∧ cat.link l.slug = some l' ∧ Version l l' :=
    ⟨cat, l, hcat, hcat.stored_iff.1 h, .refl l⟩
  have hend : ∃ cat l', Represents (worldAfter (ops ++ mid)).links cat ∧ cat.link l.slug = some l' ∧
      Version l l' := by
    rw [worldAfter, after_append]
    refine after_invariant (P := fun w : World => ∃ cat l', Represents w.links cat ∧
      cat.link l.slug = some l' ∧ Version l l') ?_ hstart mid
    rintro op w ⟨cat, l', hrep, hl', hv⟩
    obtain ⟨cat', he, hrep'⟩ := step_effect hrep op
    obtain ⟨l'', hl'', hv'⟩ := he.version hl'
    exact ⟨cat', l'', hrep', hl'', hv.trans hv'⟩
  obtain ⟨cat', l', hrep, hl', hv⟩ := hend
  exact ⟨l', hrep.stored_iff.2 (hv.slug ▸ hl'), hv⟩

/-- **Frames.** In every run:
a stored link is never removed, and its identifier, slug, target, creation time and redirect type never
change;
an operation changes no record but those of the slug it is addressed to;
a redirect request changes no record at all, or it has redirected and changed the counters of the link it
asks for. -/
theorem links_framed (ops : List Op) :
    (∀ mid l, Stored (worldAfter ops) l → ∃ l', Stored (worldAfter (ops ++ mid)) l' ∧ l'.id = l.id ∧
      l'.slug = l.slug ∧ l'.targetUrl = l.targetUrl ∧ l'.createdAt = l.createdAt ∧
      l'.redirectType = l.redirectType) ∧
    (∀ op l, ¬ Addresses op (worldAfter ops) l.slug →
      (Stored (worldAfter (ops ++ [op])) l ↔ Stored (worldAfter ops) l)) ∧
    ∀ call s, RedirectRequest call s →
      (∀ l, Stored (worldAfter (ops ++ [.request call])) l ↔ Stored (worldAfter ops) l) ∨
      (handleShortenerRequest call (worldAfter ops)).1.Redirects ∧
        (∃ l stats, l.slug = s ∧ Stored (worldAfter ops) l ∧
          Stored (worldAfter (ops ++ [.request call])) { l with stats := stats }) ∧
        ∀ l, l.slug ≠ s → (Stored (worldAfter (ops ++ [.request call])) l ↔ Stored (worldAfter ops) l) := by
  obtain ⟨cat, hcat⟩ := run_represents ops
  refine ⟨fun mid l hl => ?_, fun op l haddr => ?_, fun call s hreq => ?_⟩
  · obtain ⟨l', hl', hv⟩ := stored_version ops mid hl
    exact ⟨l', hl', hv.id, hv.slug, hv.targetUrl, hv.createdAt, hv.redirectType⟩
  · obtain ⟨cat', he, hcat'⟩ := step_effect hcat op
    rw [worldAfter_concat, hcat'.stored_iff, hcat.stored_iff, he.link_eq haddr]
  · obtain ⟨cat', he, hcat'⟩ := step_effect hcat (.request call)
    have hother : ∀ l : Link, l.slug ≠ s →
        (Stored (step (.request call) (worldAfter ops)).2 l ↔ Stored (worldAfter ops) l) := by
      intro l hne
      rw [hcat'.stored_iff, hcat.stored_iff, he.link_of_request hreq hne]
    rw [worldAfter_concat]
    rcases he.link_of_redirectRequest hreq with hsame | ⟨hred, m, stats, hm, hm'⟩
    · refine .inl fun l => ?_
      by_cases hs : l.slug = s
      · rw [hcat'.stored_iff, hcat.stored_iff, hs, hsame]
      · exact hother l hs
    · have hslug := cat.slug_eq hm
      subst hslug
      exact .inr ⟨hred, ⟨m, stats, rfl, hcat.stored_iff.2 hm, hcat'.stored_iff.2 hm'⟩, hother⟩

theorem links_framed_sample :
    (∃ l l', Stored (worldAfter (sampleRun.take 1)) l ∧ Stored (worldAfter sampleRun) l' ∧ l'.id = l.id) ∧
    ∀ l, Stored (worldAfter (sampleRun ++ [.request sampleGet])) l → l.slug ≠ "abc" →
      Stored (worldAfter sampleRun) l := by
  have hrun : ((worldAfter (sampleRun.take 1)).links.repository.getBySlug "abc").isSome = true := by
    decide +kernel
  obtain ⟨l, hl⟩ := Option.isSome_iff_exists.1 hrun
  obtain ⟨cat, hcat⟩ := run_represents (sampleRun.take 1)
  have hlink : cat.link "abc" = some l := (hcat.getBySlug _).symm.trans hl
  have hstored : Stored (worldAfter (sampleRun.take 1)) l := hcat.stored_iff.2 (Catalog.link_self hlink)
  obtain ⟨l', hl', hid, -⟩ := (links_framed (sampleRun.take 1)).1 (sampleRun.drop 1) l hstored
  rw [List.take_append_drop] at hl'
  have hreq : RedirectRequest sampleGet "abc" := ⟨rfl, .inl ⟨by decide, by decide⟩⟩
  refine ⟨⟨l, l', hstored, hl', hid⟩, fun m hm hne => ?_⟩
  rcases (links_framed sampleRun).2.2 sampleGet "abc" hreq with hsame | ⟨-, -, hother⟩
  · exact (hsame m).1 hm
  · exact (hother m hne).1 hm

end UrlShortener

import UrlShortener.Catalog.Patch
import UrlShortener.Proof.Redirects

/-!
# Lifecycle

Five commands change whether a link is deleted, enabled or expired, and each writes the whole record back.

* `change_eq_patch`: the change of a command is a patch, and whether it is refused does not depend on the
  link.
* `Effect.recorded`: one more successful command overwrites the parts it gives.
* `lifecycle_last_writer`: **each part of the lifecycle is what the last successful command of its kind
  gave**, and commands of different kinds commute.
-/

namespace UrlShortener

open Runs

variable {config : ServerConfig} {env : Env} {st : LinkStore} {op : Op} {w : World} {cat cat' : Catalog}
  {s : Str} {l : Link}

/-! ## The parts a command gives -/

/-- Deleted or restored, or created without a deletion. -/
def Command.deleted? : Command → Option Bool
  | .createLink _ => some false
  | .deleteLink _ => some true
  | .restoreLink _ => some false
  | _ => none

/-- The value of `enabled`, which is true by default for a new link. -/
def Command.enabled? : Command → Option Bool
  | .createLink command => some (command.enabled.getD true)
  | .setLinkEnabled command => some command.enabled
  | .updateLink command => command.enabled
  | _ => none

/-- The value of `expires_at`; an update gives `none` to clear it. -/
def Command.expiry? (config : ServerConfig) (env : Env) : Command → Option (Option Str)
  | .createLink command => (createExpiry config (env.clock 0) command).toOption
  | .updateLink command => command.expiresAt
  | _ => none

/-- What a command overwrites if it is accepted. -/
def Command.patch (config : ServerConfig) (env : Env) (c : Command) : Patch where
  deleted := c.deleted?
  enabled := c.enabled?
  expiresAt := c.expiry? config env
  tags := match c with
    | .updateLink command => command.tags.bind validateTags
    | _ => none
  metadata := match c with
    | .updateLink command => command.metadata
    | _ => none
  campaign := match c with
    | .updateLink command => command.campaign
    | _ => none

/-! Each field of an update is accepted or refused whatever the link is. -/

section

variable (command : UpdateLinkCommand)

theorem applyExpiry_eq : (∃ e, ∀ l, applyExpiry command l = .error e) ∨
    ∀ l, applyExpiry command l = .ok { l with expiresAt := command.expiresAt.getD l.expiresAt } := by
  unfold applyExpiry
  rcases command.expiresAt with _ | _ | value
  · exact .inr fun l => rfl
  · exact .inr fun l => rfl
  · by_cases h : (parseRfc3339Zulu value).isSome
    · exact .inr fun l => if_pos h
    · exact .inl ⟨_, fun l => if_neg h⟩

theorem applyTags_eq : (∃ e, ∀ l, applyTags command l = .error e) ∨
    ∀ l, applyTags command l = .ok { l with tags := (command.tags.bind validateTags).getD l.tags } := by
  unfold applyTags
  rcases command.tags with _ | tags
  · exact .inr fun l => rfl
  · cases h : validateTags tags with
    | none => exact .inl ⟨_, fun l => by simp only [h]; rfl⟩
    | some normalized => exact .inr fun l => by simp [h]

theorem applyMetadata_eq : (∃ e, ∀ l, applyMetadata command l = .error e) ∨
    ∀ l, applyMetadata command l = .ok { l with metadata := command.metadata.getD l.metadata } := by
  unfold applyMetadata
  rcases command.metadata with _ | metadata
  · exact .inr fun l => rfl
  · by_cases h : validateMetadata metadata
    · exact .inr fun l => if_pos h
    · exact .inl ⟨_, fun l => if_neg h⟩

theorem applyCampaign_eq : (∃ e, ∀ l, applyCampaign command l = .error e) ∨
    ∀ l, applyCampaign command l = .ok { l with campaign := command.campaign.getD l.campaign } := by
  unfold applyCampaign
  rcases command.campaign with _ | _ | campaign
  · exact .inr fun l => rfl
  · exact .inr fun l => rfl
  · by_cases h : validateCampaign (some campaign)
    · exact .inr fun l => if_pos h
    · exact .inl ⟨_, fun l => if_neg h⟩

/-- The fields are applied in turn, and the first that is refused decides. -/
theorem applyUpdate_eq : (∃ e, ∀ l, applyUpdate command l = .error e) ∨
    ∀ l, applyUpdate command l = .ok
      { l with enabled := command.enabled.getD l.enabled
               expiresAt := command.expiresAt.getD l.expiresAt
               tags := (command.tags.bind validateTags).getD l.tags
               metadata := command.metadata.getD l.metadata
               campaign := command.campaign.getD l.campaign } := by
  unfold applyUpdate
  rcases applyExpiry_eq command with ⟨e, he⟩ | hexpiry
  · exact .inl ⟨e, fun l => by simp only [he]; rfl⟩
  rcases applyTags_eq command with ⟨e, he⟩ | htags
  · exact .inl ⟨e, fun l => by simp only [hexpiry, he]; rfl⟩
  rcases applyMetadata_eq command with ⟨e, he⟩ | hmetadata
  · exact .inl ⟨e, fun l => by simp only [hexpiry, htags, he]; rfl⟩
  rcases applyCampaign_eq command with ⟨e, he⟩ | hcampaign
  · exact .inl ⟨e, fun l => by simp only [hexpiry, htags, hmetadata, he]; rfl⟩
  · exact .inr fun l => by simp only [hexpiry, htags, hmetadata, hcampaign]; rfl

end

/-- **A change is a patch**, or it is refused whatever the link is. -/
theorem change_eq_patch (config : ServerConfig) (env : Env) {c : Command} {slug : Str}
    {f : Str → Link → Result Link} (hc : c.change = some (slug, f)) :
    (∃ e, ∀ now l, f now l = .error e) ∨
      ∀ now l, ∃ l', f now l = .ok l' ∧ { l' with updatedAt := now } = (c.patch config env).apply now l := by
  cases c with
  | updateLink command =>
    cases hc
    rcases applyUpdate_eq command with ⟨e, he⟩ | hok
    · exact .inl ⟨e, fun _ l => he l⟩
    · exact .inr fun _ l => ⟨_, hok l, rfl⟩
  | deleteLink command => cases hc; exact .inr fun _ _ => ⟨_, rfl, rfl⟩
  | setLinkEnabled command => cases hc; exact .inr fun _ _ => ⟨_, rfl, rfl⟩
  | restoreLink command => cases hc; exact .inr fun _ _ => ⟨_, rfl, rfl⟩
  | createLink command => cases hc
  | getLink query => cases hc
  | previewLink query => cases hc

/-! ## The last command of each kind -/

/-- The command that the operation executes with success on the link `s`. -/
def effective (s : Str) (op : Op) (w : World) : Option (ServerConfig × Env × Command) :=
  match op.command? with
  | none => none
  | some (config, env, c) =>
    match (c.exec config env w.links).1 with
    | .error _ => none
    | .ok view => if view.slug = s then some (config, env, c) else none

/-- **The successful commands on the link `s`**, in the order of the run. -/
def history (s : Str) (w : World) : List Op → List (ServerConfig × Env × Command)
  | [] => []
  | op :: ops => (effective s op w).toList ++ history s (step op w).2 ops

/-- The last value that a command of the history gives. -/
def lastGiven {α : Type} (part : ServerConfig → Env → Command → Option α)
    (history : List (ServerConfig × Env × Command)) : Option α :=
  (history.filterMap fun e => part e.1 e.2.1 e.2.2).getLast?

theorem lastGiven_concat {α : Type} (part : ServerConfig → Env → Command → Option α)
    (events : List (ServerConfig × Env × Command)) (config : ServerConfig) (env : Env) (c : Command) :
    lastGiven part (events ++ [(config, env, c)]) = (part config env c).or (lastGiven part events) :=
  getLast?_filterMap_concat _ _ _

/-- The link `s` has the lifecycle that the history says. -/
def Recorded (s : Str) (events : List (ServerConfig × Env × Command)) (cat : Catalog) : Prop :=
  match cat.link s with
  | none => events = []
  | some l =>
    lastGiven (fun _ _ c => c.deleted?) events = some l.deletedAt.isSome ∧
    lastGiven (fun _ _ c => c.enabled?) events = some l.enabled ∧
    lastGiven (fun config env c => c.expiry? config env) events = some l.expiresAt

theorem effective_of_none (h : op.command? = none) : effective s op w = none := by
  simp only [effective, h]

theorem effective_of_ok {c : Command} {view : LinkView} (h : op.command? = some (config, env, c))
    (hr : (c.exec config env w.links).1 = .ok view) (hs : view.slug = s) :
    effective s op w = some (config, env, c) := by
  simp only [effective, h, hr, if_pos hs]

theorem effective_of_other {c : Command} {view : LinkView} (h : op.command? = some (config, env, c))
    (hr : (c.exec config env w.links).1 = .ok view) (hs : view.slug ≠ s) : effective s op w = none := by
  simp only [effective, h, hr, if_neg hs]

theorem effective_of_error {c : Command} {e : AppError} (h : op.command? = some (config, env, c))
    (hr : (c.exec config env w.links).1 = .error e) : effective s op w = none := by
  simp only [effective, h, hr]

section

variable {events : List (ServerConfig × Env × Command)} {c : Command}

theorem Recorded.of_same (h : Recorded s events cat) (hlink : cat'.link s = cat.link s) :
    Recorded s events cat' := by
  unfold Recorded at h ⊢
  rwa [hlink]

/-- An operation without a successful command on the link, that leaves the link alone. -/
theorem Recorded.idle (h : Recorded s events cat) (hnone : effective s op w = none)
    (hlink : cat'.link s = cat.link s) : Recorded s (events ++ (effective s op w).toList) cat' := by
  rw [hnone, Option.toList_none, List.append_nil]
  exact h.of_same hlink

/-- Only the lifecycle of the link counts. -/
theorem Recorded.of_lifecycle {l l' : Link} (h : Recorded s events cat) (hl : cat.link s = some l)
    (hl' : cat'.link s = some l') (heq : l'.lifecycle = l.lifecycle) : Recorded s events cat' := by
  unfold Recorded at h ⊢
  obtain ⟨h₁, h₂⟩ := Prod.mk.inj heq
  obtain ⟨h₂, h₃⟩ := Prod.mk.inj h₂
  rw [hl] at h
  rw [hl']
  simp only [h₁, h₂, h₃]
  exact h

/-- A patched link has the lifecycle of the history with the patch. -/
theorem Recorded.patch {l l' : Link} (h : Recorded s events cat) (hl : cat.link s = some l)
    (hl' : cat'.link s = some l') (heq : l'.lifecycle = ((c.patch config env).apply [] l).lifecycle) :
    Recorded s (events ++ [(config, env, c)]) cat' := by
  unfold Recorded at h ⊢
  rw [Patch.lifecycle_apply] at heq
  obtain ⟨h₁, h₂⟩ := Prod.mk.inj heq
  obtain ⟨h₂, h₃⟩ := Prod.mk.inj h₂
  rw [hl] at h
  rw [hl']
  obtain ⟨hdeleted, henabled, hexpiry⟩ := h
  simp only [lastGiven_concat, hdeleted, henabled, hexpiry, h₁, h₂, h₃]
  simp [Link.lifecycle, Command.patch, Option.or_some]

/-- A new link has the lifecycle of its creation. -/
theorem Recorded.create {command : CreateLinkCommand} (hbuilt : Built config env command st l)
    (hl : cat.link s = some l) : Recorded s [(config, env, .createLink command)] cat := by
  unfold Recorded
  rw [hl]
  simp [lastGiven, Command.deleted?, Command.enabled?, Command.expiry?, hbuilt.deletedAt, hbuilt.enabled,
    hbuilt.expiresAt, Except.toOption]

end

/-- **One operation** adds its successful command to the history and overwrites what that gives. -/
theorem Effect.recorded {a : Answer} {events : List (ServerConfig × Env × Command)}
    (he : Effect op w cat a cat') (h : Recorded s events cat) :
    Recorded s (events ++ (effective s op w).toList) cat' := by
  cases he with
  | quiet _ hcommand _ => exact h.idle (effective_of_none hcommand) rfl
  | redirect call l _ hcommand _ hl _ =>
    by_cases hs : s = l.slug
    · subst hs
      rw [effective_of_none hcommand, Option.toList_none, List.append_nil]
      exact h.of_lifecycle hl ((Catalog.link_replace _).trans (if_pos rfl)) rfl
    · exact h.idle (effective_of_none hcommand) ((Catalog.link_replace _).trans (if_neg hs))
  | command _ config env c cat' hcommand _ he =>
    generalize hr : (c.exec config env w.links).1 = r at he
    cases he with
    | refused _ e => exact h.idle (effective_of_error hcommand hr) rfl
    | read _ query l hc hl _ =>
      by_cases hs : l.slug = s
      · subst hs
        have hread : ((c.patch config env).apply [] l).lifecycle = l.lifecycle := by
          rcases hc with rfl | rfl <;> exact Patch.lifecycle_apply
        rw [effective_of_ok (s := l.slug) hcommand hr rfl]
        exact h.patch hl hl hread.symm
      · exact h.idle (effective_of_other hcommand hr hs) rfl
    | created command l hbuild hslug _ =>
      by_cases hs : l.slug = s
      · subst hs
        have hempty : events = [] := by simpa [Recorded, hslug] using h
        subst hempty
        rw [effective_of_ok (s := l.slug) hcommand hr rfl]
        refine Recorded.create (buildLink_ok hbuild) ?_
        rw [Catalog.link_add, if_pos rfl]
      · exact h.idle (effective_of_other hcommand hr hs) ((Catalog.link_add _).trans (if_neg (Ne.symm hs)))
    | changed _ slug f l l' hc hl hslug hf he =>
      have hview : ({ l' with updatedAt := currentTimestamp (env.clock 0) } : Link).slug = l.slug :=
        he.version.slug
      by_cases hs : l.slug = s
      · subst hs
        rw [effective_of_ok hcommand hr hview]
        refine h.patch hl ((Catalog.link_replace _).trans (if_pos rfl)) ?_
        rcases change_eq_patch config env hc with ⟨e, herr⟩ | hok
        · rw [herr] at hf
          cases hf
        · obtain ⟨l'', hf', hpatch⟩ := hok (currentTimestamp (env.clock 0)) l
          rw [hf] at hf'
          cases hf'
          rw [hpatch, Patch.lifecycle_apply, Patch.lifecycle_apply]
      · exact h.idle (effective_of_other hcommand hr fun hv => hs (hview.symm.trans hv))
          ((Catalog.link_replace _).trans (if_neg (Ne.symm hs)))

theorem run_recorded (ops : List Op) (s : Str) :
    ∃ cat, Represents (worldAfter ops).links cat ∧ Recorded s (history s {} ops) cat := by
  suffices H : ∀ (post pre : List Op) (events : List (ServerConfig × Env × Command)) (cat : Catalog),
      Represents (worldAfter pre).links cat → Recorded s events cat →
      ∃ cat', Represents (worldAfter (pre ++ post)).links cat' ∧
        Recorded s (events ++ history s (worldAfter pre) post) cat' from
    H ops [] [] .empty Represents.empty rfl
  intro post
  induction post with
  | nil =>
    intro pre events cat hcat h
    rw [List.append_nil]
    exact ⟨cat, hcat, by rwa [history, List.append_nil]⟩
  | cons op post ih =>
    intro pre events cat hcat h
    obtain ⟨cat', he, hcat'⟩ := step_effect hcat op
    rw [← worldAfter_concat] at hcat'
    obtain ⟨cat'', hcat'', h''⟩ := ih (pre ++ [op]) _ cat' hcat' (he.recorded h)
    rw [List.append_assoc, worldAfter_concat] at h''
    rw [List.append_cons]
    exact ⟨cat'', hcat'', h''⟩

/-! ## Commands of different kinds -/

/-- The link after a change, or as it is if the change is refused. -/
def changed (f : Str → Link → Result Link) (now : Str) (l : Link) : Link :=
  match f now l with
  | .error _ => l
  | .ok l' => { l' with updatedAt := now }

theorem exec_of_change {c : Command} {slug : Str} {f : Str → Link → Result Link}
    (hc : c.change = some (slug, f)) : c.exec config env st = modifyLink config env slug f st := by
  cases c <;> cases hc <;> rfl

/-- A change succeeds if there is a link and it is accepted there; every other link stays. -/
theorem exec_change (h : Represents st cat) {c : Command} {slug : Str} {f : Str → Link → Result Link}
    (hc : c.change = some (slug, f)) :
    (c.exec config env st).1.isOk = (cat.link slug).any (fun l => (f (currentTimestamp (env.clock 0)) l).isOk) ∧
    ∃ cat', Represents (c.exec config env st).2 cat' ∧ ∀ s, cat'.link s =
      (cat.link s).map fun l => if s = slug then changed f (currentTimestamp (env.clock 0)) l else l := by
  obtain ⟨hread, hst⟩ := h.getLinkForRead slug
  rw [exec_of_change hc]
  unfold modifyLink LegacyLinkStore.findBySlug
  cases hget : getLinkForRead slug st with
  | mk found st' =>
    rw [hget] at hread hst
    simp only at hread hst ⊢
    rw [← hread]
    -- if nothing is written, the catalog stays
    have hstay : (∀ l, cat.link slug = some l → changed f (currentTimestamp (env.clock 0)) l = l) →
        ∀ s, cat.link s =
          (cat.link s).map fun l => if s = slug then changed f (currentTimestamp (env.clock 0)) l else l := by
      intro hsame s
      cases hl : cat.link s with
      | none => rfl
      | some l =>
        by_cases hs : s = slug
        · subst hs
          simp [hsame l hl]
        · simp [hs]
    cases found with
    | none => exact ⟨rfl, cat, hst, hstay fun l hl => by rw [hl] at hread; cases hread⟩
    | some l =>
      cases hf : f (currentTimestamp (env.clock 0)) l with
      | error e =>
        simp only [hf, Option.any_some]
        refine ⟨rfl, cat, hst, hstay fun m hm => ?_⟩
        rw [hm] at hread
        cases hread
        simp only [changed, hf]
      | ok l' =>
        have hl : cat.link l.slug = some l := Catalog.link_self hread.symm
        have hslug : l.slug = slug := cat.slug_eq hread.symm
        have he := change_edit (t := currentTimestamp (env.clock 0)) hc hf
        obtain ⟨st'', hup, hst''⟩ := hst.update hl he.version.id he.version.slug
        simp only [hf, LegacyLinkStore.update, hup, Option.any_some]
        refine ⟨rfl, _, hst'', fun s => ?_⟩
        rw [Catalog.link_replace, hslug]
        by_cases hs : s = slug
        · rw [hs, ← hread]
          simp [changed, hf]
        · simp [hs]

/-- The links after an operation are those after its command. -/
theorem step_links_of_command {c : Command} (h : op.command? = some (config, env, c)) :
    (step op w).2.links = (c.exec config env w.links).2 := by
  cases op with
  | command config' env' c' =>
    cases h
    rfl
  | request call =>
    obtain ⟨status, show_, -, hrun⟩ := request_of_command h
    simp only [step, hrun]
    rfl

section

variable {c c' : Command} {slug slug' : Str} {f f' : Str → Link → Result Link} {config' : ServerConfig}
  {env' : Env}

/-- Whether a change is accepted does not depend on the link. -/
theorem change_isOk (hc : c.change = some (slug, f)) : ∃ b, ∀ now l, (f now l).isOk = b := by
  rcases change_eq_patch {} .still hc with ⟨e, herr⟩ | hok
  · exact ⟨false, fun now l => by rw [herr]; rfl⟩
  · refine ⟨true, fun now l => ?_⟩
    obtain ⟨l', hl', -⟩ := hok now l
    rw [hl']
    rfl

theorem changed_eq (config : ServerConfig) (env : Env) (hc : c.change = some (slug, f)) :
    (∀ now l, changed f now l = l) ∨ ∀ now l, changed f now l = (c.patch config env).apply now l := by
  rcases change_eq_patch config env hc with ⟨e, herr⟩ | hok
  · exact .inl fun now l => by simp only [changed, herr]
  · refine .inr fun now l => ?_
    obtain ⟨l', hl', hpatch⟩ := hok now l
    simp only [changed, hl', hpatch]

/-- Changes of different kinds commute. -/
theorem changed_comm (hc : c.change = some (slug, f)) (hc' : c'.change = some (slug', f'))
    (h : (c.patch config env).LifecycleDisjoint (c'.patch config' env')) (now now' : Str) (l : Link) :
    (changed f now (changed f' now' l)).lifecycle = (changed f' now' (changed f now l)).lifecycle ∧
    ((c.patch config env).Disjoint (c'.patch config' env') →
      (changed f now (changed f' now' l)).untimed = (changed f' now' (changed f now l)).untimed) := by
  rcases changed_eq config env hc with hid | hpatch
  · simp only [hid, implies_true, and_self]
  rcases changed_eq config' env' hc' with hid' | hpatch'
  · simp only [hid', implies_true, and_self]
  simp only [hpatch, hpatch']
  exact ⟨Patch.lifecycle_comm h, Patch.apply_comm⟩

end

/-- What a link tells about its lifecycle. -/
def reportedStatus (deleted enabled : Bool) (expiry : Option Str) (now : TimePoint) : LinkStatus :=
  if deleted then .deleted
  else if !enabled then .disabled
  else if isExpired expiry now then .expired
  else .active

theorem getLink_stored (h : Represents st cat) (hl : cat.link s = some l) {query : GetLinkQuery}
    (hq : query = ⟨.slug, s⟩ ∨ query = ⟨.id, l.id⟩) :
    (getLink config env query st).1 = .ok (toView config l (env.clock 0)) := by
  unfold getLink
  rcases hq with rfl | rfl
  · simp only [LegacyLinkStore.findBySlug, (h.getLinkForRead s).1, hl]
  · have hid : LegacyLinkStore.findById l.id st = some l := h.findById.2 ⟨Catalog.link_self hl, rfl⟩
    simp only [hid]

section

variable {c c' : Command} {slug slug' : Str} {f f' : Str → Link → Result Link} {config' : ServerConfig}
  {env' : Env} {a b : Op}

/-- The links after one change. -/
theorem step_change (h : Represents w.links cat) (ha : a.command? = some (config, env, c))
    (hc : c.change = some (slug, f)) :
    ∃ cat', Represents (step a w).2.links cat' ∧ ∀ s, cat'.link s =
      (cat.link s).map fun l => if s = slug then changed f (currentTimestamp (env.clock 0)) l else l := by
  rw [step_links_of_command ha]
  exact (exec_change h hc).2

/-- A change succeeds after another one if it does before it. -/
theorem exec_isOk_step {ops : List Op} (hchange : c.change ≠ none) (hb : b.command? = some (config', env', c'))
    (hchange' : c'.change ≠ none) :
    (c.exec config env (worldAfter ops).links).1.isOk =
      (c.exec config env (step b (worldAfter ops)).2.links).1.isOk := by
  obtain ⟨⟨slug, f⟩, hc⟩ := Option.ne_none_iff_exists'.1 hchange
  obtain ⟨⟨slug', f'⟩, hc'⟩ := Option.ne_none_iff_exists'.1 hchange'
  obtain ⟨cat, h⟩ := run_represents ops
  obtain ⟨cat', h', hlink⟩ := step_change h hb hc'
  obtain ⟨ok, hok⟩ := change_isOk hc
  rw [(exec_change h hc).1, (exec_change h' hc).1, hlink]
  cases cat.link slug <;> simp [hok]

/-- The links after two changes. -/
theorem two_changes {ops : List Op} (h : Represents (worldAfter ops).links cat)
    (ha : a.command? = some (config, env, c)) (hc : c.change = some (slug, f))
    (hb : b.command? = some (config', env', c')) (hc' : c'.change = some (slug', f')) (s : Str) :
    (worldAfter (ops ++ [a, b])).links.repository.getBySlug s =
      ((cat.link s).map fun l => if s = slug then changed f (currentTimestamp (env.clock 0)) l else l).map
        fun l => if s = slug' then changed f' (currentTimestamp (env'.clock 0)) l else l := by
  obtain ⟨cat₁, h₁, hlink₁⟩ := step_change h ha hc
  obtain ⟨cat₂, h₂, hlink₂⟩ := step_change h₁ hb hc'
  have hops : ops ++ [a, b] = ops ++ [a] ++ [b] := by simp
  rw [hops, worldAfter_concat, worldAfter_concat, h₂.getBySlug, hlink₂, hlink₁]

end

/-- The last values given are those of the link, and `GetLink` reports them. -/
theorem lifecycle_of_history {ops : List Op} (hl : (worldAfter ops).links.repository.getBySlug s = some l) :
    lastGiven (fun _ _ c => c.deleted?) (history s {} ops) = some l.deletedAt.isSome ∧
    lastGiven (fun _ _ c => c.enabled?) (history s {} ops) = some l.enabled ∧
    lastGiven (fun config env c => c.expiry? config env) (history s {} ops) = some l.expiresAt ∧
    ∀ config env query, query = ⟨.slug, s⟩ ∨ query = ⟨.id, l.id⟩ →
      (getLink config env query (worldAfter ops).links).1 = .ok (toView config l (env.clock 0)) := by
  obtain ⟨cat, hcat, hrec⟩ := run_recorded ops s
  rw [hcat.getBySlug] at hl
  unfold Recorded at hrec
  rw [hl] at hrec
  obtain ⟨hdeleted, henabled, hexpiry⟩ := hrec
  exact ⟨hdeleted, henabled, hexpiry, fun config env query hq => getLink_stored hcat hl hq⟩

/-- Two changes of different kinds do the same to every link in either order. -/
theorem two_changes_comm {ops : List Op} {a b : Op} {c c' : Command} {config' : ServerConfig} {env' : Env}
    (ha : a.command? = some (config, env, c)) (hb : b.command? = some (config', env', c'))
    (hchange : c.change ≠ none) (hchange' : c'.change ≠ none)
    (hdisjoint : (c.patch config env).LifecycleDisjoint (c'.patch config' env')) (s : Str) :
    ((worldAfter (ops ++ [a, b])).links.repository.getBySlug s).map Link.lifecycle =
        ((worldAfter (ops ++ [b, a])).links.repository.getBySlug s).map Link.lifecycle ∧
      ((c.patch config env).Disjoint (c'.patch config' env') →
        ((worldAfter (ops ++ [a, b])).links.repository.getBySlug s).map Link.untimed =
          ((worldAfter (ops ++ [b, a])).links.repository.getBySlug s).map Link.untimed) := by
  obtain ⟨⟨slug, f⟩, hc⟩ := Option.ne_none_iff_exists'.1 hchange
  obtain ⟨⟨slug', f'⟩, hc'⟩ := Option.ne_none_iff_exists'.1 hchange'
  obtain ⟨cat, hcat⟩ := run_represents ops
  rw [two_changes hcat ha hc hb hc' s, two_changes hcat hb hc' ha hc s]
  cases cat.link s with
  | none => simp only [Option.map_none, implies_true, and_self]
  | some l =>
    have hcomm := changed_comm hc hc' hdisjoint (currentTimestamp (env.clock 0))
      (currentTimestamp (env'.clock 0)) l
    -- on another slug than its own a command does nothing
    by_cases hs : s = slug
    · by_cases hs' : s = slug'
      · simp only [Option.map_some, if_pos hs, if_pos hs', Option.some.injEq]
        exact ⟨hcomm.1.symm, fun hd => (hcomm.2 hd).symm⟩
      · simp only [Option.map_some, if_pos hs, if_neg hs', implies_true, and_self]
    · simp only [Option.map_some, if_neg hs, implies_true, and_self]

/-- **The last command of each kind decides.** After every run, a link is deleted, enabled and expires as
the last successful command of its history that says so gave it; `GetLink` reports deleted, else disabled,
else expired, else active; and two commands that change different parts of the lifecycle do the same to
every link in either order up to timestamps, and the same of them succeed. -/
theorem lifecycle_last_writer :
    (∀ ops s l, (worldAfter ops).links.repository.getBySlug s = some l →
      ∃ deleted enabled expiry,
        lastGiven (fun _ _ c => c.deleted?) (history s {} ops) = some deleted ∧
        lastGiven (fun _ _ c => c.enabled?) (history s {} ops) = some enabled ∧
        lastGiven (fun config env c => c.expiry? config env) (history s {} ops) = some expiry ∧
        l.deletedAt.isSome = deleted ∧ l.enabled = enabled ∧ l.expiresAt = expiry ∧
        ∀ config env query, query = ⟨.slug, s⟩ ∨ query = ⟨.id, l.id⟩ →
          ∃ view, (getLink config env query (worldAfter ops).links).1 = .ok view ∧
            view.status = reportedStatus deleted enabled expiry (env.clock 0)) ∧
    ∀ ops a b config env c config' env' c', a.command? = some (config, env, c) →
      b.command? = some (config', env', c') → c.change ≠ none → c'.change ≠ none →
      (c.patch config env).LifecycleDisjoint (c'.patch config' env') →
      (c.exec config env (worldAfter ops).links).1.isOk =
        (c.exec config env (worldAfter (ops ++ [b])).links).1.isOk ∧
      (c'.exec config' env' (worldAfter ops).links).1.isOk =
        (c'.exec config' env' (worldAfter (ops ++ [a])).links).1.isOk ∧
      ∀ s, ((worldAfter (ops ++ [a, b])).links.repository.getBySlug s).map Link.lifecycle =
          ((worldAfter (ops ++ [b, a])).links.repository.getBySlug s).map Link.lifecycle ∧
        ((c.patch config env).Disjoint (c'.patch config' env') →
          ((worldAfter (ops ++ [a, b])).links.repository.getBySlug s).map Link.untimed =
            ((worldAfter (ops ++ [b, a])).links.repository.getBySlug s).map Link.untimed) := by
  constructor
  · intro ops s l hl
    obtain ⟨hdeleted, henabled, hexpiry, hget⟩ := lifecycle_of_history hl
    refine ⟨_, _, _, hdeleted, henabled, hexpiry, rfl, rfl, rfl, fun config env query hq => ?_⟩
    exact ⟨_, hget config env query hq, rfl⟩
  · intro ops a b config env c config' env' c' ha hb hchange hchange' hdisjoint
    refine ⟨?_, ?_, two_changes_comm ha hb hchange hchange' hdisjoint⟩
    · rw [worldAfter_concat]
      exact exec_isOk_step hchange hb hchange'
    · rw [worldAfter_concat]
      exact exec_isOk_step hchange' ha hchange

theorem lifecycle_last_writer_sample :
    (∃ l, (worldAfter sampleRun).links.repository.getBySlug "abc" = some l ∧
      l.deletedAt.isSome = false ∧ l.enabled = true) ∧
    ∀ s, ((worldAfter (sampleRun.take 1 ++ [.command {} .still (.deleteLink ⟨"abc"⟩),
        .command {} .still (.setLinkEnabled ⟨"abc", false⟩)])).links.repository.getBySlug s).map
          Link.untimed =
      ((worldAfter (sampleRun.take 1 ++ [.command {} .still (.setLinkEnabled ⟨"abc", false⟩),
        .command {} .still (.deleteLink ⟨"abc"⟩)])).links.repository.getBySlug s).map Link.untimed := by
  constructor
  · have hrun : ((worldAfter sampleRun).links.repository.getBySlug "abc").isSome = true ∧
        lastGiven (fun _ _ c => c.deleted?) (history "abc" {} sampleRun) = some false ∧
        lastGiven (fun _ _ c => c.enabled?) (history "abc" {} sampleRun) = some true := by
      decide +kernel
    obtain ⟨hsome, hdeleted, henabled⟩ := hrun
    obtain ⟨l, hl⟩ := Option.isSome_iff_exists.1 hsome
    obtain ⟨d, e, x, hd, he, -, hld, hle, -⟩ := lifecycle_last_writer.1 sampleRun _ l hl
    rw [hdeleted] at hd
    rw [henabled] at he
    cases hd
    cases he
    exact ⟨l, hl, hld, hle⟩
  · have hdisjoint : ((Command.deleteLink ⟨"abc"⟩).patch {} .still).Disjoint
        ((Command.setLinkEnabled ⟨"abc", false⟩).patch {} .still) :=
      ⟨⟨.inr rfl, .inl rfl, .inl rfl⟩, .inl rfl, .inl rfl, .inl rfl⟩
    intro s
    have h := lifecycle_last_writer.2 (sampleRun.take 1) (.command {} .still (.deleteLink ⟨"abc"⟩))
      (.command {} .still (.setLinkEnabled ⟨"abc", false⟩)) _ _ _ _ _ _ rfl rfl nofun nofun
      hdisjoint.toLifecycleDisjoint
    exact (h.2.2 s).2 hdisjoint

end UrlShortener

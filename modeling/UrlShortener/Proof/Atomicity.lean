import UrlShortener.Proof.Lifecycle

/-!
# All or nothing

An update changes a copy of the record field by field, and each of its checks can stop it halfway.

* `Represents.repository_eq`, `Represents.repository_replace`: a catalog determines the two indexes, so what an
  operation does to the repository can be read off what it does to the catalog.
* `step_failed_iff`: an operation that executes a command fails when the command does.
* `applyUpdate_revise`: an update that passes all its checks has replaced the fields that were given.
* `commands_all_or_nothing`: **an operation that fails leaves both indexes as they are, and an update that
  succeeds stores the record with the fields that were given replaced**.
-/

namespace UrlShortener

open Runs

variable {config : ServerConfig} {env : Env} {st st' : LinkStore} {op : Op} {w : World} {cat : Catalog}

/-! ## The indexes of a catalog -/

/-- **A catalog determines the repository.** -/
theorem Represents.repository_eq (h : Represents st cat) (h' : Represents st' cat) :
    st'.repository = st.repository := by
  have hslug : st'.repository.slugToId = st.repository.slugToId := by
    refine Finmap.ext_lookup fun s => Option.ext fun i => ?_
    rw [h.bySlug, h'.bySlug]
  have hid : st'.repository.byId = st.repository.byId := by
    refine Finmap.ext_lookup fun i => Option.ext fun l => ?_
    rw [h.byId, h'.byId]
  cases hr : st.repository
  cases hr' : st'.repository
  rw [hr, hr'] at hslug hid
  cases hslug
  cases hid
  rfl

/-- Another version of a link changes its one entry in the index by identifier. -/
theorem Represents.repository_replace (h : Represents st cat) {l l' : Link} {hl : cat.link l.slug = some l}
    {hid : l'.id = l.id} {hslug : l'.slug = l.slug} (h' : Represents st' (cat.replace l l' hl hid hslug)) :
    st'.repository = { st.repository with byId := st.repository.byId.insert l.id l' } := by
  obtain ⟨st'', hup, hst''⟩ := h.update hl hid hslug
  have hold : st.repository.byId.lookup l'.id = some l := (h.byId _ l).2 ⟨hl, hid.symm⟩
  rw [hst''.repository_eq h']
  simp only [updateLinkAndInvalidateCache, InMemoryMetadataRepository.update, hold] at hup
  cases hup
  rw [hid]

/-! ## Failing -/

/-- A command that returns an error, or an error response. -/
inductive Answer.Failed : Answer → Prop
  | result (e : AppError) : Failed (.result (.error e))
  | response {res : Response} (h : 400 ≤ res.status) : Failed (.response res)

theorem failed_result_iff {r : Result LinkView} : (Answer.result r).Failed ↔ ∃ e, r = .error e := by
  constructor
  · rintro ⟨e⟩
    exact ⟨e, rfl⟩
  · rintro ⟨e, rfl⟩
    exact .result e

theorem failed_response_iff {res : Response} : (Answer.response res).Failed ↔ 400 ≤ res.status := by
  constructor
  · intro h
    cases h with
    | response h => exact h
  · exact .response

theorem failed_request_iff (call : Call) (w : World) :
    (step (.request call) w).1.Failed ↔ 400 ≤ (handleShortenerRequest call w).1.status :=
  failed_response_iff

theorem appErrorResponse_status (call : Call) (e : AppError) : 400 ≤ (appErrorResponse call e).status := by
  unfold appErrorResponse
  rw [makeApiErrorResponse_status]
  cases e.code <;> simp [statusForAppError]

theorem answerView_failed {call : Call} {status : ℕ} {show_ : LinkView → Str} {r : Result LinkView × LinkStore}
    (hs : status = 200 ∨ status = 201) :
    400 ≤ (answerView call status show_ w r).1.status ↔ ∃ e, r.1 = .error e := by
  obtain ⟨result, st⟩ := r
  cases result with
  | error e => exact iff_of_true (appErrorResponse_status call e) ⟨e, rfl⟩
  | ok view =>
    simp only [answerView, makeResponse_status, reduceCtorEq, exists_false, iff_false]
    omega

/-- An operation that executes a command fails when the command does. -/
theorem step_failed_iff {c : Command} (h : op.command? = some (config, env, c)) :
    (step op w).1.Failed ↔ ∃ e, (c.exec config env w.links).1 = .error e := by
  cases op with
  | command config' env' c' =>
    cases h
    exact failed_result_iff
  | request call =>
    obtain ⟨status, show_, hs, hrun⟩ := request_of_command h
    rw [failed_request_iff, hrun]
    exact answerView_failed hs

/-- **What fails changes nothing.** -/
theorem Effect.eq_of_failed {cat' : Catalog} (he : Effect op w cat (step op w).1 cat') (hf : (step op w).1.Failed) :
    cat' = cat := by
  generalize ha : (step op w).1 = a at he
  cases he with
  | quiet _ _ _ => rfl
  | command _ config env c cat' hcommand _ he =>
    obtain ⟨e, herror⟩ := (step_failed_iff hcommand).1 hf
    rw [herror] at he
    cases he
    rfl
  | redirect call l _ _ _ _ _ =>
    -- a redirect is no error
    rw [ha] at hf
    have := redirectStatusFor_eq l
    rw [failed_response_iff, redirectResponse_status] at hf
    omega

/-! ## Updating -/

/-- Tags without surrounding blanks, each once, in the order they are first given. -/
def normalTags (tags : List Str) : List Str := (tags.map trim).eraseDups

theorem validateTagsLoop_normal {raw acc tags : List Str} (h : validateTagsLoop raw acc = some tags) :
    tags = acc ++ ((raw.map trim).filter fun t => !acc.contains t).eraseDups := by
  induction raw generalizing acc with
  | nil =>
    cases h
    simp
  | cons rawTag rest ih =>
    obtain ⟨-, ⟨hseen, h⟩ | ⟨hnew, h⟩⟩ := validateTagsLoop_cons h
    · rw [ih h, List.map_cons, List.filter_cons_of_neg (by simpa using hseen)]
    · -- the tag is pushed, and later ones like it are dropped on either side
      have hrest : (rest.map trim).filter (fun t => !(acc ++ [trim rawTag]).contains t) =
          ((rest.map trim).filter fun t => !acc.contains t).filter fun t => !t == trim rawTag := by
        rw [List.filter_filter]
        refine List.filter_congr fun t _ => ?_
        rw [Bool.eq_iff_iff]
        simp [and_comm]
      rw [ih h, hrest, List.map_cons, List.filter_cons_of_pos (by simpa using hnew), List.eraseDups_cons]
      simp

theorem validateTags_normal {raw tags : List Str} (h : validateTags raw = some tags) : tags = normalTags raw := by
  unfold validateTags at h
  split at h
  · cases h
  · simpa [normalTags] using validateTagsLoop_normal h

/-- The record with the fields of the command in place of its own. A field that is given as null is cleared. -/
def UpdateLinkCommand.revise (command : UpdateLinkCommand) (now : Str) (l : Link) : Link :=
  { l with
    enabled := command.enabled.getD l.enabled
    expiresAt := command.expiresAt.getD l.expiresAt
    tags := (command.tags.map normalTags).getD l.tags
    metadata := command.metadata.getD l.metadata
    campaign := command.campaign.getD l.campaign
    updatedAt := now }

theorem applyUpdate_revise {command : UpdateLinkCommand} {l l' : Link} (now : Str)
    (h : applyUpdate command l = .ok l') : { l' with updatedAt := now } = command.revise now l := by
  -- the tags were accepted, so what is stored is their normal form
  have htags : command.tags.bind validateTags = command.tags.map normalTags := by
    unfold applyUpdate at h
    obtain ⟨l₁, -, h⟩ := bind_eq_ok h
    obtain ⟨l₂, h₂, -⟩ := bind_eq_ok h
    unfold applyTags at h₂
    cases hraw : command.tags with
    | none => rfl
    | some raw =>
      simp only [hraw] at h₂
      cases hvalid : validateTags raw with
      | none =>
        simp only [hvalid] at h₂
        cases h₂
      | some tags => simp [hvalid, validateTags_normal hvalid]
  rcases applyUpdate_eq command with ⟨e, he⟩ | hok
  · rw [he l] at h
    cases h
  · rw [hok l, htags] at h
    cases h
    rfl

/-- An update that succeeds replaces the link by its revision. -/
theorem updateLink_repository (h : Represents st cat) {command : UpdateLinkCommand} {view : LinkView}
    (hok : (updateLink config env command st).1 = .ok view) :
    ∃ l, st.repository.getBySlug command.slug = some l ∧
      (updateLink config env command st).2.repository =
        { st.repository with
          byId := st.repository.byId.insert l.id (command.revise (currentTimestamp (env.clock 0)) l) } := by
  have heffect : ∃ cat', Command.Effect config env st cat (.updateLink command)
      (updateLink config env command st).1 cat' ∧ Represents (updateLink config env command st).2 cat' :=
    exec_effect h (.updateLink command)
  obtain ⟨cat', he, hst⟩ := heffect
  rw [hok] at he
  cases he with
  | read _ query l hc hl hq => rcases hc with hc | hc <;> cases hc
  | changed _ slug f l l' hc hl hslug hf he =>
    cases hc
    refine ⟨l, (h.getBySlug _).trans (hslug ▸ hl), ?_⟩
    rw [h.repository_replace hst, applyUpdate_revise _ hf]

/-- **All or nothing.** After every run, an operation that fails (a command that returns an error, or a request
that is answered with an error) leaves both indexes of the repository as they are. An update that succeeds, given
as a command or as a request, stores the record it found with the fields that were given replaced and the time of
the update, and changes nothing else. -/
theorem commands_all_or_nothing (ops : List Op) (op : Op) :
    ((step op (worldAfter ops)).1.Failed →
      (worldAfter (ops ++ [op])).links.repository = (worldAfter ops).links.repository) ∧
    ∀ config env command view, op.command? = some (config, env, .updateLink command) →
      (updateLink config env command (worldAfter ops).links).1 = .ok view →
      ∃ l, (worldAfter ops).links.repository.getBySlug command.slug = some l ∧
        (worldAfter (ops ++ [op])).links.repository =
          { (worldAfter ops).links.repository with
            byId := (worldAfter ops).links.repository.byId.insert l.id
              (command.revise (currentTimestamp (env.clock 0)) l) } := by
  obtain ⟨cat, hcat⟩ := run_represents ops
  rw [worldAfter_concat]
  refine ⟨fun hf => ?_, fun config env command view hcommand hok => ?_⟩
  · obtain ⟨cat', he, hcat'⟩ := step_effect hcat op
    rw [he.eq_of_failed hf] at hcat'
    exact hcat.repository_eq hcat'
  · rw [step_links_of_command hcommand]
    exact updateLink_repository hcat hok

/-- A body whose second field is refused. -/
def samplePatch : Call where
  config := {}
  env := .still
  req :=
    { method := .patch
      target := "/api/v1/links/abc"
      body := "\x7b\"enabled\":false,\"tags\":[\"a b\"]\x7d" }

/-- Clears the expiry and gives a tag twice. -/
def sampleRevision : UpdateLinkCommand where
  slug := "abc"
  expiresAt := some none
  tags := some [" x", "x"]

theorem commands_all_or_nothing_sample :
    (worldAfter (sampleRun ++ [.request samplePatch])).links.repository = (worldAfter sampleRun).links.repository ∧
    ∃ l, (worldAfter sampleRun).links.repository.getBySlug sampleRevision.slug = some l ∧
      (worldAfter (sampleRun ++ [.command {} .still (.updateLink sampleRevision)])).links.repository =
        { (worldAfter sampleRun).links.repository with
          byId := (worldAfter sampleRun).links.repository.byId.insert l.id
            (sampleRevision.revise (currentTimestamp (Env.still.clock 0)) l) } := by
  have hfailed : 400 ≤ (handleShortenerRequest samplePatch (worldAfter sampleRun)).1.status := by decide +kernel
  have hok : (updateLink {} .still sampleRevision (worldAfter sampleRun).links).1.isOk = true := by decide +kernel
  obtain ⟨view, hview⟩ := exists_of_isOk hok
  rw [← failed_request_iff] at hfailed
  constructor
  · exact (commands_all_or_nothing sampleRun (.request samplePatch)).1 hfailed
  · exact (commands_all_or_nothing sampleRun (.command {} .still (.updateLink sampleRevision))).2 {} .still
      sampleRevision view rfl hview

end UrlShortener

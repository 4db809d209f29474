import UrlShortener.Proof.CliArgs
import UrlShortener.Proof.Creation
import UrlShortener.Proof.RoundTrips

/-!
# Processes of the command line

* `cli_agrees_with_rest`: a `link` command and a request that issue the same command of the service to the same stores
  change them alike, and what the process prints is the body of the answer.
* `one_shot_outcomes`: a process finds no links. So `create` and `stats` are the only verbs that can succeed, and
  `create` never meets a conflict.

The arguments of a process hold no NUL; what is shown here is so for every list of texts.
-/

namespace UrlShortener.Cli

open Options (CommandLineParser)
open Text (mem_intercalate)

variable {call : Call} {context : RouteContext} {config : ServerConfig} {env : Env} {st : LinkStore} {w : World}
  {e : AppError}

/-! ## Errors of commands -/

theorem chooseSlug_error {command : CreateLinkCommand} (h : chooseSlug config env command st = .error e) :
    e.code = .invalidSlug ∨ e.code = .reservedSlug ∨ e.code = .internal ∨
      e.code = .slugConflict ∧ ∃ slug, LegacyLinkStore.slugExists slug st = true := by
  unfold chooseSlug at h
  cases hslug : command.slug with
  | none =>
    simp only [hslug] at h
    cases hfree : generateFreeSlug config env st with
    | none =>
      simp only [hfree] at h
      cases h
      exact .inr (.inr (.inl rfl))
    | some slug =>
      simp only [hfree] at h
      cases h
  | some slug =>
    simp only [hslug] at h
    split_ifs at h with hvalid hreserved hexists
    · cases h
      exact .inl rfl
    · cases h
      exact .inr (.inl rfl)
    · cases h
      exact .inr (.inr (.inr ⟨rfl, slug, hexists⟩))

theorem createExpiry_error {now : TimePoint} {command : CreateLinkCommand}
    (h : createExpiry config now command = .error e) : e.code = .invalidField := by
  unfold createExpiry at h
  cases hexpiry : command.expiresAt with
  | none =>
    simp only [hexpiry] at h
    cases hdefault : config.shortenerDefaultExpirySeconds <;> (simp only [hdefault] at h; cases h)
  | some value =>
    simp only [hexpiry] at h
    split at h
    · cases h
      rfl
    · cases h

/-- Everything that can be wrong with a new link, before it is written. -/
theorem buildLink_error {command : CreateLinkCommand} (h : buildLink config env command st = .error e) :
    e.code = .invalidUrl ∨ e.code = .invalidField ∨ chooseSlug config env command st = .error e := by
  unfold buildLink newLink at h
  split at h
  · cases h
    exact .inl rfl
  · split at h
    · rename_i hslug
      cases h
      exact .inr (.inr hslug)
    · split at h
      · rename_i hexpiry
        cases h
        exact .inr (.inl (createExpiry_error hexpiry))
      · split at h
        · cases h
          exact .inr (.inl rfl)
        · split_ifs at h
          · cases h
            exact .inr (.inl rfl)
          · cases h
            exact .inr (.inl rfl)

/-- A conflict is one with a slug that is there, or one that the store reports. -/
theorem createLink_error {command : CreateLinkCommand} (h : (createLink config env command st).1 = .error e) :
    e.code ≠ .none ∧ (e.code = .slugConflict → (∃ slug, LegacyLinkStore.slugExists slug st = true) ∨
      ∃ link e', LegacyLinkStore.create link st = .error e') := by
  unfold createLink at h
  split at h
  · rename_i hbuild
    cases h
    rcases buildLink_error hbuild with hcode | hcode | hslug
    · simp [hcode]
    · simp [hcode]
    · rcases chooseSlug_error hslug with hcode | hcode | hcode | ⟨hcode, hexists⟩
      · simp [hcode]
      · simp [hcode]
      · simp [hcode]
      · exact ⟨by simp [hcode], fun _ => .inl hexists⟩
  · split at h
    · rename_i hcreate
      cases h
      refine ⟨?_, fun _ => .inr ⟨_, _, hcreate⟩⟩
      rw [create_error hcreate]
      simp
    · cases h

theorem getLink_error {query : GetLinkQuery} (h : (getLink config env query st).1 = .error e) : e = notFoundError := by
  unfold getLink at h
  simp only at h
  split at h
  · cases h
    rfl
  · cases h

theorem modifyLink_error {slug : Str} {change : Str → Link → Result Link}
    (hchange : ∀ now link e, change now link = .error e → e.code ≠ .none)
    (h : (modifyLink config env slug change st).1 = .error e) : e.code ≠ .none := by
  unfold modifyLink at h
  split at h
  · cases h
    simp [notFoundError]
  · simp only at h
    split at h
    · rename_i herror
      cases h
      exact hchange _ _ _ herror
    · split at h
      · split_ifs at h with hnone
        · cases h
          simp
        · cases h
          exact hnone
      · cases h

theorem applyExpiry_error {command : UpdateLinkCommand} {link : Link} (h : applyExpiry command link = .error e) :
    e.code = .invalidField := by
  unfold applyExpiry at h
  split at h
  · cases h
  · cases h
  · split at h
    · cases h
    · cases h
      rfl

theorem applyTags_error {command : UpdateLinkCommand} {link : Link} (h : applyTags command link = .error e) :
    e.code = .invalidField := by
  unfold applyTags at h
  split at h
  · cases h
  · split at h
    · cases h
      rfl
    · cases h

theorem applyMetadata_error {command : UpdateLinkCommand} {link : Link} (h : applyMetadata command link = .error e) :
    e.code = .invalidField := by
  unfold applyMetadata at h
  split at h
  · cases h
  · split at h
    · cases h
    · cases h
      rfl

theorem applyCampaign_error {command : UpdateLinkCommand} {link : Link} (h : applyCampaign command link = .error e) :
    e.code = .invalidField := by
  unfold applyCampaign at h
  split at h
  · cases h
  · cases h
  · split at h
    · cases h
    · cases h
      rfl

theorem applyUpdate_error {command : UpdateLinkCommand} {link : Link} (h : applyUpdate command link = .error e) :
    e.code = .invalidField := by
  unfold applyUpdate at h
  rcases bind_eq_error h with h | ⟨link, h⟩
  · exact applyExpiry_error h
  rcases bind_eq_error h with h | ⟨link, h⟩
  · exact applyTags_error h
  rcases bind_eq_error h with h | ⟨link, h⟩
  · exact applyMetadata_error h
  · exact applyCampaign_error h

/-- **A command that fails has a code.** -/
theorem exec_error {c : Command} (h : (c.exec config env st).1 = .error e) : e.code ≠ .none := by
  cases c with
  | createLink command => exact (createLink_error h).1
  | getLink query => simp [getLink_error h, notFoundError]
  | previewLink query => simp [getLink_error h, notFoundError]
  | updateLink command => exact modifyLink_error (fun _ _ _ hc => by simp [applyUpdate_error hc]) h
  | deleteLink command => exact modifyLink_error (fun _ _ _ hc => by cases hc) h
  | setLinkEnabled command => exact modifyLink_error (fun _ _ _ hc => by cases hc) h
  | restoreLink command => exact modifyLink_error (fun _ _ _ hc => by cases hc) h

/-! ## Lines -/

/-- There is no line feed, carriage return or tab in the text. -/
def isUnbroken (s : Str) : Bool := s.all fun c => !isLineControl c

theorem isUnbroken_append (s t : Str) : isUnbroken (s ++ t) = (isUnbroken s && isUnbroken t) := List.all_append

theorem isUnbroken_iff {s : Str} : isUnbroken s = true ↔ ∀ c ∈ s, isLineControl c = false := by
  simp [isUnbroken]

theorem isUnbroken_jsonString (s : Str) : isUnbroken (jsonString s) = true :=
  isUnbroken_iff.2 fun _ => not_isLineControl_of_mem_jsonString

theorem isUnbroken_decimal (n : ℕ) : isUnbroken (decimal n) = true := by
  refine isUnbroken_iff.2 fun c hc => ?_
  have hdigit := decimal_isDigit hc
  simp only [isLineControl, Bool.or_eq_false_iff, beq_eq_false_iff_ne]
  refine ⟨⟨?_, ?_⟩, ?_⟩ <;> (rintro rfl; cases hdigit)

theorem isUnbroken_commaSep {parts : List Str} (h : ∀ p ∈ parts, isUnbroken p = true) :
    isUnbroken (commaSep parts) = true := by
  refine isUnbroken_iff.2 fun c hc => ?_
  rcases mem_intercalate hc with rfl | ⟨p, hp, hc⟩
  · rfl
  · exact isUnbroken_iff.1 (h p hp) c hc

theorem isUnbroken_jsonOptional (o : Option Str) : isUnbroken (jsonOptional o) = true := by
  cases o with
  | none => decide
  | some s => exact isUnbroken_jsonString s

theorem isUnbroken_pairs (items : List (Str × Str)) : isUnbroken (commaSep (items.map pairText)) = true := by
  refine isUnbroken_commaSep fun p hp => ?_
  obtain ⟨item, -, rfl⟩ := List.mem_map.1 hp
  rw [pairText, isUnbroken_append, isUnbroken_append, isUnbroken_jsonString, isUnbroken_jsonString]
  decide

theorem isUnbroken_campaignText (campaign : Option Campaign) : isUnbroken (campaignText campaign) = true := by
  cases campaign with
  | none => decide
  | some c =>
    rw [campaignText, serializeCampaign_eq, isUnbroken_append, isUnbroken_append, isUnbroken_pairs]
    decide

theorem isUnbroken_tags (tags : List Str) : isUnbroken (commaSep (tags.map jsonString)) = true := by
  refine isUnbroken_commaSep fun p hp => ?_
  obtain ⟨tag, -, rfl⟩ := List.mem_map.1 hp
  exact isUnbroken_jsonString tag

/-- A view is written on one line. -/
theorem isUnbroken_view (link : LinkView) : isUnbroken (serializeLinkViewJson link) = true := by
  rw [serializeLinkViewJson_eq]
  unfold viewText
  simp only [isUnbroken_append, isUnbroken_jsonString, isUnbroken_tags, isUnbroken_pairs, isUnbroken_campaignText,
    isUnbroken_decimal, isUnbroken_jsonOptional]
  decide

/-! ## The two front ends -/

/-- How the view that a command returns is written. -/
def serializerOf : Command → LinkView → Str
  | .previewLink _ => serializeLinkPreviewJson
  | _ => serializeLinkViewJson

/-- The status of the answer to a command that succeeds. -/
def successStatus : Command → ℕ
  | .createLink _ => 201
  | _ => 200

theorem run_answers {handler : Handler} {c : Command} (h : handler.command call context = some c) (w : World) :
    handler.run call context w =
      answerView call (successStatus c) (serializerOf c) w (c.exec call.config call.env w.links) := by
  cases handler with
  | patchLink =>
    obtain ⟨command, hbody, rfl⟩ := Option.map_eq_some_iff.1 h
    exact handlePatchLink_eq (toOption_eq_some hbody)
  | createLink =>
    obtain ⟨command, hbody, rfl⟩ := Option.map_eq_some_iff.1 h
    exact createLinkFromRequest_eq (toOption_eq_some hbody)
  | compatCreateLink =>
    obtain ⟨command, hbody, rfl⟩ := Option.map_eq_some_iff.1 h
    exact createLinkFromRequest_eq (toOption_eq_some hbody)
  | _ =>
    cases h
    try rfl

theorem request_answers {c : Command} (h : (Op.request call).command? = some (config, env, c)) (w : World) :
    handleShortenerRequest call w =
      answerView call (successStatus c) (serializerOf c) w (c.exec config env w.links) := by
  unfold Op.command? at h
  unfold handleShortenerRequest
  cases hroute : dispatch applicationRoutes call.req.method call.req.target with
  | error status code message =>
    simp only [hroute] at h
    cases h
  | invoke handler context =>
    simp only [hroute] at h
    obtain ⟨c', hc', heq⟩ := Option.map_eq_some_iff.1 h
    cases heq
    exact run_answers hc' w

theorem serializerFor_eq {command : LinkCliCommand} {c : Command} (h : command.command = some c) :
    serializerFor command.verb = serializerOf c := by
  obtain ⟨verb, payload⟩ := command
  unfold LinkCliCommand.command at h
  simp only at h
  split at h <;> cases h <;> simp only [serializerFor, serializerOf, reduceCtorEq, if_true, if_false]

theorem dispatch_answers {command : LinkCliCommand} {c : Command} (h : command.command = some c) (w : World) :
    dispatchLinkCommand command config env w =
      (.ok (reportResult (serializerOf c) (verbToken command.verb) (c.exec config env w.links).1),
        { w with links := (c.exec config env w.links).2 }) := by
  simp only [dispatchLinkCommand, h, serializerFor_eq h]

/-- **One answer, given twice**: by a process and over HTTP. -/
inductive SameAnswer (verb : Str) (call : Call) : Output → Response → Prop
  | success {json : Str} {status : ℕ} (hstatus : status = 200 ∨ status = 201) :
    SameAnswer verb call { exitCode := 0, stdout := json ++ ['\n'] }
      (makeResponse call status json "application/json".toList)
  | failure {e : AppError} (hcode : e.code ≠ .none) :
    SameAnswer verb call (reportFailure verb e) (appErrorResponse call e)

/-- The exit codes and the statuses that go together. -/
def exitStatuses : List (ℕ × ℕ) := [(0, 200), (0, 201), (1, 404), (2, 400), (2, 409), (3, 409), (4, 500)]

theorem SameAnswer.exitStatus {verb : Str} {output : Output} {res : Response} (h : SameAnswer verb call output res) :
    (output.exitCode, res.status) ∈ exitStatuses := by
  cases h with
  | success hstatus =>
    rcases hstatus with rfl | rfl
    · exact .head _
    · exact .tail _ (.head _)
  | @failure e hcode =>
    rw [appErrorResponse, makeApiErrorResponse, makeResponse_status]
    simp only [reportFailure]
    cases hc : e.code <;> first | exact absurd hc hcode | decide

theorem sameAnswer_of_exec (c : Command) (verb : Str) (w : World) :
    SameAnswer verb call (reportResult (serializerOf c) verb (c.exec config env w.links).1)
      (answerView call (successStatus c) (serializerOf c) w (c.exec config env w.links)).1 := by
  unfold answerView
  cases hresult : (c.exec config env w.links).1 with
  | error e => exact .failure (exec_error hresult)
  | ok view =>
    refine .success ?_
    cases c <;> simp [successStatus]

/-- What a front end asks of the service: a command on links, or the statistics of one. -/
inductive Asked
  | command (c : Command)
  | stats (query : GetLinkStatsQuery)

/-- What a process asks. -/
def LinkCliCommand.asked (command : LinkCliCommand) : Option Asked :=
  match command.verb, command.payload with
  | .stats, .stats query => some (.stats query)
  | _, _ => command.command.map .command

/-- The query for statistics in a window, which takes all three parameters. -/
def statsQuery (context : RouteContext) : Option GetLinkStatsQuery :=
  let param (name : String) := getQueryParam context.queryString name.toList
  if param "from" ≠ [] ∧ param "to" ≠ [] ∧ param "bucket" ≠ [] then
    some ⟨pathValue context "slug".toList, param "from", param "to", param "bucket"⟩
  else none

/-- What a request asks. -/
def askedOf (call : Call) : Option Asked :=
  match dispatch applicationRoutes call.req.method call.req.target with
  | .invoke .linkStats context => (statsQuery context).map .stats
  | .invoke handler context => (handler.command call context).map .command
  | .error _ _ _ => none

theorem askedOf_command {c : Command} (h : askedOf call = some (.command c)) :
    (Op.request call).command? = some (call.config, call.env, c) := by
  unfold askedOf at h
  unfold Op.command?
  split at h
  · obtain ⟨query, -, heq⟩ := Option.map_eq_some_iff.1 h
    cases heq
  · rename_i hroute
    obtain ⟨c', hc', heq⟩ := Option.map_eq_some_iff.1 h
    cases heq
    simp only [hroute, hc', Option.map_some]
  · cases h

/-- The answer to a query of the statistics. -/
def answerStats (call : Call) : Result LinkStatsView → Response
  | .error e => appErrorResponse call e
  | .ok stats => makeResponse call 200 (serializeLinkStatsJson stats) "application/json".toList

theorem askedOf_stats {query : GetLinkStatsQuery} (h : askedOf call = some (.stats query)) (w : World) :
    handleShortenerRequest call w = (answerStats call (call.env.readStats w.clicks query), w) := by
  unfold askedOf at h
  split at h
  · rename_i context hroute
    obtain ⟨query', hquery, heq⟩ := Option.map_eq_some_iff.1 h
    cases heq
    simp only [statsQuery] at hquery
    split_ifs at hquery with hparams
    cases hquery
    simp only [handleShortenerRequest, hroute, Handler.run, handleLinkStats, if_pos hparams]
    cases call.env.readStats w.clicks _ <;> rfl
  · obtain ⟨c', -, heq⟩ := Option.map_eq_some_iff.1 h
    cases heq
  · cases h

theorem asked_command {command : LinkCliCommand} {c : Command} (h : command.asked = some (.command c)) :
    command.command = some c := by
  unfold LinkCliCommand.asked at h
  split at h
  · cases h
  · obtain ⟨c', hc', heq⟩ := Option.map_eq_some_iff.1 h
    cases heq
    exact hc'

theorem asked_stats {command : LinkCliCommand} {query : GetLinkStatsQuery} (h : command.asked = some (.stats query)) :
    command = ⟨.stats, .stats query⟩ := by
  obtain ⟨verb, payload⟩ := command
  unfold LinkCliCommand.asked at h
  split at h
  · rename_i hverb hpayload
    cases h
    exact congrArg₂ _ hverb hpayload
  · obtain ⟨c', -, heq⟩ := Option.map_eq_some_iff.1 h
    cases heq

/-- **The command line agrees with the API.** The arguments of a process are read as a command with a configuration, and
a request asks the same of the service with that configuration. On the same stores, and with the same clock, draws and
reader of the statistics, both leave the same stores. What the process prints is the body of the response, or the
message in it, and its exit code goes with the status. -/
theorem cli_agrees_with_rest (parser : CommandLineParser) (getenv : String → Option Str) (args : List Str)
    (command : LinkCliCommand) (asked : Asked) (hcommand : command.asked = some asked) (call : Call)
    (hargs : parse parser getenv args = .ok (.command command call.config)) (hcall : askedOf call = some asked)
    (hreader : ∀ clicks query e, call.env.readStats clicks query = .error e → e.code ≠ .none) (w : World) :
    ∃ output, (main parser getenv call.env args w).1 = .exit output ∧
      SameAnswer (verbToken command.verb) call output (handleShortenerRequest call w).1 ∧
      (output.exitCode, (handleShortenerRequest call w).1.status) ∈ exitStatuses ∧
      (main parser getenv call.env args w).2 = (handleShortenerRequest call w).2 := by
  cases asked with
  | command c =>
    have hsame : SameAnswer (verbToken command.verb) call
        (reportResult (serializerOf c) (verbToken command.verb) (c.exec call.config call.env w.links).1)
        (answerView call (successStatus c) (serializerOf c) w (c.exec call.config call.env w.links)).1 :=
      sameAnswer_of_exec c (verbToken command.verb) w
    have hmain : main parser getenv call.env args w =
        (.exit (reportResult (serializerOf c) (verbToken command.verb) (c.exec call.config call.env w.links).1),
          { w with links := (c.exec call.config call.env w.links).2 }) := by
      simp only [main, hargs, dispatch_answers (asked_command hcommand)]
    rw [hmain, request_answers (askedOf_command hcall)]
    exact ⟨_, rfl, hsame, hsame.exitStatus, rfl⟩
  | stats query =>
    obtain rfl := asked_stats hcommand
    have hmain : main parser getenv call.env args w =
        (.exit (reportResult serializeLinkStatsJson (verbToken .stats) (call.env.readStats w.clicks query)), w) := by
      simp only [main, hargs, dispatchLinkCommand, LinkCliCommand.command]
    rw [hmain, askedOf_stats hcall]
    have hsame : SameAnswer (verbToken .stats) call
        (reportResult serializeLinkStatsJson (verbToken .stats) (call.env.readStats w.clicks query))
        (answerStats call (call.env.readStats w.clicks query)) := by
      cases hread : call.env.readStats w.clicks query with
      | error e => exact .failure (hreader _ _ e hread)
      | ok stats => exact .success (.inl rfl)
    exact ⟨_, rfl, hsame, hsame.exitStatus, rfl⟩

/-- A reader that counts the clicks. -/
def countingReader (clicks : List ClickEvent) (query : GetLinkStatsQuery) : Result LinkStatsView :=
  .ok { slug := query.slug, totalAttempts := UInt64.ofNat clicks.length, successfulRedirects := 0,
        statusCodeCounts := [], domainCounts := [], timeBuckets := [], from_ := query.from_, to_ := query.to_,
        bucket := query.bucket }

/-- A request to the API with that reader. -/
def sampleApiCall (method : Verb) (target : Str) : Call where
  config := {}
  env := { Env.still with readStats := countingReader }
  req := { method := method, target := target }

/-- A link that has been visited: deleted both ways, and its statistics asked for both ways. -/
theorem visited_link_agrees :
    let create : CreateLinkCommand := { targetUrl := "http://a.b".toList, slug := some "abc".toList }
    let w := worldAfter [.command {} .still (.createLink create), .request (sampleApiCall .get "/abc".toList)]
    let delete := sampleApiCall .delete "/api/v1/links/abc".toList
    let stats := sampleApiCall .get "/api/v1/links/abc/stats?from=0&to=9&bucket=day".toList
    w.clicks.length = 1 ∧ (handleShortenerRequest delete w).1.status = 200 ∧
      (∃ output, SameAnswer "delete".toList delete output (handleShortenerRequest delete w).1 ∧
        main Options.parseLong (fun _ => none) delete.env ["link".toList, "delete".toList, "--slug=abc".toList] w =
          (.exit output, (handleShortenerRequest delete w).2)) ∧
      ∃ output, SameAnswer "stats".toList stats output (handleShortenerRequest stats w).1 ∧
        (main Options.parseLong (fun _ => none) stats.env ["link".toList, "stats".toList, "--slug=abc".toList,
          "--from=0".toList, "--to=9".toList, "--bucket=day".toList] w).1 = .exit output := by
  intro create w delete stats
  obtain ⟨deleted, hdeleted, hdelete, -, hw⟩ := cli_agrees_with_rest Options.parseLong (fun _ => none)
    ["link".toList, "delete".toList, "--slug=abc".toList] ⟨.del, .delete ⟨"abc".toList⟩⟩ _ rfl delete rfl rfl
    (by rintro _ _ _ ⟨⟩) w
  obtain ⟨shown, hshown, hstats, -, -⟩ := cli_agrees_with_rest Options.parseLong (fun _ => none)
    ["link".toList, "stats".toList, "--slug=abc".toList, "--from=0".toList, "--to=9".toList, "--bucket=day".toList]
    ⟨.stats, .stats ⟨"abc".toList, "0".toList, "9".toList, "day".toList⟩⟩ _ rfl stats rfl rfl (by rintro _ _ _ ⟨⟩) w
  exact ⟨by decide +kernel, by decide +kernel, ⟨deleted, hdelete, Prod.ext hdeleted hw⟩, shown, hstats, hshown⟩

/-! ## One-shot processes -/

theorem findBySlug_empty (slug : Str) : LegacyLinkStore.findBySlug slug {} = (none, {}) := by
  simp [LegacyLinkStore.findBySlug, getLinkForRead, InMemoryMetadataRepository.getBySlug]

theorem findById_empty (id : Str) : LegacyLinkStore.findById id {} = none := by
  simp [LegacyLinkStore.findById, InMemoryMetadataRepository.getById]

theorem getLink_empty (query : GetLinkQuery) : getLink config env query {} = (.error notFoundError, {}) := by
  unfold getLink
  cases query.by_ with
  | id => rw [findById_empty]
  | slug => rw [findBySlug_empty]

theorem modifyLink_empty (slug : Str) (change : Str → Link → Result Link) :
    modifyLink config env slug change {} = (.error notFoundError, {}) := by
  unfold modifyLink
  rw [findBySlug_empty]

/-- Where there are no links, every command but `createLink` finds none. -/
theorem exec_empty {c : Command} (h : ∀ command, c ≠ .createLink command) :
    c.exec config env {} = (.error notFoundError, {}) := by
  cases c with
  | createLink command => exact absurd rfl (h command)
  | getLink query => exact getLink_empty query
  | previewLink query => exact getLink_empty query
  | updateLink command => rw [Command.exec, updateLink, modifyLink_empty]
  | deleteLink command => rw [Command.exec, deleteLink, modifyLink_empty]
  | setLinkEnabled command => rw [Command.exec, setLinkEnabled, modifyLink_empty]
  | restoreLink command => rw [Command.exec, restoreLink, modifyLink_empty]

theorem slugExists_empty (slug : Str) : LegacyLinkStore.slugExists slug {} = false := by
  simp [LegacyLinkStore.slugExists, InMemoryMetadataRepository.slugExists]

theorem create_empty (link : Link) : ∃ st, LegacyLinkStore.create link {} = .ok st := by
  simp [LegacyLinkStore.create, InMemoryMetadataRepository.create]

theorem createLink_empty {command : CreateLinkCommand} (h : (createLink config env command {}).1 = .error e) :
    e.code ≠ .slugConflict := by
  intro hconflict
  rcases (createLink_error h).2 hconflict with ⟨slug, hexists⟩ | ⟨link, e', hcreate⟩
  · rw [slugExists_empty] at hexists
    cases hexists
  · obtain ⟨st, hok⟩ := create_empty link
    rw [hok] at hcreate
    cases hcreate

/-- What a process is started with when it is to run a command. -/
theorem parse_command {parser : CommandLineParser} {getenv : String → Option Str} {args : List Str}
    {command : LinkCliCommand} (h : parse parser getenv args = .ok (.command command config)) :
    ∃ verbArgs cfg, args = "link".toList :: verbToken command.verb :: verbArgs ∧
      Reads parser cfg verbArgs command config := by
  unfold parse at h
  obtain ⟨cfg, -, h⟩ := bind_eq_ok h
  cases args with
  | nil => cases h
  | cons mode linkArgs =>
    dsimp only at h
    split at h
    · cases h
    · rename_i hmode
      split at h
      · split at h
        · cases h
        · obtain ⟨verb, -, h⟩ := bind_eq_ok h
          cases h
      · obtain ⟨⟨command', config'⟩, hlink, h⟩ := bind_eq_ok h
        cases h
        obtain ⟨verbArgs, rfl, hreads⟩ := parseLinkCommand_reads hlink
        exact ⟨verbArgs, cfg, by rw [not_not.1 hmode], hreads⟩

/-- A payload is of its verb. -/
theorem Reads.command {parser : CommandLineParser} {cfg : ServerConfig} {args : List Str} {command : LinkCliCommand}
    (h : Reads parser cfg args command config) (hstats : command.verb ≠ .stats) :
    ∃ c, command.command = some c ∧ ((∃ command', c = .createLink command') ↔ command.verb = .create) := by
  obtain ⟨verb, payload⟩ := command
  cases verb <;> cases payload <;> first
    | exact absurd h id
    | exact absurd rfl hstats
    | exact ⟨_, rfl, by simp⟩

/-- **What a process of the command line can come to**, when it is not one that prints help. -/
structure OneShot (args : List Str) (output : Output) : Prop where
  fails : (∀ rest, args ≠ "link".toList :: "create".toList :: rest) →
    (∀ rest, args ≠ "link".toList :: "stats".toList :: rest) → output.exitCode = 1 ∧ output.stdout = []
  creates : (∃ rest, args = "link".toList :: "create".toList :: rest) →
    output.exitCode ≠ 3 ∧
      (output.exitCode = 0 ∧ output.stderr = [] ∧ (∃ line, output.stdout = line ++ ['\n'] ∧ isUnbroken line = true) ∨
        output.exitCode ≠ 0 ∧ output.stdout = [])

theorem oneShot_unhandled (args : List Str) (env : Env) (what : Str) : OneShot args (unhandled env what) where
  fails _ _ := ⟨rfl, rfl⟩
  creates _ := ⟨by simp [unhandled], .inr ⟨by simp [unhandled], rfl⟩⟩

theorem exitCode_cases (code : AppErrorCode) (hnone : code ≠ .none) :
    exitCodeForAppError code ≠ 0 ∧ (code ≠ .slugConflict → exitCodeForAppError code ≠ 3) := by
  cases code <;> simp_all [exitCodeForAppError]

theorem oneShot_create {verbArgs : List Str} (command : CreateLinkCommand) :
    OneShot ("link".toList :: "create".toList :: verbArgs)
      (reportResult serializeLinkViewJson "create".toList (createLink config env command {}).1) where
  fails h _ := absurd rfl (h verbArgs)
  creates _ := by
    cases hresult : (createLink config env command {}).1 with
    | ok view => exact ⟨by simp [reportResult], .inl ⟨rfl, rfl, _, rfl, isUnbroken_view view⟩⟩
    | error e =>
      obtain ⟨hzero, hthree⟩ := exitCode_cases e.code (createLink_error hresult).1
      exact ⟨hthree (createLink_empty hresult), .inr ⟨hzero, rfl⟩⟩

/-- **A process sees no links.** Whatever its arguments and the environment, and whatever the library makes of them: of
the commands only `create` and `stats` can succeed, and every other one exits with code 1 and prints nothing.
`create` never meets a conflict, and prints one line if it succeeds and nothing else. -/
theorem one_shot_outcomes (parser : CommandLineParser) (getenv : String → Option Str) (env : Env) (args : List Str)
    (output : Output) (h : (main parser getenv env args {}).1 = .exit output) : OneShot args output := by
  unfold main at h
  split at h
  · cases h
    exact oneShot_unhandled args env _
  · cases h
  · cases h
  · rename_i command config hparse
    obtain ⟨verbArgs, cfg, rfl, hreads⟩ := parse_command hparse
    by_cases hstats : command.verb = .stats
    · refine ⟨fun _ hno => ?_, ?_⟩
      · rw [hstats] at hno
        exact absurd rfl (hno verbArgs)
      · rw [hstats]
        rintro ⟨rest, heq⟩
        have htoken : verbToken .stats = "create".toList := (List.cons.inj (List.cons.inj heq).2).1
        exact absurd htoken (by decide)
    · obtain ⟨c, hc, hcreate⟩ := hreads.command hstats
      rw [dispatch_answers hc] at h
      cases h
      by_cases hverb : command.verb = .create
      · obtain ⟨command', rfl⟩ := hcreate.2 hverb
        rw [hverb]
        exact oneShot_create command'
      · have hexec : c.exec config env ({} : World).links = (.error notFoundError, {}) :=
          exec_empty fun command' heq => hverb (hcreate.1 ⟨command', heq⟩)
        rw [hexec]
        refine ⟨fun _ _ => ⟨rfl, rfl⟩, ?_⟩
        rintro -
        exact ⟨by simp [reportResult, reportFailure, notFoundError, exitCodeForAppError],
          .inr ⟨by simp [reportResult, reportFailure, notFoundError, exitCodeForAppError], rfl⟩⟩

theorem getProcess_oneShot :
    OneShot ["link".toList, "get".toList, "--slug=abc".toList]
      { exitCode := 1, stderr := "get failed: Link not found\n".toList } :=
  one_shot_outcomes Options.parseLong (fun _ => none) Env.still _ _ (by rfl)

end UrlShortener.Cli

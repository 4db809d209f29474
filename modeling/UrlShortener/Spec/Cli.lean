import UrlShortener.Options.CommandLine
import UrlShortener.Spec.Stats
import UrlShortener.Spec.System

/-!
# The command line

The one-shot `link <verb>` commands: the mappers of `cli/link_command_args.cpp`, the recognition of a command in
`cli_parser.cpp`, the dispatch of `cli/link_command_dispatch.cpp` and the part of `main.cpp` around them.

* Boost.ProgramOptions is an argument, a `CommandLineParser`.
* An exception is its text. Those that leave `CliParser::parse` or `DispatchLinkCommand` end in the `catch` of `main`.
* A process that is to serve requests is `Process.server`; its options are not read here.
-/

namespace UrlShortener.Cli

open Options (CommandLineParser Description VariablesMap)
open Text (cut)

/-! ## Flags -/

/-- The texts that stand for a boolean. -/
def boolToken (value : Str) : Option Bool :=
  if value = "1" ∨ value = "true" ∨ value = "on" ∨ value = "yes" then some true
  else if value = "0" ∨ value = "false" ∨ value = "off" ∨ value = "no" then some false
  else none

/-- A boolean; the error names the flag. -/
def parseBoolFlag (flag value : Str) : Except Str Bool :=
  match boolToken value with
  | some b => .ok b
  | none =>
    .error ("Invalid boolean value for " ++ flag ++ ": '" ++ value ++
      "'. Use true/false, 1/0, on/off, or yes/no.")

/-- An empty text is refused. -/
def requireNonEmpty (flag value : Str) : Except Str Unit :=
  if value = [] then .error (flag ++ " must not be empty.") else .ok ()

/-- The pieces between commas, and no piece of an empty text. -/
def splitCommaList (value : Str) : List Str := if value = [] then [] else value.splitOn ','

/-- An entry of `link create --metadata`: the key ends at the first equals sign. -/
def createMetadataEntry (entry : Str) : Except Str (Str × Str) :=
  let refusal := "Invalid --metadata entry: '" ++ entry ++ "'. Expected KEY=VALUE with a non-empty KEY."
  match cut ['='] entry with
  | none => .error refusal
  | some (key, value) => if key = [] then .error refusal else .ok (key, value)

/-- An entry of `link update --metadata`, where the value has no equals sign. -/
def updateMetadataEntry (entry : Str) : Except Str (Str × Str) :=
  let refusal := "Invalid --metadata entry: '" ++ entry ++
    "'. Expected KEY=VALUE with exactly one '=' and a non-empty KEY."
  match cut ['='] entry with
  | none => .error refusal
  | some (key, value) => if key = [] ∨ '=' ∈ value then .error refusal else .ok (key, value)

/-- The entries one after the other; a later one replaces an earlier one of the same key. -/
def readEntries (entry : Str → Except Str (Str × Str)) (entries : List Str) :
    Except Str (UnorderedMap Str Str) :=
  entries.foldlM (fun parsed text => (entry text).map fun p => parsed.insert p.1 p.2) ∅

/-- Pairs with commas between. -/
def parseMetadataList (value : Str) : Except Str (UnorderedMap Str Str) :=
  readEntries updateMetadataEntry (splitCommaList value)

/-! ## Options of the verbs -/

/-- An option that takes one text. -/
def valued (name : String) : Description := ⟨name.toList, .value⟩

/-- The options of a campaign. -/
def campaignOptions : List Description :=
  [valued "campaign-name", valued "campaign-source", valued "campaign-medium", valued "campaign-term",
   valued "campaign-content", valued "campaign-id"]

/-- The options of `create`. -/
def createOptions : List Description :=
  [valued "url", valued "slug", valued "redirect-type", valued "expires-at", valued "enabled", ⟨"tag", .list⟩,
   ⟨"metadata", .list⟩] ++ campaignOptions ++
  [valued "base-domain", ⟨"allow-private-targets", .switch⟩]

/-- The options of `update`. -/
def updateOptions : List Description :=
  [valued "slug", valued "enabled", valued "expires-at", valued "tags", valued "metadata"] ++ campaignOptions ++
  [⟨"clear-campaign", .switch⟩]

/-- The options of `get` and `preview`. -/
def getLikeOptions : List Description := [valued "slug", valued "id"]

/-- The options of `delete`, `enable`, `disable` and `restore`. -/
def slugOptions : List Description := [valued "slug"]

/-- The options of `stats`. -/
def statsOptions : List Description := [valued "slug", valued "from", valued "to", valued "bucket"]

/-! ## Mappers -/

/-- The text of an option that has to be given and must not be empty. -/
def requiredText (vm : VariablesMap) (name missing : String) : Except Str Str :=
  match vm.value name.toList with
  | none => .error missing.toList
  | some value => do
    requireNonEmpty ("--" ++ name.toList) value
    return value

/-- The text of an option that must not be empty if it is given. -/
def optionalText (vm : VariablesMap) (name : String) : Except Str (Option Str) :=
  match vm.value name.toList with
  | none => .ok none
  | some value => do
    requireNonEmpty ("--" ++ name.toList) value
    return some value

/-- `--enabled`. -/
def enabledFlag (vm : VariablesMap) : Except Str (Option Bool) :=
  match vm.value "enabled" with
  | none => .ok none
  | some value => (parseBoolFlag "--enabled" value).map some

/-- The campaign of the `--campaign-*` flags, if there is one of them. -/
def campaignFlags (vm : VariablesMap) : Option Campaign :=
  let campaign : Campaign :=
    { name := vm.value "campaign-name"
      source := vm.value "campaign-source"
      medium := vm.value "campaign-medium"
      term := vm.value "campaign-term"
      content := vm.value "campaign-content"
      id := vm.value "campaign-id" }
  if campaign.name.isSome || campaign.source.isSome || campaign.medium.isSome || campaign.term.isSome ||
      campaign.content.isSome || campaign.id.isSome then some campaign
  else none

/-- `--redirect-type`. -/
def redirectTypeFlag (vm : VariablesMap) : Except Str (Option RedirectType) :=
  match vm.value "redirect-type" with
  | none => .ok none
  | some value =>
    match parseRedirectType value with
    | none => .error ("Invalid --redirect-type: '" ++ value ++ "'. Use temporary or permanent.")
    | some parsed => .ok (some parsed)

/-- **`link create`.** It may also change the configuration. -/
def parseCreateArgs (parser : CommandLineParser) (args : List Str) (config : ServerConfig) :
    Except Str (CreateLinkCommand × ServerConfig) := do
  let vm ← parser createOptions args
  let url ← requiredText vm "url" "link create requires --url <URL>."
  let slug ← optionalText vm "slug"
  let redirectType ← redirectTypeFlag vm
  let expiresAt ← optionalText vm "expires-at"
  let enabled ← enabledFlag vm
  let metadata ← readEntries createMetadataEntry (vm.values "metadata")
  let baseDomain ← optionalText vm "base-domain"
  return (
    { targetUrl := url, slug := slug, redirectType := redirectType, expiresAt := expiresAt, enabled := enabled,
      tags := vm.values "tag", metadata := metadata, campaign := campaignFlags vm },
    { config with
      shortenerBaseDomain := baseDomain.getD config.shortenerBaseDomain
      shortenerAllowPrivateTargets :=
        vm.flag "allow-private-targets" || config.shortenerAllowPrivateTargets })

/-- `--slug` or `--id`, but not both. -/
def parseGetLikeArgs (parser : CommandLineParser) (args : List Str) (verbLabel : String) :
    Except Str GetLinkQuery := do
  let vm ← parser getLikeOptions args
  match vm.value "slug", vm.value "id" with
  | some _, some _ => .error (verbLabel.toList ++ " accepts exactly one of --slug or --id, not both.")
  | none, none => .error (verbLabel.toList ++ " requires one of --slug <SLUG> or --id <ID>.")
  | some slug, none => do
    requireNonEmpty "--slug" slug
    return ⟨.slug, slug⟩
  | none, some id => do
    requireNonEmpty "--id" id
    return ⟨.id, id⟩

/-- `--slug`. -/
def parseSlugOnly (parser : CommandLineParser) (args : List Str) (verbLabel : String) : Except Str Str := do
  let vm ← parser slugOptions args
  requiredText vm "slug" (verbLabel ++ " requires --slug <SLUG>.")

/-- `get`. -/
def parseGetArgs (parser : CommandLineParser) (args : List Str) : Except Str GetLinkQuery :=
  parseGetLikeArgs parser args "link get"

/-- The three states of `--expires-at`. -/
def expiryFlag (vm : VariablesMap) : Except Str (Option (Option Str)) :=
  match vm.value "expires-at" with
  | none => .ok none
  | some value =>
    if value = "clear" then .ok (some none)
    else do
      requireNonEmpty "--expires-at" value
      return some (some value)

/-- `--metadata` of `update`. -/
def metadataFlag (vm : VariablesMap) : Except Str (Option (UnorderedMap Str Str)) :=
  match vm.value "metadata" with
  | none => .ok none
  | some value => (parseMetadataList value).map some

/-- The three states of the campaign. -/
def campaignUpdate (vm : VariablesMap) : Except Str (Option (Option Campaign)) :=
  match campaignFlags vm, vm.flag "clear-campaign" with
  | some _, true => .error "link update accepts only one of the --campaign-* flags or --clear-campaign."
  | some campaign, false => .ok (some (some campaign))
  | none, true => .ok (some none)
  | none, false => .ok none

/-- **`link update`.** -/
def parseUpdateArgs (parser : CommandLineParser) (args : List Str) : Except Str UpdateLinkCommand := do
  let vm ← parser updateOptions args
  let slug ← requiredText vm "slug" "link update requires --slug <SLUG>."
  let enabled ← enabledFlag vm
  let expiresAt ← expiryFlag vm
  let metadata ← metadataFlag vm
  let campaign ← campaignUpdate vm
  return { slug := slug, enabled := enabled, expiresAt := expiresAt,
           tags := (vm.value "tags").map splitCommaList, metadata := metadata, campaign := campaign }

/-- `delete`. -/
def parseDeleteArgs (parser : CommandLineParser) (args : List Str) : Except Str DeleteLinkCommand :=
  (parseSlugOnly parser args "link delete").map DeleteLinkCommand.mk

/-- `enable` and `disable`. -/
def parseSetEnabledArgs (parser : CommandLineParser) (args : List Str) (enabled : Bool) :
    Except Str SetLinkEnabledCommand :=
  (parseSlugOnly parser args (if enabled then "link enable" else "link disable")).map (⟨·, enabled⟩)

/-- `restore`. -/
def parseRestoreArgs (parser : CommandLineParser) (args : List Str) : Except Str RestoreLinkCommand :=
  (parseSlugOnly parser args "link restore").map RestoreLinkCommand.mk

/-- `preview`. -/
def parsePreviewArgs (parser : CommandLineParser) (args : List Str) : Except Str GetLinkQuery :=
  parseGetLikeArgs parser args "link preview"

/-- All four are looked for before the first is checked. -/
def parseStatsArgs (parser : CommandLineParser) (args : List Str) : Except Str GetLinkStatsQuery := do
  let vm ← parser statsOptions args
  match vm.value "slug", vm.value "from", vm.value "to", vm.value "bucket" with
  | none, _, _, _ => .error "link stats requires --slug <SLUG>."
  | _, none, _, _ => .error "link stats requires --from <EPOCH>."
  | _, _, none, _ => .error "link stats requires --to <EPOCH>."
  | _, _, _, none => .error "link stats requires --bucket <BUCKET>."
  | some slug, some from_, some to_, some bucket => do
    requireNonEmpty "--slug" slug
    requireNonEmpty "--from" from_
    requireNonEmpty "--to" to_
    requireNonEmpty "--bucket" bucket
    return ⟨slug, from_, to_, bucket⟩

/-! ## Recognising a command -/

/-- The verbs of `link`. -/
inductive LinkCliVerb
  | create
  | get
  | update
  | del
  | enable
  | disable
  | restore
  | preview
  | stats
  deriving DecidableEq

/-- A verb as it is typed. -/
def verbToken (verb : LinkCliVerb) : Str :=
  match verb with
  | .create => "create"
  | .get => "get"
  | .update => "update"
  | .del => "delete"
  | .enable => "enable"
  | .disable => "disable"
  | .restore => "restore"
  | .preview => "preview"
  | .stats => "stats"

/-- The verb of a token. -/
def parseLinkVerb (token : Str) : Except Str LinkCliVerb :=
  if token = "create" then .ok .create
  else if token = "get" then .ok .get
  else if token = "update" then .ok .update
  else if token = "delete" then .ok .del
  else if token = "enable" then .ok .enable
  else if token = "disable" then .ok .disable
  else if token = "restore" then .ok .restore
  else if token = "preview" then .ok .preview
  else if token = "stats" then .ok .stats
  else
    .error ("Unknown link command: '" ++ token ++
      "'. Valid commands: create, get, update, delete, enable, disable, restore, preview, stats.")

/-- The alternatives of `LinkCliCommand::payload`. -/
inductive LinkCliPayload
  | create (command : CreateLinkCommand)
  | get (query : GetLinkQuery)
  | update (command : UpdateLinkCommand)
  | delete (command : DeleteLinkCommand)
  | setEnabled (command : SetLinkEnabledCommand)
  | restore (command : RestoreLinkCommand)
  | stats (query : GetLinkStatsQuery)

/-- A verb and its payload. -/
structure LinkCliCommand where
  verb : LinkCliVerb
  payload : LinkCliPayload

/-- The command in the arguments behind `link`, and the configuration it is to run with. -/
def parseLinkCommand (parser : CommandLineParser) (args : List Str) (config : ServerConfig) :
    Except Str (LinkCliCommand × ServerConfig) :=
  match args with
  | [] => .error "Missing link subcommand. Expected: link <verb> [options]."
  | token :: verbArgs => do
    let verb ← parseLinkVerb token
    let plain (payload : Except Str LinkCliPayload) : Except Str (LinkCliCommand × ServerConfig) :=
      payload.map fun p => (⟨verb, p⟩, config)
    match verb with
    | .create => (parseCreateArgs parser verbArgs config).map fun r => (⟨verb, .create r.1⟩, r.2)
    | .get => plain ((parseGetArgs parser verbArgs).map .get)
    | .update => plain ((parseUpdateArgs parser verbArgs).map .update)
    | .del => plain ((parseDeleteArgs parser verbArgs).map .delete)
    | .enable => plain ((parseSetEnabledArgs parser verbArgs true).map .setEnabled)
    | .disable => plain ((parseSetEnabledArgs parser verbArgs false).map .setEnabled)
    | .restore => plain ((parseRestoreArgs parser verbArgs).map .restore)
    | .preview => plain ((parsePreviewArgs parser verbArgs).map .get)
    | .stats => plain ((parseStatsArgs parser verbArgs).map .stats)

/-- A boolean of the environment. -/
def parseBool (value : Str) : Except Str Bool :=
  match boolToken value with
  | some b => .ok b
  | none =>
    .error ("Invalid boolean value: '" ++ value ++ "'. Use true/false, 1/0, on/off, or yes/no.")

/-- A variable of the environment that holds a 32-bit number; whatever follows the number is not looked at. -/
def uint32Variable (name : String) (value : Str) : Except Str UInt32 :=
  match stoull value with
  | none => .error (name.toList ++ ": stoul")
  | some val =>
    if 4294967295 < val then .error (name.toList ++ ": value exceeds uint32 max") else .ok val.toUInt32

/-- The variables of the environment, read before the arguments. -/
def loadEnvironment (getenv : String → Option Str) (cfg : ServerConfig) : Except Str ServerConfig := do
  let expiry ← match getenv "SHORTENER_DEFAULT_EXPIRY_SECONDS" with
    | none => .ok cfg.shortenerDefaultExpirySeconds
    | some value => (uint32Variable "SHORTENER_DEFAULT_EXPIRY_SECONDS" value).map some
  let slugLength ← match getenv "SHORTENER_GENERATED_SLUG_LENGTH" with
    | none => .ok cfg.shortenerGeneratedSlugLength
    | some value => uint32Variable "SHORTENER_GENERATED_SLUG_LENGTH" value
  let allowPrivate ← match getenv "SHORTENER_ALLOW_PRIVATE_TARGETS" with
    | none => .ok cfg.shortenerAllowPrivateTargets
    | some value => parseBool value
  return { cfg with
    shortenerBaseDomain := (getenv "SHORTENER_BASE_DOMAIN").getD cfg.shortenerBaseDomain
    shortenerDefaultRedirectType :=
      (getenv "SHORTENER_DEFAULT_REDIRECT_TYPE").getD cfg.shortenerDefaultRedirectType
    shortenerDefaultExpirySeconds := expiry
    shortenerGeneratedSlugLength := slugLength
    shortenerAllowPrivateTargets := allowPrivate }

/-- Which help text is printed. -/
inductive HelpTopic
  | link
  | verb (verb : LinkCliVerb)
  deriving DecidableEq

/-- What the arguments ask for. -/
inductive ParseResult
  | help (topic : HelpTopic)
  | command (command : LinkCliCommand) (config : ServerConfig)
  | server (config : ServerConfig)

/-- There is a `--help` or `-h`. -/
def linkHelpRequested (tokens : List Str) : Bool :=
  tokens.any fun token => token = "--help" || token = "-h"

/-- `CliParser::parse` on the arguments of the process, up to the point where the options of the server are read. -/
def parse (parser : CommandLineParser) (getenv : String → Option Str) (args : List Str) : Except Str ParseResult := do
  let cfg ← loadEnvironment getenv {}
  match args with
  | [] => return .server cfg
  | mode :: linkArgs =>
    if mode ≠ "link" then return .server cfg
    else if linkHelpRequested linkArgs then
      let first := linkArgs.headD []
      if first = [] ∨ first = "--help" ∨ first = "-h" then return .help .link
      else return .help (.verb (← parseLinkVerb first))
    else
      let (command, config) ← parseLinkCommand parser linkArgs cfg
      return .command command config

/-! ## Dispatch -/

/-- What a process leaves behind. -/
structure Output where
  exitCode : ℕ
  stdout : Str := []
  stderr : Str := []
  deriving DecidableEq

/-- `ExitCodeForAppError`. -/
def exitCodeForAppError (code : AppErrorCode) : ℕ :=
  match code with
  | .none => 0
  | .notFound => 1
  | .invalidUrl => 2
  | .invalidSlug => 2
  | .invalidField => 2
  | .reservedSlug => 2
  | .slugConflict => 3
  | .storageFailure => 4
  | .internal => 4

/-- The message and the exit code of an error. -/
def reportFailure (verb : Str) (error : AppError) : Output where
  exitCode := exitCodeForAppError error.code
  stderr := verb ++ " failed: " ++ error.detail ++ ['\n']

/-- `report_result` and `report_preview_result`, which differ in the serializer. -/
def reportResult {View : Type} (serialize : View → Str) (verb : Str) (result : Result View) : Output :=
  match result with
  | .ok view => { exitCode := 0, stdout := serialize view ++ ['\n'] }
  | .error error => reportFailure verb error

/-- The command of the service that a verb issues with its payload, if the payload is of that verb. -/
def LinkCliCommand.command (command : LinkCliCommand) : Option Command :=
  match command.verb, command.payload with
  | .create, .create c => some (.createLink c)
  | .get, .get q => some (.getLink q)
  | .update, .update c => some (.updateLink c)
  | .del, .delete c => some (.deleteLink c)
  | .enable, .setEnabled c => some (.setLinkEnabled c)
  | .disable, .setEnabled c => some (.setLinkEnabled c)
  | .restore, .restore c => some (.restoreLink c)
  | .preview, .get q => some (.previewLink q)
  | _, _ => none

/-- The serializer for what a verb returns. -/
def serializerFor (verb : LinkCliVerb) : LinkView → Str :=
  if verb = .preview then serializeLinkPreviewJson else serializeLinkViewJson

/-- `DispatchLinkCommand`. A payload of another verb is a `std::bad_variant_access`. -/
def dispatchLinkCommand (command : LinkCliCommand) (config : ServerConfig) (env : Env) (w : World) :
    Except Str Output × World :=
  match command.command with
  | some c =>
    let r := c.exec config env w.links
    (.ok (reportResult (serializerFor command.verb) (verbToken command.verb) r.1), { w with links := r.2 })
  | none =>
    match command.verb, command.payload with
    | .stats, .stats q =>
      (.ok (reportResult serializeLinkStatsJson (verbToken command.verb) (env.readStats w.clicks q)), w)
    | _, _ => (.error "std::get: wrong index for variant", w)

/-! ## The process -/

/-- What becomes of the process. -/
inductive Process
  | help (topic : HelpTopic)
  | exit (output : Output)
  | server (config : ServerConfig)

/-- The line that the `catch` of `main` logs. -/
def fatalLine (now : TimePoint) (what : Str) : Str :=
  "ts=" ++ formatTimestamp now ++ " level=FATAL component=main msg=unhandled_exception error=" ++
    what.take 512 ++ ['\n']

/-- An exception that reaches `main`. -/
def unhandled (env : Env) (what : Str) : Output where
  exitCode := 1
  stderr := fatalLine (env.clock 0) what

/-- **`main`**, with what its process finds in memory. -/
def main (parser : CommandLineParser) (getenv : String → Option Str) (env : Env) (args : List Str) (w : World) :
    Process × World :=
  match parse parser getenv args with
  | .error what => (.exit (unhandled env what), w)
  | .ok (.help topic) => (.help topic, w)
  | .ok (.server config) => (.server config, w)
  | .ok (.command command config) =>
    match dispatchLinkCommand command config env w with
    | (.ok output, w) => (.exit output, w)
    | (.error what, w) => (.exit (unhandled env what), w)

end UrlShortener.Cli

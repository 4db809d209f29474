import UrlShortener.Spec.Handlers
import UrlShortener.Runs.Basic

/-!
# The process

A run of the process is a list of operations, one after the other: commands issued to
`LinkCommandService` directly (as the command line tool does) and HTTP requests. Every operation comes
with its own configuration and environment.
-/

namespace UrlShortener

/-- The commands of `LinkCommandService` that read or change links. -/
inductive Command
  | createLink (command : CreateLinkCommand)
  | getLink (query : GetLinkQuery)
  | previewLink (query : GetLinkQuery)
  | updateLink (command : UpdateLinkCommand)
  | deleteLink (command : DeleteLinkCommand)
  | setLinkEnabled (command : SetLinkEnabledCommand)
  | restoreLink (command : RestoreLinkCommand)

/-- What the service does on a command. -/
def Command.exec (config : ServerConfig) (env : Env) (c : Command) (st : LinkStore) :
    Result LinkView × LinkStore :=
  match c with
  | .createLink command => UrlShortener.createLink config env command st
  | .getLink query => UrlShortener.getLink config env query st
  | .previewLink query => UrlShortener.previewLink config env query st
  | .updateLink command => UrlShortener.updateLink config env command st
  | .deleteLink command => UrlShortener.deleteLink config env command st
  | .setLinkEnabled command => UrlShortener.setLinkEnabled config env command st
  | .restoreLink command => UrlShortener.restoreLink config env command st

/-- One operation: a command or a request. -/
inductive Op
  | command (config : ServerConfig) (env : Env) (c : Command)
  | request (call : Call)

/-- What an operation is answered with. -/
inductive Answer
  | result (r : Result LinkView)
  | response (res : Response)

/-- One operation. -/
def step (op : Op) (w : World) : Answer × World :=
  match op with
  | .command config env c =>
    let (r, st) := c.exec config env w.links
    (.result r, { w with links := st })
  | .request call =>
    let (res, w) := handleShortenerRequest call w
    (.response res, w)

/-- **The state after a run** that starts with empty stores. -/
def worldAfter (ops : List Op) : World := Runs.after (fun op w => (step op w).2) {} ops

/-! ## The commands of a run

Most API handlers answer with the outcome of one command. -/

/-- The command a handler issues for a request, if it issues one. -/
def Handler.command (handler : Handler) (call : Call) (context : RouteContext) : Option Command :=
  let slug := pathValue context "slug"
  match handler with
  | .getLinkById => some (.getLink ⟨.id, pathValue context "id"⟩)
  | .getLinkBySlug => some (.getLink ⟨.slug, slug⟩)
  | .compatGetLinkBySlug => some (.getLink ⟨.slug, slug⟩)
  | .previewLink => some (.previewLink ⟨.slug, slug⟩)
  | .enableLink => some (.setLinkEnabled ⟨slug, true⟩)
  | .disableLink => some (.setLinkEnabled ⟨slug, false⟩)
  | .restoreLink => some (.restoreLink ⟨slug⟩)
  | .deleteLink => some (.deleteLink ⟨slug⟩)
  | .createLink => (parseCreateBody .slugOnly call.req.body).toOption.map .createLink
  | .compatCreateLink => (parseCreateBody .slugOrCode call.req.body).toOption.map .createLink
  | .patchLink => (parsePatchBody slug call.req.body).toOption.map .updateLink
  | _ => none

/-- The configuration, the environment and the command that an operation executes, if any. -/
def Op.command? (op : Op) : Option (ServerConfig × Env × Command) :=
  match op with
  | .command config env c => some (config, env, c)
  | .request call =>
    match dispatch applicationRoutes call.req.method call.req.target with
    | .invoke handler context => (handler.command call context).map fun c => (call.config, call.env, c)
    | .error _ _ _ => none

/-- In the state `w` the operation executes the command `c` and it succeeds with `view`. -/
def Succeeds (op : Op) (w : World) (c : Command) (view : LinkView) : Prop :=
  ∃ config env, op.command? = some (config, env, c) ∧ (c.exec config env w.links).1 = .ok view

end UrlShortener

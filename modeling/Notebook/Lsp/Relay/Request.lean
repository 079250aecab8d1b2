import Notebook.Lsp.Apply
import Notebook.Lsp.Readdress
import Notebook.Lsp.Relay.Basic
/-!
# Requests on the way out

A request from a surface is readdressed to the shadow. Formatting a whole notebook is asked for
cell by cell, from the bottom up, because a server that formats the whole shadow would not respect
the cells.
-/
namespace Notebook.Lsp.Relay

/-- Ask for the formatting of the next cell that still exists, if there is one. -/
def requestFormat (relay : Relay) (session : Session) (origin : Origin) (uri : Text)
    (options : Json) (applied : Nat) : List Text → Option Request × Relay
  | [] => (none, relay)
  | cell :: remaining =>
    match (session.cells.indexOf? cell).bind session.spanOf? with
    | none => requestFormat relay session origin uri options applied remaining
    | some span =>
      let params := Json.object [
        ("textDocument", Json.object [("uri", .str uri)]),
        ("range", (contentRange session span).encode),
        ("options", options)]
      let (request, relay) := relay.register "textDocument/rangeFormatting" params origin
        (.formatNotebook ⟨cell, span, remaining, options, applied⟩)
      (some request, relay)

/-- The cells that formatting a surface is about, from the bottom up. -/
def formatCells (session : Session) (origin : Origin) : List Text :=
  match origin.cell with
  | some cell => [cell]
  | none => ((session.cells.cells.filter fun cell => cell.kind.isCode).map (·.id)).reverse

/-- What the answer to a request will be used for. -/
def purposeOf (session : Session) (document : Document) (method : Text) (params : Json) :
    Except RelayFault Purpose :=
  if method = "textDocument/rangeFormatting" then
    match (params.get? "range").bind Range.decode? with
    | none => .error (.malformed method)
    | some range => (formatTarget session range).map fun target =>
        .formatRange target.1 target.2
  else if method = "textDocument/rename" then
    .ok (.rename session.facade.revision document.version)
  else .ok .lookup

/-- Readdress a request from a surface, unless there is nothing to ask for. -/
def request (relay : Relay) (workspace : Workspace) (surface : SurfaceId) (method : Text)
    (params : Json) : Except RelayFault (Option Request) × Relay :=
  match Origin.of? workspace surface with
  | none => (.error .surfaceNotLive, relay)
  | some origin => match relay.document? origin.notebook with
    | none => (.error .notRegistered, relay)
    | some document => match workspace.session? origin.notebook with
      | none => (.error (.notebook .notebookNotFound), relay)
      | some session =>
        let uri := document.addresses.shadow
        if method = "textDocument/formatting" then
          let (request, relay) := relay.requestFormat session origin uri
            (Json.orNull (params.get? "options")) 0 (formatCells session origin)
          (.ok request, relay)
        else
          -- Purposes are about lines of the shadow, so the parameters are readdressed first.
          let params := outbound uri origin.lineOffset params
          match purposeOf session document method params with
          | .error fault => (.error fault, relay)
          | .ok purpose =>
            let (request, relay) := relay.register method params origin purpose
            (.ok (some request), relay)

/-- Bring pending changes of the editor into the notebook, tell the server of all changes, and
readdress a request. -/
def requestFlushed (relay : Relay) (workspace : Workspace) (surface : SurfaceId) (method : Text)
    (params : Json) : Relayed (Option Notification × Option Request) :=
  match Origin.of? workspace surface with
  | none => (.error .surfaceNotLive, relay, workspace)
  | some origin => match workspace.session? origin.notebook with
    | none => (.error (.notebook .notebookNotFound), relay, workspace)
    | some session =>
      match session.flushed fun session => (.ok (), session) with
      | (.error fault, session) =>
        (.error (.notebook fault), relay, workspace.setSession origin.notebook session)
      | (.ok (), session) =>
        -- From here on the server counts as told, even if the request is refused below.
        match relay.flush (workspace.setSession origin.notebook session) origin.notebook with
        | (.error fault, relay, workspace) => (.error fault, relay, workspace)
        | (.ok change, relay, workspace) =>
          match relay.request workspace surface method params with
          | (.error fault, relay) => (.error fault, relay, workspace)
          | (.ok request, relay) => (.ok (change, request), relay, workspace)

end Notebook.Lsp.Relay

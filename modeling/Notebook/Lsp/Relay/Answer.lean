import Notebook.Lsp.Location
import Notebook.Lsp.Message
import Notebook.Lsp.Relay.Request
/-!
# Answers on the way in

The answer to a lookup is readdressed and handed back. Renames and formatting are carried out on
the notebook, but only if it is still what the server was asked about. Answers that have come too
late are discarded.
-/
namespace Notebook.Lsp

inductive AnswerOutcome where
  | result (origin : SurfaceId) (method : Text) (value : Json) (targets : List Target)
  | applied (notebook : NotebookId) (edits : Nat)
  /-- The formatting goes on with another request. -/
  | followUp (request : Request)
  | notify (message : UserMessage)
  | discarded
  deriving DecidableEq, Repr

namespace Relay

/-- Requests whose results lead to the notebook itself and not to its preview. -/
def navigationMethods : List Text :=
  ["textDocument/definition", "textDocument/declaration", "textDocument/implementation",
    "textDocument/typeDefinition"]

/-- The result of a lookup for the surface that asked. -/
def lookupResult (session : Session) (addresses : Addresses) (origin : Origin) (method : Text)
    (result : Json) : AnswerOutcome :=
  let isNavigation := navigationMethods.any fun name => method = name
  let readdressing : Readdressing := {
    shadow := addresses.shadow
    target := if isNavigation then addresses.facade else addresses.preview
    offset := origin.lineOffset }
  let value := readdressing.inbound (0 < origin.lineOffset) result
  .result origin.surface method value
    (if isNavigation then Location.targets value addresses.facade session else [])

/-- The notebook is what it was when a rename was asked for, as far as the answer tells. -/
def renameIsCurrent (session : Session) (uri : Text) (revision version : Nat) (result : Json) :
    Bool :=
  session.facade.revision = revision && !session.editorIsDirty &&
    (WorkspaceEdit.versionsFor result uri).all fun sent => sent = version

/-- The cell changed since formatting was asked for. -/
def isStale : RelayFault → Bool
  | .notebook (.staleCellRange _) => true
  | .notebook (.cellNotFound _) => true
  | _ => false

def answerRename (session : Session) (id : NotebookId) (uri : Text) (revision version : Nat)
    (result : Json) : Except RelayFault AnswerOutcome × Session :=
  if renameIsCurrent session uri revision version result then
    match applyRename session uri result with
    | (.ok edits, session) => (.ok (.applied id edits), session)
    | (.error (.crossBoundary boundary), session) =>
      (.ok (.notify ⟨.error, boundary.message⟩), session)
    | (.error fault, session) => (.error fault, session)
  else (.ok .discarded, session)

/-- Carry out the formatting of a part of a cell. -/
def answerFormatRange (session : Session) (id : NotebookId) (cell : Text) (span : Span)
    (result : Json) : Except RelayFault AnswerOutcome × Session :=
  match applyFormat session cell span (TextEdit.decodeAll result) with
  | (.ok edits, session) => (.ok (.applied id edits), session)
  | (.error (.crossBoundary boundary), session) =>
    (.ok (.notify ⟨.error, boundary.message⟩), session)
  | (.error fault, session) =>
    (if isStale fault then .ok .discarded else .error fault, session)

/-- Carry out one step of formatting a notebook. A cell whose edits are refused is passed over.
Gives the number of edits made. -/
def formatStep (session : Session) (job : FormatJob) (result : Json) : Applied :=
  match applyFormat session job.cell job.span (TextEdit.decodeAll result) with
  | (.ok edits, session) => (.ok (job.applied + edits), session)
  | (.error (.crossBoundary _), session) => (.ok job.applied, session)
  | (.error fault, session) =>
    (if isStale fault then .ok job.applied else .error fault, session)

/-- Carry out one step of formatting a notebook and ask for the next one. -/
def answerFormatNotebook (relay : Relay) (session : Session) (origin : Origin) (uri : Text)
    (job : FormatJob) (result : Json) : Except RelayFault AnswerOutcome × Relay × Session :=
  match formatStep session job result with
  | (.error fault, session) => (.error fault, relay, session)
  | (.ok applied, session) =>
    match relay.requestFormat session origin uri job.options applied job.remaining with
    | (some request, relay) => (.ok (.followUp request), relay, session)
    | (none, relay) => (.ok (.applied origin.notebook applied), relay, session)

/-- Use a result for the purpose it was asked for. -/
def answerPending (relay : Relay) (session : Session) (addresses : Addresses) (origin : Origin)
    (pending : Pending) (result : Json) :
    Except RelayFault AnswerOutcome × Relay × Session :=
  match pending.purpose with
  | .lookup =>
    (.ok (lookupResult session addresses origin pending.method result), relay, session)
  | .rename revision version =>
    let (outcome, session) :=
      answerRename session origin.notebook addresses.shadow revision version result
    (outcome, relay, session)
  | .formatRange cell span =>
    let (outcome, session) := answerFormatRange session origin.notebook cell span result
    (outcome, relay, session)
  | .formatNotebook job =>
    relay.answerFormatNotebook session origin addresses.shadow job result

def answer (relay : Relay) (workspace : Workspace) (message : Json) : Relayed AnswerOutcome :=
  match Response.decode? message with
  | none => (.error (.malformed "response"), relay, workspace)
  | some response => match Table.get? relay.pending response.id with
    | none => (.ok .discarded, relay, workspace)
    | some pending =>
      -- The request is settled from here on, whatever becomes of its answer.
      let relay := { relay with pending := Table.erase relay.pending response.id }
      match Origin.of? workspace pending.origin with
      | none => (.ok .discarded, relay, workspace)
      | some origin => match relay.addresses? origin.notebook with
        | none => (.ok .discarded, relay, workspace)
        | some addresses => match response.error with
          | some error =>
            (.ok (if error.isWithdrawal then .discarded
              else .notify ⟨.error, pending.method ++ ": " ++ error.message⟩), relay, workspace)
          | none => match workspace.session? origin.notebook with
            | none => (.error (.notebook .notebookNotFound), relay, workspace)
            | some session =>
              let (outcome, relay, session) := relay.answerPending session addresses origin
                pending (Json.orNull response.result)
              (outcome, relay, workspace.setSession origin.notebook session)

end Relay

end Notebook.Lsp

import Notebook.Lsp.Document
import Notebook.Lsp.Fault
import Notebook.Lsp.Origin
import Notebook.Lsp.Publisher
/-!
# The relay

The relay stands between the surfaces of notebooks and a language server. The server knows only
the shadows of those notebooks that were registered, and learns of their changes when they are
flushed. Every request that goes out is remembered until its answer comes in.
-/
namespace Notebook.Lsp

/-- The formatting of a whole notebook, cell by cell. -/
structure FormatJob where
  cell : Text
  span : Span
  /-- The cells that are still to be formatted, the next one first. -/
  remaining : List Text
  options : Json
  applied : Nat
  deriving DecidableEq, Repr

/-- What the answer to a request is used for. -/
inductive Purpose where
  | lookup
  /-- It is a rename of the facade of that revision and the shadow of that version. -/
  | rename (revision version : Nat)
  /-- It is the formatting of a part of a cell that stood at a span. -/
  | formatRange (cell : Text) (span : Span)
  /-- It is the next step of formatting a notebook. -/
  | formatNotebook (job : FormatJob)
  deriving DecidableEq, Repr

/-- A request whose answer has not come in. -/
structure Pending where
  method : Text
  origin : SurfaceId
  notebook : NotebookId
  purpose : Purpose
  deriving DecidableEq, Repr

/-- The traffic with a language server. -/
structure Relay where
  settings : RelaySettings := {}
  next : Nat := 0
  pending : Table Nat Pending := []
  documents : Table NotebookId Document := []
  publisher : Publisher := {}
  deriving DecidableEq, Repr

/-- What the relay came to, and the relay and the workspace afterwards. -/
abbrev Relayed (α : Type) := Except RelayFault α × Relay × Workspace

namespace Relay

/-! ## Looking up -/

/-- The shadow of a notebook as the server knows it. -/
def document? (relay : Relay) (id : NotebookId) : Option Document :=
  Table.get? relay.documents id

def addresses? (relay : Relay) (id : NotebookId) : Option Addresses :=
  (relay.document? id).map (·.addresses)

/-- The registered notebook that one of its URIs names. -/
def notebookOf? (relay : Relay) (uri : Text) : Option NotebookId :=
  (relay.documents.find? fun entry =>
    entry.2.addresses.facade = uri || entry.2.addresses.shadow = uri ||
      entry.2.addresses.preview = uri).map (·.1)

/-- The text that a preview URI shows. The path in its query names the notebook; without one, the
file name has to be that of exactly one open notebook. -/
def readPreview? (relay : Relay) (workspace : Workspace) (uri : Text) : Option Text := do
  let scheme := relay.settings.previewScheme
  let name ← Uri.previewName? uri scheme
  let id ← match Uri.previewPath? uri scheme with
    | some path => workspace.find? path
    | none =>
      match workspace.notebooks.filter fun entry => Uri.fileName entry.2.path = name with
      | [entry] => some entry.1
      | _ => none
  (workspace.session? id).map fun session => session.facade.text

/-! ## Registered notebooks -/

/-- Register a notebook. Changes of its shadow are recorded from now on. -/
def didOpen (relay : Relay) (workspace : Workspace) (id : NotebookId) : Relayed Notification :=
  match workspace.entry? id with
  | none => (.error (.notebook .notebookNotFound), relay, workspace)
  | some entry =>
    let session := entry.session.trackShadow true
    let document := Document.start entry.path (Addresses.ofPath entry.path relay.settings)
      session.shadow.text
    (.ok (document.opened relay.settings.languageId),
      { relay with documents := Table.set relay.documents id document },
      workspace.setSession id session)

/-- Tell the server how a shadow changed since it was last told. -/
def flush (relay : Relay) (workspace : Workspace) (id : NotebookId) :
    Relayed (Option Notification) :=
  match relay.document? id with
  | none => (.error .notRegistered, relay, workspace)
  | some document => match workspace.session? id with
    | none => (.error (.notebook .notebookNotFound), relay, workspace)
    | some session =>
      let (splices, session) := session.takeShadowSplices
      let (notification, document) := document.changed splices
      (.ok notification, { relay with documents := Table.set relay.documents id document },
        workspace.setSession id session)

/-- Unregister a notebook. Answers to its requests and its diagnostics are dropped. -/
def didClose (relay : Relay) (workspace : Workspace) (id : NotebookId) :
    Option Notification × Relay × Workspace :=
  match relay.document? id with
  | none => (none, relay, workspace)
  | some document =>
    let workspace := match workspace.session? id with
      | some session => workspace.setSession id (session.trackShadow false)
      | none => workspace
    (some document.closed, { relay with
      documents := Table.erase relay.documents id
      pending := relay.pending.filter fun entry => entry.2.notebook ≠ id
      publisher := relay.publisher.forget id }, workspace)

def register (relay : Relay) (method : Text) (params : Json) (origin : Origin)
    (purpose : Purpose) : Request × Relay :=
  (⟨relay.next, method, params⟩, { relay with
    next := relay.next + 1
    pending := Table.set relay.pending relay.next
      ⟨method, origin.surface, origin.notebook, purpose⟩ })

end Relay

end Notebook.Lsp

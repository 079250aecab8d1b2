import Notebook.Lsp.Diagnostic
import Notebook.Workspace
/-!
# Publishing diagnostics

Diagnostics arrive for shadows and are shown on facades and in editors. Of each notebook only the
newest set is kept, and a notebook waits at most once. What is not about a line of code is left
out.
-/
namespace Notebook.Lsp

inductive PublishTarget where
  | facade (notebook : NotebookId)
  /-- In the editor; lines count from the first content line of the cell. -/
  | editor (surface : SurfaceId)
  deriving DecidableEq, Repr

structure Published where
  target : PublishTarget
  /-- The diagnostics, named after the notebook. -/
  set : DiagnosticSet
  deriving DecidableEq, Repr

/-- Diagnostics that were received, and the notebooks that wait to be published. -/
structure Publisher where
  latest : Table NotebookId DiagnosticSet := []
  /-- The notebooks that wait, oldest first. -/
  queue : List NotebookId := []
  deriving DecidableEq, Repr

namespace Publisher

/-- Let a notebook wait, once. -/
def enqueue (publisher : Publisher) (id : NotebookId) : Publisher :=
  if id ∈ publisher.queue then publisher
  else { publisher with queue := publisher.queue ++ [id] }

/-- Take in the newest set of a notebook. -/
def schedule (publisher : Publisher) (id : NotebookId) (set : DiagnosticSet) : Publisher :=
  { publisher with latest := Table.set publisher.latest id set }.enqueue id

/-- Let a notebook wait again. The flag tells whether anything was ever received for it. -/
def refresh (publisher : Publisher) (id : NotebookId) : Bool × Publisher :=
  if (Table.get? publisher.latest id).isSome then (true, publisher.enqueue id)
  else (false, publisher)

/-- Drop what is known about a notebook. -/
def forget (publisher : Publisher) (id : NotebookId) : Publisher where
  latest := Table.erase publisher.latest id
  queue := publisher.queue.filter (· ≠ id)

def pending (publisher : Publisher) : Nat := publisher.queue.length

/-- The diagnostic starts on a line of code. -/
def isInCode (session : Session) (diagnostic : Diagnostic) : Bool :=
  let line := diagnostic.range.start.line
  match session.cellAt? line with
  | none => false
  | some index => match session.cells.get? index, session.spanOf? index with
    | some cell, some span => cell.kind.isCode && span.containsContent line
    | _, _ => false

/-- The diagnostic counted from the first line of the editor. -/
def shiftedUp (lines : Nat) (diagnostic : Diagnostic) : Diagnostic :=
  let range := diagnostic.range
  { diagnostic with range := {
      start := { range.start with line := range.start.line - lines }
      stop := { range.stop with line := range.stop.line - lines } } }

/-- What the editor shows of diagnostics, if its handle is live. -/
def editorSet? (workspace : Workspace) (id : NotebookId) (session : Session) (uri : Text)
    (diagnostics : List Diagnostic) : Option Published := do
  let surface ← workspace.editorSurface? id
  let editor ← session.editor
  some {
    target := .editor surface
    set := {
      uri
      diagnostics := (diagnostics.filter fun diagnostic =>
        editor.span.containsContent diagnostic.range.start.line).map
          (shiftedUp (word editor.lineOffset)) } }

/-- What is shown of one notebook: in its editor, then on its facade. -/
def publish (publisher : Publisher) (workspace : Workspace)
    (facadeUri : NotebookId → Option Text) (id : NotebookId) : List Published :=
  match Table.get? publisher.latest id, workspace.session? id, facadeUri id with
  | some received, some session, some uri =>
    -- Cells may have moved since, so the lines are looked up now and not on arrival.
    let diagnostics := received.diagnostics.filter (isInCode session)
    (editorSet? workspace id session uri diagnostics).toList ++
      [{ target := .facade id, set := { uri, diagnostics } }]
  | _, _, _ => []

/-- Publish everything that waits. Notebooks that are closed or have no URI are passed over. -/
def drain (publisher : Publisher) (workspace : Workspace)
    (facadeUri : NotebookId → Option Text) : List Published × Publisher :=
  (publisher.queue.flatMap (publisher.publish workspace facadeUri),
    { publisher with queue := [] })

end Publisher

end Notebook.Lsp

import Notebook.Workspace
/-!
# Where requests come from

What a handle of a surface means at the moment. An editor may close and its cell may move between
a request and its answer, so this is found out anew every time.
-/
namespace Notebook.Lsp

/-- What a live handle of a surface means. -/
structure Origin where
  surface : SurfaceId
  notebook : NotebookId
  kind : SurfaceKind
  /-- The line of the shadow that line zero of the surface stands for. -/
  lineOffset : Nat
  /-- Identity of the cell, if it is an editor. -/
  cell : Option Text
  deriving DecidableEq, Repr

namespace Origin

/-- What a handle means, if it is live. -/
def of? (workspace : Workspace) (surface : SurfaceId) : Option Origin := do
  let found ← workspace.resolve? surface
  match found.kind with
  | .editor =>
    let editor ← (← workspace.session? found.notebook).editor
    some ⟨surface, found.notebook, .editor, editor.lineOffset, some editor.cell⟩
  -- Facade and shadow have the same lines.
  | kind => some ⟨surface, found.notebook, kind, 0, none⟩

/-- A line of the surface as a line of the shadow. -/
def toShadow (origin : Origin) (line : Nat) : Nat := line + origin.lineOffset

/-- A line of the shadow as a line of the surface. Lines above it stand for its first one. -/
def fromShadow (origin : Origin) (line : Nat) : Nat := line - origin.lineOffset

end Origin

end Notebook.Lsp

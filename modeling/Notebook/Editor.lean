import Notebook.Layout
/-!
# The cell editor

One cell at a time can be open in an editor. The editor has a buffer of its own, and a number
that tells its sessions apart, so that a handle of a closed session is never taken for the current
one. Its buffer is dirty from a change until the change has reached the notebook.
-/
namespace Notebook

structure Editor where
  cell : Text
  generation : Nat
  /-- Where the cell stood when the editor was last brought in line. -/
  span : Span
  buffer : Buffer
  /-- Revision of the buffer that the notebook knows. -/
  synced : Nat
  deriving DecidableEq, Repr

namespace Editor

def start (cell : Text) (generation : Nat) (span : Span) (source : Text) : Editor :=
  { cell, generation, span, buffer := Buffer.ofText source, synced := 0 }

/-- The line of the rendered text that line zero of the editor shows. -/
def lineOffset (editor : Editor) : Nat := editor.span.contentStart

/-- The buffer changed since the notebook last took notice. -/
def isDirty (editor : Editor) : Bool := editor.buffer.revision ≠ editor.synced

/-- The notebook holds what the buffer holds, at a span. -/
def markSynced (editor : Editor) (span : Span) : Editor :=
  { editor with span, synced := editor.buffer.revision }

/-- Take over a source from the notebook. -/
def reload (editor : Editor) (source : Text) (span : Span) : Editor :=
  { editor with buffer := (editor.buffer.setText source .alone).2 }.markSynced span

end Editor

end Notebook

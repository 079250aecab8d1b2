import Notebook.Lsp.Location
import Notebook.Proofs.Session.Invariant
/-!
# The lines of the facade and the cells

The spans of the cells cover the facade from its first line on, one below the other, with one blank
line behind each. So a line belongs to the last cell that starts on it or above it, and a jump ends in a
cell exactly if it ends between the markers of that cell.
-/
namespace Notebook.Session

open Layout

variable {settings : Settings} {session : Session} {index line : Nat} {cell : Cell}

/-! ## Cells of a sound session -/

theorem Sound.spanOf?_eq (sound : session.Sound) (here : session.cells.get? index = some cell) :
    session.spanOf? index = some ⟨depth (session.cells.cells.take index),
      depth (session.cells.cells.take index) + cell.height - 1⟩ :=
  sound.anchored.spanOf?_eq here

theorem Sound.spanOf?_eq_some_iff (sound : session.Sound) {span : Span} :
    session.spanOf? index = some span ↔ ∃ cell, session.cells.get? index = some cell ∧
      span.top = depth (session.cells.cells.take index) ∧
      span.bottom + 2 = depth (session.cells.cells.take (index + 1)) :=
  sound.anchored.spanOf?_eq_some_iff

theorem Sound.cellAt?_eq_some_iff (sound : session.Sound) : session.cellAt? line = some index ↔
    (∃ span, session.spanOf? index = some span ∧ span.top ≤ line) ∧
      ∀ later span, index < later → session.spanOf? later = some span → line < span.top :=
  sound.anchored.cellAt?_eq_some_iff

end Notebook.Session

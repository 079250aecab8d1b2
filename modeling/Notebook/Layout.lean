import Notebook.Buffer.Basic
import Notebook.CellList
import Notebook.Markup
/-!
# Where cells stand in the rendered text

The line of every start marker carries an anchor named by the identity of its cell. Anchors move
with edits above them and are lost with their line, so after any edit it is known where a cell
stands without reading the text again. They are placed anew after every structural change.
-/
namespace Notebook

/-- The lines of a cell in the rendered text, from start marker to end marker. -/
structure Span where
  top : Nat
  bottom : Nat
  deriving DecidableEq, Repr

namespace Span

def contentStart (span : Span) : Nat := span.top + 1

/-- The line after the last content line, which is that of the end marker. -/
def contentStop (span : Span) : Nat := span.bottom

def contentLength (span : Span) : Nat := span.bottom - span.top - 1

/-- A line is one of the content lines. -/
def containsContent (span : Span) (line : Nat) : Bool := span.top < line && line < span.bottom

end Span

namespace Layout

/-- Start lines of cells that stand one below the other from a line on. -/
def startLines (line : Nat) : List Cell → List Nat
  | [] => []
  | cell :: rest => line :: startLines (line + cell.height + 1) rest

/-- Bind one anchor per cell where the layout puts its start marker, and no others. -/
def place (cells : List Cell) (facade : Buffer) : Buffer :=
  (cells.zip (startLines 0 cells)).foldl (fun b entry => b.bindAnchor entry.1.id entry.2)
    facade.clearAnchors

/-- Where a cell stands: from its anchor on, as far as the text has those lines. -/
def spanOfCell? (facade : Buffer) (cell : Cell) : Option Span := do
  let top ← facade.anchorLine cell.id
  -- The height is that of the cell: nothing in the text is searched for the end marker.
  let bottom := top + cell.height - 1
  if bottom < facade.lineCount then some ⟨top, bottom⟩ else none

def spanOf? (cells : List Cell) (facade : Buffer) (index : Nat) : Option Span :=
  cells[index]?.bind (spanOfCell? facade)

/-- Index of the last cell whose anchor is on the line or above it. -/
def cellAt? (cells : List Cell) (facade : Buffer) (line : Nat) : Option Nat :=
  (List.range cells.length).reverse.find? fun index =>
    (cells[index]?.bind fun cell => facade.anchorLine cell.id).any fun top => top ≤ line

/-- The anchor and the delimiter lines of a cell are where the layout has them. -/
def verifyCell (tag : Text) (facade : Buffer) (cell : Cell) (expected : Nat) :
    Except Drift Unit :=
  match facade.anchorLine cell.id with
  | none => .error (.missingAnchor cell.id)
  | some actual =>
    let bottom := expected + cell.height - 1
    if actual ≠ expected then .error (.anchorDrift cell.id actual expected)
    else if Text.line? facade.text expected ≠ some (startMarker tag cell.kind) then
      .error (.markerMismatch expected (startMarker tag cell.kind))
    else if Text.line? facade.text bottom ≠ some (endMarker tag) then
      .error (.markerMismatch bottom (endMarker tag))
    else .ok ()

/-- Anchors and delimiter lines of all cells are where the layout has them. -/
def verify (tag : Text) (cells : List Cell) (facade : Buffer) : Except Drift Unit :=
  (cells.zip (startLines 0 cells)).forM fun entry => verifyCell tag facade entry.1 entry.2

end Layout

end Notebook

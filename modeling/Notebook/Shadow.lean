import Notebook.Layout
/-!
# The shadow

The shadow is the rendered text with everything but code blanked out. It has exactly as many
lines, a line inside a code cell holds the same text, and every other line is empty. So line
numbers mean the same in both, and a language server that is shown the shadow sees plain code.

The shadow has no undo history. Its splices are recorded once a language server knows it.
-/
namespace Notebook.Shadow

/-- Content lines of a cell: its own for code, blank ones otherwise. -/
def contentLines (cell : Cell) : List Text :=
  if cell.kind.isCode then cell.lines else List.replicate cell.lineCount []

def lines (cells : List Cell) : List Text :=
  Markup.stacked (cells.map fun cell => [] :: (contentLines cell ++ [[]]))

def ofCells (cells : List Cell) : Buffer := Buffer.ofText (Text.unlines (lines cells))

/-- Bring the whole shadow in line, touching only what differs. The flag tells whether anything
did. -/
def refresh (shadow : Buffer) (cells : List Cell) : Bool × Buffer :=
  shadow.setLines (lines cells) .alone

/-- Bring one cell in line whose content used to stand at `span`. Cells without code matter only
when their number of lines changed. -/
def patch (shadow : Buffer) (span : Span) (cell : Cell) : Buffer :=
  if !cell.kind.isCode ∧ span.contentLength = cell.lineCount then shadow
  else
    let new := contentLines cell
    if Text.linesBetween shadow.text span.contentStart span.contentStop = new then shadow
    else shadow.replaceLines span.contentStart span.contentStop new .alone

end Notebook.Shadow

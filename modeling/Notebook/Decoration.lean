import Notebook.Layout
import Notebook.Text.Width
/-!
# Decorations

What an editor draws over and below the rendered text without changing it: a border in place of
each delimiter line, a label that tells how the execution of a code cell stands, and the first
lines of its outputs.
-/
namespace Notebook

/-- Where a decoration goes, relative to its line. -/
inductive Placement where
  /-- Over the line, hiding its text. -/
  | overlay
  | endOfLine
  | below
  deriving DecidableEq, Repr

inductive DecorationKind where
  | border
  | label
  | output
  deriving DecidableEq, Repr

structure Decoration where
  line : Nat
  placement : Placement
  kind : DecorationKind
  /-- The text, in lines. -/
  lines : List Text
  deriving DecidableEq, Repr

namespace Decoration

def minBorder : Nat := 40

/-- Most lines of output that are shown. -/
def maxOutputLines : Nat := 10

/-- How the execution of a cell stands: its number, a star while it lasts, or a blank. -/
def label (cell : Cell) : Text :=
  match cell.progress with
  | .busy | .queued => "[*]"
  | .idle => match cell.executionCount with
    | some count => "[" ++ decimal count ++ "]"
    | none => "[ ]"

/-- A border is as wide as the widest content line. -/
def borderWidth (cell : Cell) : Nat := (cell.lines.map Text.columns).foldl max minBorder

def bar : Char := '─'

/-- The upper border, with the kind of the cell in it. -/
def topBorder (cell : Cell) : Text :=
  let title := "─ " ++ cell.kind.name ++ " "
  "╭" ++ title ++ List.replicate (borderWidth cell - Text.columns title) bar

def bottomBorder (cell : Cell) : Text := "╰" ++ List.replicate (borderWidth cell) bar

/-- The first lines, and how many more there are. -/
def shortened (lines : List Text) : List Text :=
  if maxOutputLines < lines.length then
    lines.take maxOutputLines ++
      ["… " ++ decimal (lines.length - maxOutputLines) ++ " more lines"]
  else lines

/-- Decorations of a cell that stands at a span. -/
def ofCell (cell : Cell) (span : Span) : List Decoration :=
  let borders : List Decoration :=
    [⟨span.top, .overlay, .border, [topBorder cell]⟩,
      ⟨span.bottom, .overlay, .border, [bottomBorder cell]⟩]
  if !cell.kind.isCode then borders
  else
    let preview := cell.outputs.flatMap Output.preview
    let outputs : List Decoration :=
      if preview.isEmpty then [] else [⟨span.bottom, .below, .output, shortened preview⟩]
    borders ++ [⟨span.top, .endOfLine, .label, [label cell]⟩] ++ outputs

end Decoration

end Notebook

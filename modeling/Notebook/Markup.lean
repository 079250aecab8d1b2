import Notebook.Cell
import Notebook.Fault
import Notebook.Text.Blank
/-!
# Rendered text

A cell is rendered as a start marker that names its kind, its content lines, and an end marker.
A blank line follows every cell, so cells are separated by blank lines and the text ends in one;
a notebook without cells is one blank line.

Inside a cell every line but the end marker is content, start markers included. Hence a source
can be rendered exactly when none of its lines is the end marker, and reading inverts rendering
for such sources.
-/
namespace Notebook

/-- The line that opens a cell of a kind. -/
def startMarker (tag : Text) (kind : Kind) : Text := "# <<" ++ tag ++ ":" ++ kind.name ++ ">>"

def endMarker (tag : Text) : Text := "# <</" ++ tag ++ ">>"

/-- What is left of a text after a beginning. -/
def afterPrefix? : Text → Text → Option Text
  | [], text => some text
  | _ :: _, [] => none
  | p :: ps, c :: rest => if p = c then afterPrefix? ps rest else none

/-- A letter of the Latin alphabet without marks. -/
def isLatinLetter (c : Char) : Bool := ('A' ≤ c && c ≤ 'Z') || ('a' ≤ c && c ≤ 'z')

/-- The name of a kind that a line carries, if it has the form of a start marker: the beginning
of one, a name of letters, and the end of one. -/
def markedKind? (tag line : Text) : Option Text := do
  let rest ← afterPrefix? ("# <<" ++ tag ++ ":") line
  let reversed ← afterPrefix? ">>" rest.reverse
  let name := reversed.reverse
  if name ≠ [] ∧ name.all isLatinLetter then some name else none

namespace Markup

/-- A source can be rendered if no line of it is the end marker. -/
def checkSource (tag source : Text) : Except MarkupFault Unit :=
  match (Text.lines source).findIdx? fun line => line = endMarker tag with
  | some line => .error (.endMarkerInSource line (endMarker tag))
  | none => .ok ()

def blockLines (tag : Text) (block : Block) : List Text :=
  startMarker tag block.kind :: (Text.lines block.source ++ [endMarker tag])

/-- Groups of lines one below the other, a blank line after each; one blank line if there are no
groups. -/
def stacked : List (List Text) → List Text
  | [] => [[]]
  | groups => groups.flatMap fun group => group ++ [[]]

def renderLines (tag : Text) (blocks : List Block) : List Text :=
  stacked (blocks.map (blockLines tag))

def render (tag : Text) (blocks : List Block) : Text := Text.unlines (renderLines tag blocks)

/-- A cell whose end marker was not read yet. -/
structure OpenBlock where
  start : Nat
  kind : Kind
  /-- Content lines so far, the last one first. -/
  content : List Text
  deriving DecidableEq, Repr

/-- Read the lines from number `k` on, inside a cell or between cells. -/
def readLines (tag : Text) (k : Nat) :
    Option OpenBlock → List Text → Except MarkupFault (List Block)
  | none, [] => .ok []
  | some block, [] => .error (.unterminated block.start)
  | none, line :: rest =>
    match markedKind? tag line with
    | some name => match Kind.named? name with
      | none => .error (.unknownKind k name)
      | some kind => readLines tag (k + 1) (some ⟨k, kind, []⟩) rest
    | none =>
      if line = endMarker tag then .error (.unmatchedEnd k)
      else if Text.isBlank line then readLines tag (k + 1) none rest
      else .error (.strayText k)
  | some block, line :: rest =>
    if line = endMarker tag then do
      let blocks ← readLines tag (k + 1) none rest
      .ok (⟨block.kind, Text.unlines block.content.reverse⟩ :: blocks)
    else readLines tag (k + 1) (some { block with content := line :: block.content }) rest

/-- The cells that lines render. Between cells only blank lines may stand. -/
def parseLines (tag : Text) (lines : List Text) : Except MarkupFault (List Block) :=
  readLines tag 0 none lines

def parse (tag text : Text) : Except MarkupFault (List Block) := parseLines tag (Text.lines text)

end Markup

end Notebook

import Notebook.Buffer.Splice
import Notebook.Lsp.Range
/-!
# Replicas of shadows

A replica holds a document as the language server knows it, line by line. Splices of the shadow
count characters from the start of the text; the replica turns each one into a change between two
points and makes that change itself, so that the next splice meets the text it was made on.

A carriage return at the end of a line belongs to the line break and is not part of the replica.
-/
namespace Notebook.Lsp

/-- A replacement that a language server is told of. -/
structure TextChange where
  range : Range
  text : Text
  deriving DecidableEq, Repr

def TextChange.encode (change : TextChange) : Json :=
  Json.object [("range", change.range.encode), ("text", .str change.text)]

/-- A document line by line. The empty replica has no line at all. -/
structure Replica where
  lines : List Text := []
  deriving DecidableEq, Repr

namespace Replica

/-- A line without the carriage return that ends it. -/
def withoutReturn (line : Text) : Text :=
  if line.getLast? = some '\r' then line.dropLast else line

/-- Lines of a text as a replica holds them. -/
def linesOf (text : Text) : List Text := (Text.lines text).map withoutReturn

def ofText (text : Text) : Replica := ⟨linesOf text⟩

def text (replica : Replica) : Text := Text.unlines replica.lines

/-- A line, empty if there is none. -/
def lineAt (replica : Replica) (k : Nat) : Text := replica.lines[k]?.getD []

/-- The place of an offset in lines of which the first has a given number. An offset past the end
stands for the end. -/
def placeIn (line : Nat) : List Text → Nat → Position
  | [], _ => ⟨line, 0⟩
  | [last], offset => ⟨line, min offset last.length⟩
  | text :: rest, offset =>
    if offset ≤ text.length then ⟨line, offset⟩
    else placeIn (line + 1) rest (offset - (text.length + 1))

def placeOf (replica : Replica) (offset : Nat) : Position := placeIn 0 replica.lines offset

def pointAt (replica : Replica) (place : Position) : Point :=
  Point.ofColumn (replica.lineAt place.line) place.line place.column

/-- The change that replaces what stands between two places. -/
def changeBetween (replica : Replica) (start stop : Position) (text : Text) : TextChange :=
  ⟨⟨replica.pointAt start, replica.pointAt stop⟩, text⟩

def changeOf (replica : Replica) (splice : Splice) : TextChange :=
  replica.changeBetween (replica.placeOf splice.start) (replica.placeOf splice.stop) splice.inserted

/-- The same lines, and empty ones up to a number. -/
def padded (lines : List Text) (count : Nat) : List Text :=
  lines ++ List.replicate (count - lines.length) []

/-- Make a change. Lines that do not exist yet are empty. -/
def apply (replica : Replica) (change : TextChange) : Replica :=
  let start := change.range.start
  let stop := change.range.stop
  -- A change may name lines behind the last one.
  let replica : Replica := ⟨padded replica.lines (max start.line stop.line + 1)⟩
  let first := replica.lineAt start.line
  let last := replica.lineAt stop.line
  let front := first.take (Text.charOffset first start.character)
  let back := last.drop (Text.charOffset last stop.character)
  ⟨replica.lines.take start.line ++ linesOf (front ++ change.text ++ back) ++
    replica.lines.drop (stop.line + 1)⟩

/-- Turn splices into changes one after the other. -/
def follow (replica : Replica) : List Splice → List TextChange × Replica
  | [] => ([], replica)
  | splice :: rest =>
    let change := replica.changeOf splice
    let (changes, replica) := (replica.apply change).follow rest
    (change :: changes, replica)

end Replica

end Notebook.Lsp

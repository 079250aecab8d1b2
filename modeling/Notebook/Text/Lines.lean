/-!
# Texts, lines and positions

A text is the list of its Unicode scalar values. Lines are the pieces between line feeds and
nothing else: a carriage return or a line separator is an ordinary character. Hence every text
has at least one line, and a final line feed opens an empty last line.
-/
namespace Notebook

/-- A text. Offsets and columns count its scalar values. -/
abbrev Text := List Char

/-- Fixed texts may be written as string literals. -/
instance : Coe String Text := ⟨String.toList⟩

/-- A place in a text. Both numbers count from zero. -/
structure Position where
  line : Nat
  column : Nat
  deriving DecidableEq, Repr

/-- A place stands earlier in the text than another. -/
def Position.before (a b : Position) : Bool :=
  a.line < b.line || (a.line = b.line && a.column < b.column)

namespace Text

/-- The lines of a text, without their line feeds. -/
def lines : Text → List Text
  | [] => [[]]
  | c :: rest =>
    if c = '\n' then [] :: lines rest
    else match lines rest with
      | [] => [[c]]
      | line :: more => (c :: line) :: more

/-- Put lines together again, one line feed between neighbours. -/
def unlines : List Text → Text
  | [] => []
  | [line] => line
  | line :: more => line ++ '\n' :: unlines more

/-- Number of lines; at least one. -/
def lineCount (text : Text) : Nat := text.count '\n' + 1

/-- Line `k`, if the text has that many lines. -/
def line? (text : Text) (k : Nat) : Option Text := (lines text)[k]?

/-- Offset at which line `k` starts. A line past the end starts at the end of the text. -/
def lineStart : Text → Nat → Nat
  | _, 0 => 0
  | [], _ + 1 => 0
  | c :: rest, k + 1 => 1 + lineStart rest (if c = '\n' then k else k + 1)

/-- The line that holds `offset`: the number of line feeds before it. -/
def lineOf (text : Text) (offset : Nat) : Nat := (text.take offset).count '\n'

/-- Length of line `k`, zero past the end. -/
def lineLength (text : Text) (k : Nat) : Nat := ((line? text k).getD []).length

/-- Offset of a position. A column past the end of its line stands for the end of the line, a
line past the end for the end of the text. -/
def offsetAt (text : Text) (position : Position) : Nat :=
  lineStart text position.line + min position.column (lineLength text position.line)

/-- Lines `start` up to but not including `stop`, cut to the lines that exist. -/
def linesBetween (text : Text) (start stop : Nat) : List Text :=
  ((lines text).take stop).drop start

end Text

end Notebook

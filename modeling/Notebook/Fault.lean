import Notebook.Text.Lines
/-!
# Faults

Why an operation was refused, and the sentence that tells so. Line numbers in messages count
from zero.
-/
namespace Notebook

def decimal (n : Nat) : Text := Nat.toDigits 10 n

/-- Why a text cannot be split into cells, or a source cannot be rendered. -/
inductive MarkupFault where
  /-- A start marker names a kind that does not exist. -/
  | unknownKind (line : Nat) (kind : Text)
  | unmatchedEnd (line : Nat)
  | strayText (line : Nat)
  | endMarkerInSource (line : Nat) (marker : Text)
  /-- The text ends inside the cell that starts at `line`. -/
  | unterminated (line : Nat)
  deriving DecidableEq, Repr

inductive FileFault where
  /-- Not JSON, or not the JSON of a notebook. -/
  | malformed
  | unsupportedCellType (index : Nat) (kind : Text)
  deriving DecidableEq, Repr

/-- How rendered text, anchors and shadow disagree with the cells. -/
inductive Drift where
  | missingAnchor (id : Text)
  /-- An anchor sits on another line than the layout says. -/
  | anchorDrift (id : Text) (actual expected : Nat)
  | markerMismatch (line : Nat) (expected : Text)
  /-- A rendered line differs from the rendering of the cells. -/
  | facadeContent (line : Nat)
  /-- The shadow has another number of lines than the rendered text. -/
  | shadowLineCount (facade shadow : Nat)
  /-- A line of the shadow differs from what the cells say. -/
  | shadowContent (line : Nat)
  deriving DecidableEq, Repr

/-- Why an operation on a notebook was refused. -/
inductive Fault where
  | indexOutOfRange (index len : Nat)
  | cellNotFound (id : Text)
  | noEditSession
  | notebookNotFound
  | surfaceNotFound
  | notExecutable (id : Text)
  /-- The cell does not stand where the edits expect it. -/
  | staleCellRange (id : Text)
  /-- An edit reaches beyond the content of its cell. -/
  | editOutsideCell (id : Text) (line : Nat)
  | markup (fault : MarkupFault)
  | file (fault : FileFault)
  | drift (drift : Drift)
  deriving DecidableEq, Repr

/-- The sentence for a fault of rendered text. -/
def MarkupFault.message : MarkupFault → Text
  | unknownKind line kind =>
    "line " ++ decimal line ++ ": unknown cell type `" ++ kind ++ "` in start marker"
  | unmatchedEnd line =>
    "line " ++ decimal line ++ ": end marker without a matching start marker"
  | strayText line => "line " ++ decimal line ++ ": text outside of a cell"
  | endMarkerInSource line marker =>
    "source line " ++ decimal line ++ " is the cell end marker `" ++ marker ++
      "`; change or indent that line"
  | unterminated line => "cell starting at line " ++ decimal line ++ " is never closed"

/-- The sentence for a fault of a stored notebook. -/
def FileFault.message : FileFault → Text
  | malformed => "malformed notebook"
  | unsupportedCellType index kind =>
    "cell " ++ decimal index ++ ": unsupported cell type `" ++ kind ++ "`"

/-- The sentence for a disagreement of views. -/
def Drift.message : Drift → Text
  | missingAnchor id => "cell " ++ id ++ " has no boundary anchor"
  | anchorDrift id actual expected =>
    "cell " ++ id ++ ": anchor at line " ++ decimal actual ++ ", expected line " ++
      decimal expected
  | markerMismatch line expected =>
    "line " ++ decimal line ++ ": expected delimiter `" ++ expected ++ "`"
  | facadeContent line =>
    "facade line " ++ decimal line ++ " does not match the cell store"
  | shadowLineCount facade shadow =>
    "shadow has " ++ decimal shadow ++ " lines but facade has " ++ decimal facade
  | shadowContent line => "shadow line " ++ decimal line ++ " does not mirror the facade"

def Fault.message : Fault → Text
  | indexOutOfRange index len =>
    "cell index " ++ decimal index ++ " out of range (len " ++ decimal len ++ ")"
  | cellNotFound id => "cell " ++ id ++ " not found"
  | noEditSession => "no cell is open for editing"
  | notebookNotFound => "notebook not found"
  | surfaceNotFound => "surface not found"
  | notExecutable id => "cell " ++ id ++ " is not a code cell"
  | staleCellRange id => "cell " ++ id ++ " changed since the edit was computed"
  | editOutsideCell id line =>
    "edit at line " ++ decimal line ++ " falls outside cell " ++ id
  | markup fault => fault.message
  | file fault => fault.message
  | drift fault => fault.message

end Notebook

import Notebook.Lsp.Range
import Notebook.Session.Basic
/-!
# Jump targets

A language server answers a jump with a location, a link, or an array of either. All come down to
a list of locations. One that names the facade is tied to the cell that it falls into.
-/
namespace Notebook.Lsp

structure Location where
  uri : Text
  /-- The span; of a link, the narrower one if the server sent it. -/
  range : Range
  deriving DecidableEq, Repr

structure Target where
  location : Location
  /-- Identity of the cell that it falls into, if it is in the notebook. -/
  cell : Option Text
  deriving DecidableEq, Repr

namespace Location

/-- A location from a JSON location or link. -/
def decode? (value : Json) : Option Location :=
  match (value.get? "uri").bind Json.asText? with
  | some uri => do some ⟨uri, ← Range.decode? (← value.get? "range")⟩
  | none => do
    let uri ← (← value.get? "targetUri").asText?
    let range ← ((value.get? "targetSelectionRange").bind Range.decode?).or
      ((value.get? "targetRange").bind Range.decode?)
    some ⟨uri, range⟩

def decodeAll : Json → List Location
  | .arr items => items.filterMap decode?
  | value => (decode? value).toList

/-- The cell that a line of the facade belongs to, both delimiters included. The blank line
between cells belongs to none. -/
def cellOf? (session : Session) (line : Nat) : Option Text := do
  let index ← session.cellAt? line
  let span ← session.spanOf? index
  if line ≤ span.bottom then (session.cells.get? index).map (·.id) else none

/-- The jump targets of an answer that names the facade by `facadeUri`. -/
def targets (value : Json) (facadeUri : Text) (session : Session) : List Target :=
  (decodeAll value).map fun location =>
    { location
      cell := if location.uri = facadeUri then cellOf? session location.range.start.line
        else none }

end Location

end Notebook.Lsp

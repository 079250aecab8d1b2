import Notebook.Lsp.Fault
import Notebook.Lsp.TextEdit
/-!
# Carrying out renames and formatting

Edits that a language server proposes are never made on the document as a whole. A rename is made
as edits of the facade, each of which has to stay within one code cell. Formatting is made within
one cell, and only while the cell stands where it stood when the server was asked.
-/
namespace Notebook.Lsp

/-- A number of edits that were made, or why none was, and the session afterwards. -/
abbrev Applied := Except RelayFault Nat × Session

/-- The code cell that has a line as content line, and where it stands. -/
def codeCellAt? (session : Session) (line : Nat) : Option (Cell × Span) := do
  let index ← session.cellAt? line
  let cell ← session.cells.get? index
  let span ← session.spanOf? index
  if cell.kind.isCode ∧ span.containsContent line then some (cell, span) else none

/-- An edit starts and ends on content lines of one code cell. -/
def isInsideCode (session : Session) (edit : Edit) : Bool :=
  (codeCellAt? session edit.start.line).any fun entry =>
    entry.2.containsContent edit.stop.line

/-- Make the edits that a rename proposes for one document, as one step. -/
def applyRename (session : Session) (uri : Text) (workspaceEdit : Json) : Applied :=
  let proposed := WorkspaceEdit.editsFor workspaceEdit uri
  if proposed = [] then (.ok 0, session)
  else
    let edits := TextEdit.toEdits session.facade proposed
    if edits.all (isInsideCode session) then
      match session.editFacade edits .alone with
      | (.error fault, session) => (.error (.notebook fault), session)
      | (.ok (), session) => (.ok edits.length, session)
    else (.error (.crossBoundary .renameOutsideCode), session)

/-- A formatting edit that ends at the start of the end marker and with a line feed is the same
edit up to the end of the last content line, without the line feed. -/
def clip? (session : Session) (span : Span) (edit : Edit) : Option Edit :=
  if edit.stop = ⟨span.contentStop, 0⟩ then
    let last := span.contentStop - 1
    if edit.text.getLast? = some '\n' then
      some ⟨edit.start, ⟨last, Text.lineLength session.facade.text last⟩, edit.text.dropLast⟩
    else none
  else some edit

/-- Make formatting edits in one cell, provided that it still stands at a span. -/
def applyFormat (session : Session) (id : Text) (expected : Span) (proposed : List TextEdit) :
    Applied :=
  if proposed = [] then (.ok 0, session)
  else match (TextEdit.toEdits session.facade proposed).mapM (clip? session expected) with
    | none => (.error (.crossBoundary .formatSpansCells), session)
    | some edits => match session.editCell id expected edits with
      | (.ok (), session) => (.ok edits.length, session)
      | (.error (.editOutsideCell ..), session) =>
        (.error (.crossBoundary .formatSpansCells), session)
      | (.error fault, session) => (.error (.notebook fault), session)

/-- The cell that a request to format a range is about. The range may end at the start of the end
marker. -/
def formatTarget (session : Session) (range : Range) : Except RelayFault (Text × Span) :=
  match codeCellAt? session range.start.line with
  | none => .error (.crossBoundary .formatNotCode)
  | some (cell, span) =>
    if span.containsContent range.stop.line ∨ range.stop = ⟨span.contentStop, 0⟩ then
      .ok (cell.id, span)
    else .error (.crossBoundary .formatSpansCells)

/-- The range of the content lines of a cell. -/
def contentRange (session : Session) (span : Span) : Range :=
  let last := span.contentStop - 1
  let text := (Text.line? session.facade.text last).getD []
  ⟨⟨word span.contentStart, 0⟩, ⟨word last, word (Text.units text)⟩⟩

end Notebook.Lsp

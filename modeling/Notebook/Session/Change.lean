import Notebook.Session.Basic
/-!
# Changing a notebook

Every operation first brings pending changes of the editor into the notebook; if they are refused,
so is the operation. A refused operation changes nothing else.

Structural changes are made on the cells, and the views are made anew. A change of one source
writes only the lines of that cell. Edits of the facade are tried on a copy: only if the result
still reads as cells, and as other cells than before, are they made.
-/
namespace Notebook

/-- A replacement of the text between two places of the facade. -/
structure Edit where
  start : Position
  stop : Position
  text : Text
  deriving DecidableEq, Repr

namespace Edit

/-- Put an edit in front of those that start at the same place or above. -/
def insertBottomUp (edit : Edit) : List Edit → List Edit
  | [] => [edit]
  | other :: rest =>
    if edit.start.before other.start then other :: insertBottomUp edit rest
    else edit :: other :: rest

/-- Edits in the order in which they are made: from the bottom up, so that none moves the place
of another. Edits that start at the same place keep their order. -/
def bottomUp (edits : List Edit) : List Edit := edits.foldr insertBottomUp []

def applyTo (edit : Edit) (grouping : Grouping) (buffer : Buffer) : Buffer :=
  buffer.replaceSpan edit.start edit.stop edit.text grouping

def applyAll (edits : List Edit) (grouping : Grouping) (buffer : Buffer) : Buffer :=
  (bottomUp edits).foldl (fun buffer edit => edit.applyTo grouping buffer) buffer

/-- The same edit counted from another line. -/
def shiftedUp (edit : Edit) (lines : Nat) : Edit :=
  { edit with
    start := ⟨edit.start.line - lines, edit.start.column⟩
    stop := ⟨edit.stop.line - lines, edit.stop.column⟩ }

/-- The first line named by the edits that is not a content line. -/
def firstOutside? (span : Span) (edits : List Edit) : Option Nat :=
  (edits.flatMap fun edit => [edit.start.line, edit.stop.line]).find? fun line =>
    !span.containsContent line

end Edit

namespace Session

/-- A change of the cells, after which all views are made anew. -/
def restructured {α : Type} (session : Session)
    (change : CellList → Except Fault (α × CellList)) : Outcome α :=
  session.flushed fun session =>
    match change session.cells with
    | .error fault => (.error fault, session)
    | .ok (result, cells) => (.ok result, { session with cells }.rerender .alone)

def insertCell (session : Session) (index : Nat) (kind : Kind) (source : Text) : Outcome Text :=
  session.restructured fun cells =>
    match Markup.checkSource session.settings.tag source with
    | .error fault => .error (.markup fault)
    | .ok () => cells.insert index kind source

def deleteCell (session : Session) (index : Nat) : Outcome Cell :=
  session.restructured fun cells => cells.remove index

def moveCell (session : Session) (source target : Nat) : Outcome Unit :=
  session.restructured fun cells => (cells.move source target).map fun cells => ((), cells)

def setKind (session : Session) (index : Nat) (kind : Kind) : Outcome Unit :=
  session.restructured fun cells => (cells.setKind index kind).map fun cells => ((), cells)

/-- Write one cell as a step of its own. -/
def replaceSource (session : Session) (index : Nat) (lines : List Text) : Outcome Unit :=
  match session.writeCell index lines .alone with
  | (.error fault, session) => (.error fault, session)
  | (.ok _, session) => (.ok (), session.reloadEditor.ensured)

def setSource (session : Session) (index : Nat) (source : Text) : Outcome Unit :=
  session.flushed fun session => session.replaceSource index (Text.lines source)

/-- Make edits within one cell, provided that it still stands where they were computed for. -/
def editCell (session : Session) (id : Text) (expected : Span) (edits : List Edit) :
    Outcome Unit :=
  session.flushed fun session =>
    match session.cells.indexOf? id with
    | none => (.error (.cellNotFound id), session)
    | some index => match session.cells.get? index, session.spanOf? index with
      | some cell, some span =>
        if span ≠ expected then (.error (.staleCellRange id), session)
        else match Edit.firstOutside? span edits with
          | some line => (.error (.editOutsideCell id line), session)
          | none =>
            -- The edits are made on a copy of the source, so the facade is written at most once.
            let scratch := Edit.applyAll (edits.map (·.shiftedUp span.contentStart)) .alone
              (Buffer.ofText cell.source)
            if scratch.text = cell.source then (.ok (), session)
            else session.replaceSource index scratch.lines
      | _, _ => (.error (.drift (.missingAnchor id)), session)

/-- Make edits anywhere in the facade and read the cells from it. As a step of its own the batch
forms a group; otherwise it extends the open burst. What rendering the cells then changes joins
the same group. Edits that leave the cells as they are are not made at all. -/
def editFacade (session : Session) (edits : List Edit) (grouping : Grouping) : Outcome Unit :=
  session.flushed fun session =>
    if edits = [] then (.ok (), session)
    else
      -- On a copy: edits that are refused or change no cell leave no trace in the history.
      let scratch := Edit.applyAll edits .alone (Buffer.ofText session.facade.text)
      match Markup.parseLines session.settings.tag scratch.lines with
      | .error fault => (.error (.markup fault), session)
      | .ok blocks =>
        if blocks = session.cells.blocks then (.ok (), session)
        else
          -- Closing the group before and behind keeps out what was typed before or is typed next.
          let separated (buffer : Buffer) : Buffer :=
            if grouping = .alone then buffer.endGroup else buffer
          let facade := separated (Edit.applyAll edits .burst (separated session.facade))
          (.ok (), { session with facade, cells := session.cells.reconcile blocks }.rerender
            .amend)

/-- Read the cells from the facade. What rendering them then changes joins the newest group. A
facade that does not read as cells is made anew from the cells. -/
def syncFromFacade (session : Session) : Outcome Unit :=
  match Markup.parseLines session.settings.tag session.facade.lines with
  | .error fault => (.error (.markup fault), session.repair)
  | .ok blocks =>
    (.ok (), { session with cells := session.cells.reconcile blocks }.rerender .amend)

/-- Move through the history of the facade and read the cells from it. The flag tells whether
there was anything to do. -/
def travel (session : Session) (move : Buffer → Bool × Buffer) : Outcome Bool :=
  session.flushed fun session =>
    let (moved, facade) := move session.facade
    let unchanged := facade.revision = session.facade.revision
    let session := { session with facade }
    if !moved ∨ unchanged then (.ok false, session)
    else match session.syncFromFacade with
      | (.error fault, session) => (.error fault, session)
      | (.ok (), session) => (.ok true, session)

def undo (session : Session) : Outcome Bool := session.travel Buffer.undo

/-- Redo the group that was undone last. -/
def redo (session : Session) : Outcome Bool := session.travel Buffer.redo

end Session

end Notebook

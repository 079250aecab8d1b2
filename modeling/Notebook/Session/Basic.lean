import Notebook.Decoration
import Notebook.Editor
import Notebook.File
import Notebook.Settings
import Notebook.Shadow
/-!
# An open notebook

A session holds the cells of a notebook and its three views: the rendered text (the facade), the
shadow, and the editor of one cell. The views are kept in step with the cells. `checkInvariants`
says what that means, and `repair` brings it about from the cells alone.
-/
namespace Notebook

structure Session where
  settings : Settings
  file : File
  cells : CellList
  facade : Buffer
  shadow : Buffer
  /-- The editor, if a cell is open. -/
  editor : Option Editor := none
  generation : Nat := 0
  /-- Tickets that are still valid, and the cells they were issued for. -/
  executions : Table Nat Text := []
  nextTicket : Nat := 0
  namespaces : Table Text Text := []
  /-- Disagreements of the views that were noticed and repaired, the last one first. -/
  drifts : List Drift := []
  deriving DecidableEq, Repr

/-- A result, or why there is none, and the session afterwards in either case. -/
abbrev Outcome (α : Type) := Except Fault α × Session

namespace Session

/-! ## Opening -/

/-- The first source that cannot be rendered. -/
def checkSources (tag : Text) (cells : List Cell) : Except MarkupFault Unit :=
  cells.forM fun cell => Markup.checkSource tag cell.source

/-- Open a notebook from its file and its cells. -/
def build (file : File) (cells : List Cell) (settings : Settings) : Except Fault Session :=
  match checkSources settings.tag cells with
  | .error fault => .error (.markup fault)
  | .ok () =>
    let list := CellList.ofCells cells
    let text := Markup.render settings.tag list.blocks
    .ok {
      settings
      file := { file with cells := [] }
      cells := list
      facade := Layout.place list.cells ((Buffer.ofText text).withHistory settings.maxUndo)
      shadow := Shadow.ofCells list.cells }

/-- Open a notebook that consists of cells. -/
def ofCells (cells : List Cell) (settings : Settings) : Except Fault Session :=
  build {} cells settings

def ofText (text : Text) (settings : Settings) : Except Fault Session :=
  match File.ofText text with
  | .error fault => .error (.file fault)
  | .ok file => match file.load with
    | .error fault => .error (.file fault)
    | .ok cells => build file cells settings

/-! ## Reading -/

/-- Kernel language of the notebook, or the one in the settings. -/
def language (session : Session) : Text := session.file.language?.getD session.settings.language

def spanOf? (session : Session) (index : Nat) : Option Span :=
  Layout.spanOf? session.cells.cells session.facade index

/-- The last cell that starts on a line or above it. -/
def cellAt? (session : Session) (line : Nat) : Option Nat :=
  Layout.cellAt? session.cells.cells session.facade line

/-- Namespace summary of a cell after its last execution. -/
def namespaceOf? (session : Session) (id : Text) : Option Text :=
  Table.get? session.namespaces id

def decorations (session : Session) : List Decoration :=
  (List.range session.cells.length).flatMap fun index =>
    match session.cells.get? index, session.spanOf? index with
    | some cell, some span => Decoration.ofCell cell span
    | _, _ => []

def toFile (session : Session) : File := session.file.withCells session.cells.cells

def text (session : Session) : Text := session.toFile.text

/-- Start or stop recording changes of the shadow. Recorded ones are dropped. -/
def trackShadow (session : Session) (on : Bool) : Session :=
  { session with shadow := session.shadow.track on }

/-- Changes of the shadow since they were last asked for. -/
def takeShadowSplices (session : Session) : List Splice × Session :=
  (session.shadow.drained, { session with shadow := session.shadow.drain })

/-- The editor's buffer is changed from outside. -/
def editBuffer (session : Session) (change : Buffer → Buffer) : Session :=
  { session with
    editor := session.editor.map fun editor => { editor with buffer := change editor.buffer } }

/-! ## The invariants and how they are restored -/

/-- Lines of the rendering of the cells. -/
def renderedLines (session : Session) : List Text :=
  Markup.renderLines session.settings.tag session.cells.blocks

/-- The first line where two lists of lines differ. -/
def firstDifference (k : Nat) : List Text → List Text → Option Nat
  | [], [] => none
  | a :: as, b :: bs => if a = b then firstDifference (k + 1) as bs else some k
  | _, _ => some k

/-- Facade, anchors and shadow agree with the cells. -/
def checkInvariants (session : Session) : Except Drift Unit :=
  let facade := session.facade.lines
  let shadow := session.shadow.lines
  match firstDifference 0 facade session.renderedLines with
  | some line => .error (.facadeContent line)
  | none => match Layout.verify session.settings.tag session.cells.cells session.facade with
    | .error drift => .error drift
    | .ok () =>
      -- The facade is right by now, so the shadow is at fault if the two differ.
      if shadow.length ≠ facade.length then
        .error (.shadowLineCount facade.length shadow.length)
      else match firstDifference 0 shadow (Shadow.lines session.cells.cells) with
        | some line => .error (.shadowContent line)
        | none => .ok ()

/-- Bring the editor in line with its cell, or close it if the cell is gone. -/
def reloadEditor (session : Session) : Session :=
  match session.editor with
  | none => session
  | some editor =>
    let current := (session.cells.find? editor.cell).bind fun cell =>
      (Layout.spanOfCell? session.facade cell).map fun span => (cell, span)
    match current with
    | none => { session with editor := none }
    | some (cell, span) =>
      if editor.buffer.text = cell.source then
        { session with editor := some (editor.markSynced span) }
      else { session with editor := some (editor.reload cell.source span) }

/-- Make all views from the cells. A change of the facade that this takes is grouped as asked. -/
def refreshViews (session : Session) (grouping : Grouping) : Session :=
  let facade := (session.facade.setLines session.renderedLines grouping).2
  reloadEditor { session with
    facade := Layout.place session.cells.cells facade
    shadow := (Shadow.refresh session.shadow session.cells.cells).2 }

/-- Make all views from the cells. Undoing the change before also undoes what this changed. -/
def repair (session : Session) : Session := session.refreshViews .amend

/-- Repair the views, and put on record how they disagreed with the cells. -/
def repairAfter (session : Session) (drift : Drift) : Session :=
  { session with drifts := drift :: session.drifts }.repair

/-- Repair the views if they disagree with the cells. -/
def ensured (session : Session) : Session :=
  match session.checkInvariants with
  | .ok () => session
  | .error drift => session.repairAfter drift

def rerender (session : Session) (grouping : Grouping) : Session :=
  (session.refreshViews grouping).ensured

/-- Where a cell stands, after a repair if its anchor is lost. -/
def spanOrRepair (session : Session) (index : Nat) : Outcome Span :=
  match session.cells.get? index with
  | none => (.error (.indexOutOfRange index session.cells.length), session)
  | some cell => match session.spanOf? index with
    | some span => (.ok span, session)
    | none =>
      let session := session.repairAfter (.missingAnchor cell.id)
      match session.spanOf? index with
      | some span => (.ok span, session)
      | none => (.error (.drift (.missingAnchor cell.id)), session)

/-- Replace the content lines of one cell in the cells, the facade and the shadow. Anchors are
placed anew only when the number of lines changes. -/
def writeCell (session : Session) (index : Nat) (lines : List Text) (grouping : Grouping) :
    Outcome Span :=
  let lines := if lines = [] then [[]] else lines
  let source := Text.unlines lines
  match Markup.checkSource session.settings.tag source with
  | .error fault => (.error (.markup fault), session)
  | .ok () => match session.spanOrRepair index with
    | (.error fault, session) => (.error fault, session)
    | (.ok old, session) =>
      let cells := session.cells.modifyAt index fun cell => { cell with source }
      let facade := session.facade.replaceLines old.contentStart old.contentStop lines grouping
      let facade :=
        if lines.length ≠ old.contentLength then Layout.place cells.cells facade else facade
      let shadow := match cells.get? index with
        | some cell => Shadow.patch session.shadow old cell
        | none => session.shadow
      let session := { session with cells, facade, shadow }
      match session.spanOf? index with
      | some span => (.ok span, session)
      | none =>
        (.error (.drift (.missingAnchor (((cells.get? index).map (·.id)).getD []))), session)

/-! ## The editor -/

/-- The editor holds changes that the notebook does not know. -/
def editorIsDirty (session : Session) : Bool := session.editor.any Editor.isDirty

/-- Bring changes of the editor into the notebook. The flag tells whether there were any. -/
def syncEditor (session : Session) : Outcome Bool :=
  match session.editor with
  | none => (.error .noEditSession, session)
  | some editor =>
    if !editor.isDirty then (.ok false, session)
    else match session.cells.indexOf? editor.cell with
      | none => (.error (.cellNotFound editor.cell), { session with editor := none })
      | some index => match session.writeCell index editor.buffer.lines .burst with
        | (.error fault, session) => (.error fault, session)
        | (.ok span, session) =>
          let synced : Session :=
            { session with editor := session.editor.map fun editor => editor.markSynced span }
          (.ok true, synced.ensured)

/-- Bring changes of the editor into the notebook and go on, unless they are refused. -/
def flushed {α : Type} (session : Session) (next : Session → Outcome α) : Outcome α :=
  if session.editorIsDirty then
    match session.syncEditor with
    | (.error fault, session) => (.error fault, session)
    | (.ok _, session) => next session
  else next session

/-- End the burst of changes after bringing the last ones in. -/
def commitEditor (session : Session) : Outcome Unit :=
  session.flushed fun session => (.ok (), { session with facade := session.facade.endGroup })

/-- Commit and close the editor. Changes that are refused are lost. -/
def closeEditor (session : Session) : Session :=
  if session.editor.isNone then session
  else { session.commitEditor.2 with editor := none }

/-- Open the editor on a cell, closing it where it was. Gives the number of the session. -/
def openEditor (session : Session) (index : Nat) : Outcome Nat :=
  match session.closeEditor.spanOrRepair index with
  | (.error fault, session) => (.error fault, session)
  | (.ok span, session) => match session.cells.get? index with
    | none => (.error (.indexOutOfRange index session.cells.length), session)
    | some cell =>
      let generation := session.generation + 1
      (.ok generation, { session with
        generation
        editor := some (Editor.start cell.id generation span cell.source) })

end Session

end Notebook

import Notebook.Proofs.Buffer.Difference
import Notebook.Proofs.Session.Views
/-!
# Repair of any session

A repair reads nothing but the cells. Whatever the views, the anchors, the history and the editor are, also
such that no operation leads to, it makes the views anew, puts each anchor in its place and brings the editor
in line or closes it. What it changes of the facade is one step, and undo takes it back together with the
newest step that there was.
-/
namespace Notebook

open Text Layout

/-- Where there is room for one more step, one that amends lies in the group of the newest step. -/
theorem History.record_amend {history : History} {newest : Step} {older : List Step}
    (stack : history.undoable = newest :: older) (room : history.undoable.length < history.limit)
    (splice : Splice) : history.record splice .amend = { history with
      undoable := ⟨newest.group, splice⟩ :: newest :: older
      redoable := []
      openGroup := history.openAfter newest.group .amend } := by
  have kept : history.trimmed = newest :: older := by
    rw [trimmed, if_neg (Nat.not_le_of_lt room), stack]
  have joins : history.joined .amend = some newest.group := by
    rw [joined, kept]
    rfl
  simp only [History.record, joins, kept, Option.getD_some, Option.isSome_some, if_true]

namespace Session

variable {session : Session} {editor : Editor}

/-! ## The editor -/

/-- An editor shows the source of a cell at a span, and holds no changes. -/
structure Shows (shown : Cell) (stands : Span) (editor : Editor) : Prop where
  cell : editor.cell = shown.id
  span : editor.span = stands
  text : editor.buffer.text = shown.source
  clean : editor.isDirty = false

theorem shows_markSynced {shown : Cell} (id : shown.id = editor.cell)
    (same : editor.buffer.text = shown.source) (span : Span) : Shows shown span (editor.markSynced span) :=
  ⟨id.symm, rfl, same, by simp [Editor.isDirty, Editor.markSynced]⟩

theorem shows_reload {shown : Cell} (id : shown.id = editor.cell) (span : Span) :
    Shows shown span (editor.reload shown.source span) := by
  let loaded : Editor := { editor with buffer := (editor.buffer.setText shown.source .alone).2 }
  have id : shown.id = loaded.cell := id
  have same : loaded.buffer.text = shown.source := Buffer.text_setText ..
  exact shows_markSynced id same span

/-- An editor of a live cell is brought in line with the cell. -/
theorem Anchored.reloadEditor_live (anchored : session.Anchored)
    (distinct : (CellList.ids session.cells.cells).Nodup) (opened : session.editor = some editor)
    {index : Nat} {cell : Cell} (here : session.cells.get? index = some cell) (id : cell.id = editor.cell) :
    ∃ span after, session.spanOf? index = some span ∧ session.reloadEditor.editor = some after ∧
      Shows cell span after ∧ after.generation = editor.generation := by
  obtain ⟨above, below, cells, rfl⟩ := exists_around here
  have live : session.cells.find? editor.cell = some cell := id ▸ CellList.find?_eq distinct cells
  have stands := anchored.placed.spanOfCell? anchored.room ⟨above, below, cells, rfl⟩
  have found : ∃ after, session.reloadEditor.editor = some after ∧
      Shows cell ⟨depth above, depth above + cell.height - 1⟩ after ∧
      after.generation = editor.generation := by
    simp only [reloadEditor, opened, live, stands, Option.bind_some, Option.map_some]
    split
    next same => exact ⟨_, rfl, shows_markSynced id same _, rfl⟩
    next => exact ⟨_, rfl, shows_reload id _, rfl⟩
  obtain ⟨after, reloaded, shows⟩ := found
  exact ⟨_, after, anchored.spanOf? cells, reloaded, shows⟩

/-- An editor of a cell that is gone is closed. -/
theorem reloadEditor_gone (opened : session.editor = some editor)
    (gone : editor.cell ∉ CellList.ids session.cells.cells) : session.reloadEditor.editor = none := by
  have missing : session.cells.find? editor.cell = none :=
    List.find?_eq_none.mpr fun cell member same =>
      gone (of_decide_eq_true same ▸ List.mem_map_of_mem member)
  simp only [reloadEditor, opened, missing, Option.bind_none]

/-! ## The views -/

/-- The session in which a repair looks for the cell of the editor. -/
def redrawn (session : Session) : Session :=
  { session with
    facade := place session.cells.cells (session.facade.setLines session.renderedLines .amend).2
    shadow := (Shadow.refresh session.shadow session.cells.cells).2 }

/-- A repair touches the views and the editor only. -/
theorem repair_eq (session : Session) : session.repair =
    { session.redrawn with editor := session.redrawn.reloadEditor.editor } := by
  change session.redrawn.reloadEditor = _
  obtain ⟨editor, reloaded⟩ := session.redrawn.reloadEditor_eq
  rw [reloaded]

/-- Before the editor is looked at, each cell is in its place. -/
theorem anchored_redrawn (distinct : (CellList.ids session.cells.cells).Nodup) :
    session.redrawn.Anchored := by
  have anchored : session.repair.Anchored := anchored_refreshViews distinct .amend
  rw [repair_eq] at anchored
  exact ⟨anchored.placed, anchored.room⟩

/-- What a repair makes of the text, the revision and the history of the facade. -/
theorem facade_repair (session : Session) :
    let facade := (session.facade.setLines session.renderedLines .amend).2
    session.repair.facade.text = facade.text ∧ session.repair.facade.revision = facade.revision ∧
      session.repair.facade.history = facade.history := by
  rw [repair_eq]
  exact ⟨text_place .., revision_place .., history_place ..⟩

/-- A facade that is not the rendering of the cells is put right by one splice. -/
theorem correction (wrong : session.facade.lines ≠ session.renderedLines) : ∃ splice,
    splice.Fits session.facade.text ∧
    session.repair.facade.text = splice.applyTo session.facade.text ∧
    session.repair.facade.history = session.facade.history.map (·.record splice .amend) := by
  obtain ⟨_, _, -, fits, set⟩ := Buffer.setLines_eq_edited wrong .amend
  obtain ⟨text, -, history⟩ := session.facade_repair
  rw [set] at text history
  exact ⟨_, fits, text.trans (Buffer.spliced_apply fits).leads.foldl_eq.symm, history⟩

/-- Whatever a session is whose tag holds no line feed and whose cells have identities of their own, after a
repair the check of the invariants passes, and nothing has changed but the views and the editor. The editor
of a live cell shows the source of the cell where the cell stands, and that of a missing cell is closed. A
facade that was right stays as it was, history included. One that was not is put right by one splice, which
becomes the newest step, in the group of the one that was newest before, if there was one and there is room. -/
theorem repair_recovers (session : Session) (plain : '\n' ∉ session.settings.tag)
    (distinct : (CellList.ids session.cells.cells).Nodup) :
    let repaired := session.repair
    repaired.checkInvariants = .ok () ∧ repaired.cells = session.cells ∧
    repaired = { session with
      facade := repaired.facade, shadow := repaired.shadow, editor := repaired.editor } ∧
    (session.editor = none → repaired.editor = none) ∧
    (∀ editor, session.editor = some editor →
      (∀ index cell, session.cells.get? index = some cell → cell.id = editor.cell →
        ∃ span after, repaired.spanOf? index = some span ∧ repaired.editor = some after ∧
          Shows cell span after ∧ after.generation = editor.generation) ∧
      (editor.cell ∉ CellList.ids session.cells.cells → repaired.editor = none)) ∧
    (session.facade.lines = session.renderedLines →
      repaired.facade.text = session.facade.text ∧
      repaired.facade.revision = session.facade.revision ∧
      repaired.facade.history = session.facade.history) ∧
    (session.facade.lines ≠ session.renderedLines → ∃ splice,
      splice.Fits session.facade.text ∧
      repaired.facade.text = splice.applyTo session.facade.text ∧
      ∀ history newest older, session.facade.history = some history →
        history.undoable = newest :: older → history.undoable.length < history.limit →
        repaired.facade.history = some { history with
          undoable := ⟨newest.group, splice⟩ :: newest :: older
          redoable := []
          openGroup := history.openAfter newest.group .amend }) := by
  intro repaired
  have made : repaired = _ := session.repair_eq
  have inStep : repaired.InStep := inStep_refreshViews plain distinct .amend
  refine ⟨inStep.checkInvariants ?_, ?_, ?_, ?_, fun editor opened => ⟨?_, ?_⟩, fun right => ?_,
    fun wrong => ?_⟩
  · rw [made]
    exact plain
  · rw [made]
    rfl
  · rw [made]
    rfl
  · intro closed
    have closed : session.redrawn.editor = none := closed
    rw [made, reloadEditor, closed]
    exact closed
  · intro index cell here id
    rw [made]
    exact (anchored_redrawn distinct).reloadEditor_live distinct opened here id
  · intro gone
    have closed : session.redrawn.reloadEditor.editor = none := reloadEditor_gone opened gone
    rw [made]
    exact closed
  · have idle := right ▸ session.facade.setLines_self .amend
    obtain ⟨text, revision, history⟩ := session.facade_repair
    rw [idle] at text revision history
    exact ⟨text, revision, history⟩
  · obtain ⟨splice, fits, text, recorded⟩ := correction wrong
    refine ⟨splice, fits, text, fun history newest older known stack room => ?_⟩
    rw [recorded, known, Option.map_some, History.record_amend stack room]

/-- A session of which nothing but the cells is right: the facade is another text under stray anchors, the
shadow is that of another notebook, and the editor shows something else. -/
def corrupted : Session where
  settings := {}
  file := {}
  cells := CellList.ofCells [{ id := "a", kind := .code, source := "x = 1" },
    { id := "b", kind := .markdown, source := "y" }]
  facade := {
    text := "stray"
    anchors := [("a", 99), ("z", 2)]
    history := some {
      undoable := [⟨4, ⟨0, [], "s"⟩⟩]
      redoable := [⟨7, ⟨3, "w", []⟩⟩]
      limit := 2
      openGroup := some 4 } }
  shadow := Buffer.ofText "no\nmore"
  editor := some ⟨"b", 3, ⟨8, 2⟩, Buffer.ofText "q", 5⟩

/-- A repair recovers it. -/
theorem corrupted_recovers : let repaired := corrupted.repair
    repaired.checkInvariants = .ok () ∧ repaired.cells = corrupted.cells ∧
      (∃ span after, repaired.spanOf? 1 = some span ∧ repaired.editor = some after ∧
        Shows { id := "b", kind := .markdown, source := "y" } span after ∧ after.generation = 3) ∧
      ∃ splice, repaired.facade.history = some {
        undoable := [⟨4, splice⟩, ⟨4, ⟨0, [], "s"⟩⟩]
        redoable := []
        limit := 2
        openGroup := some 4 } := by
  obtain ⟨checked, cells, -, -, shown, -, corrected⟩ :=
    repair_recovers corrupted (by decide) (by decide)
  obtain ⟨splice, -, -, recorded⟩ := corrected (by decide +kernel)
  exact ⟨checked, cells, (shown _ rfl).1 1 _ rfl rfl, splice, recorded _ _ _ rfl rfl (by decide)⟩

end Session

end Notebook

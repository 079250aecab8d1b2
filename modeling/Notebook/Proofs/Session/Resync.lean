import Notebook.Proofs.CellList.InPlace
import Notebook.Proofs.Session.Editor
import Notebook.Proofs.Session.Frame
/-!
# Nothing to make anew

The cells may be read from the facade again at any time, and the views may be made anew. Where nothing
is amiss, neither leaves a trace. The facade is read as the blocks of the cells, and cells that are
reconciled with their own blocks stay. The views hold the lines that they are given, and the anchors
stand where they are placed. And an editor that is not dirty shows its cell, in its place.
-/
namespace Notebook

open Text Layout

theorem Editor.markSynced_self {editor : Editor} (clean : editor.isDirty = false) :
    editor.markSynced editor.span = editor := by
  have synced : editor.buffer.revision = editor.synced := by
    simpa [Editor.isDirty] using clean
  rw [Editor.markSynced, synced]

namespace Session

variable {session : Session} {settings : Settings} {agrees : Editor → Text → Prop}

/-! ## The editor -/

/-- An editor that sits on its cell is found there again. It takes over the source if it shows another
text. -/
theorem Posed.reloadEditor_seated (posed : Posed agrees session) {editor : Editor}
    (opened : session.editor = some editor) :
    ∃ source, agrees editor source ∧ session.reloadEditor = { session with
      editor := some (if editor.buffer.text = source then editor.markSynced editor.span
        else editor.reload source editor.span) } := by
  obtain ⟨above, cell, below, cells, id, span, agree⟩ := posed.seated editor opened
  have live : session.cells.find? editor.cell = some cell :=
    id ▸ CellList.find?_eq posed.coherent.distinct_cells cells
  have stands : spanOfCell? session.facade cell = some editor.span := by
    rw [span]
    exact posed.anchored.placed.spanOfCell? posed.anchored.room ⟨above, below, cells, rfl⟩
  refine ⟨cell.source, agree, ?_⟩
  simp only [reloadEditor, opened, live, stands, Option.bind_some, Option.map_some]
  split <;> rfl

/-- Looking its cell up again, an editor stays in its place, whatever it takes over. -/
theorem Sound.reloadEditor_stays (sound : session.Sound) (seated : Seated agrees session) :
    ∃ buffer synced, session.reloadEditor = { session with
      editor := session.editor.map fun editor => { editor with buffer, synced } } := by
  cases opened : session.editor with
  | none =>
    refine ⟨session.facade, 0, ?_⟩
    rw [reloadEditor, Option.map_none]
    split
    next => rw [← opened]
    next editor there => cases opened.symm.trans there
  | some editor =>
    obtain ⟨source, -, reloaded⟩ := (sound.posed seated).reloadEditor_seated opened
    rw [reloaded]
    split <;> exact ⟨_, _, rfl⟩

/-- An editor that is not dirty has nothing to take over. -/
theorem Sound.reloadEditor_self (sound : session.Sound) (seated : Seated Editor.Holds session)
    (clean : session.editorIsDirty = false) : session.reloadEditor = session := by
  cases opened : session.editor with
  | none => rw [reloadEditor, opened]
  | some editor =>
    have clean : editor.isDirty = false := by simpa [editorIsDirty, opened] using clean
    obtain ⟨source, holds, reloaded⟩ := (sound.posed seated).reloadEditor_seated opened
    have text := holds.text (by simpa [Editor.isDirty] using clean)
    rw [reloaded, if_pos text, Editor.markSynced_self clean, ← opened]

/-! ## The other views -/

/-- Views that are in step are made anew as they are. -/
theorem InStep.refreshViews (inStep : session.InStep)
    (placed : place session.cells.cells session.facade = session.facade) (grouping : Grouping) :
    session.refreshViews grouping = session.reloadEditor := by
  -- The facade and the shadow hold the lines that they are given.
  have facade : (session.facade.setLines session.renderedLines grouping).2 = session.facade := by
    rw [← inStep.facade, Buffer.setLines_self]
  have shadow : (Shadow.refresh session.shadow session.cells.cells).2 = session.shadow := by
    rw [Shadow.refresh, ← inStep.shadow, Buffer.setLines_self]
  simp only [Session.refreshViews, facade, placed, shadow]

/-- The facade is read as the cells it was made from. -/
theorem Sound.syncFromFacade_self (sound : session.Sound) :
    session.syncFromFacade = (.ok (), session.rerender .amend) := by
  simp only [Session.syncFromFacade, sound.reads, CellList.reconcile_blocks]

/-- A list of cells that is reconciled with what it shows stays as it is, however many of them show the
same, and with the cells that it remembers. So if no change of the editor is pending, neither reading
the cells from the facade nor a repair changes anything: neither cells, views and their histories, nor
what was recorded, nor the place of the editor. Not even its buffer changes, unless it was exchanged
for another one behind the back of the notebook. -/
theorem Reachable.resync_self (reachable : Reachable settings session) (plain : '\n' ∉ settings.tag)
    (clean : session.editorIsDirty = false) :
    (∀ list : CellList, list.reconcile list.blocks = list) ∧
    ∃ buffer synced,
      let after : Session := { session with
        editor := session.editor.map fun editor => { editor with buffer, synced } }
      session.syncFromFacade = (.ok (), after) ∧ session.repair = after ∧
      (Orderly settings session → after = session) := by
  refine ⟨CellList.reconcile_blocks, ?_⟩
  obtain ⟨sound, -⟩ := reachable.sound plain
  -- The facade and the shadow come out as they are. What remains is the look at the editor.
  obtain ⟨buffer, synced, reloaded⟩ := sound.reloadEditor_stays (reachable.seated plain)
  have refreshed := sound.inStep.refreshViews (reachable.place_facade plain) .amend
  refine ⟨buffer, synced, ?_, ?_, ?_⟩
  · rw [sound.syncFromFacade_self, rerender_eq sound.plain sound.coherent.distinct_cells, refreshed,
      reloaded]
  · exact refreshed.trans reloaded
  · intro orderly
    rw [← reloaded]
    exact sound.reloadEditor_self (orderly.seated plain) clean

/-- So it is with two cells that show the same, an editor on the lower one, a change that can be made
again, and a shadow whose changes are recorded. -/
theorem resync_self_of_equal_cells : ∃ opened session : Session,
    Session.ofCells [{ id := "a", kind := .code, source := "x" },
      { id := "b", kind := .code, source := "x" }] {} = .ok opened ∧
    session = (Operation.perform (Operation.perform (Operation.perform (Operation.perform opened
      (.trackShadow true)).2 (.insertCell 1 .markdown "prose")).2 .undo).2 (.openEditor 1)).2 ∧
    session.editorIsDirty = false ∧ session.editor.map (·.cell) = some "b" ∧
    session.facade.history.map (·.redoable.length) = some 1 ∧ session.shadow.pending ≠ some [] ∧
    session.syncFromFacade = (.ok (), session) ∧ session.repair = session := by
  have opened : Orderly {} _ := .cells (rfl :
    Session.ofCells [{ id := "a", kind := .code, source := "x" },
      { id := "b", kind := .code, source := "x" }] {} = .ok _)
  have orderly := (((opened.step (.trackShadow true) trivial).step
    (.insertCell 1 .markdown "prose") trivial).step .undo trivial).step (.openEditor 1) trivial
  obtain ⟨-, buffer, synced, read, repaired, same⟩ :=
    orderly.reachable.resync_self (by decide) (by decide +kernel)
  rw [same orderly] at read repaired
  refine ⟨_, _, rfl, rfl, ?clean, ?seat, ?redo, ?recorded, read, repaired⟩
  case clean => decide +kernel
  case seat => decide +kernel
  case redo => decide +kernel
  case recorded => decide +kernel

end Session

end Notebook

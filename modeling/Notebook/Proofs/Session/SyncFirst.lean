import Notebook.Proofs.Session.Resync
import Notebook.Proofs.Session.Trail
import Notebook.Proofs.Session.Typing
/-!
# Changes of the editor come first

What the editor holds is brought in before anything else is done. So whoever asks for something gets the
same answer, and leaves the same session behind, whether or not the changes were brought in before. There
is one way around it: reading the cells from the facade does not look at the editor, and ends by giving
it the source of its cell.
-/
namespace Notebook.Session

open Text Layout

variable {session synced after : Session} {settings : Settings} {editor : Editor}
  {agrees : Editor → Text → Prop}

/-! ## Bringing in what can be rendered -/

/-- A source that can be rendered is never refused. -/
theorem Posed.syncEditor_ok (posed : Posed agrees session) (opened : session.editor = some editor)
    (dirty : editor.isDirty = true) {above below : List Cell} {cell : Cell}
    (cells : session.cells.cells = above ++ cell :: below) (id : cell.id = editor.cell)
    (passes : Markup.checkSource session.settings.tag editor.buffer.text = .ok ()) : ∃ anchors,
      (session.overwritten above below cell { cell with source := editor.buffer.text } anchors
        .burst).Anchored ∧
      session.syncEditor = (.ok true, (session.absorbed editor above below cell anchors).ensured) := by
  have distinct := posed.coherent.distinct_cells
  obtain ⟨anchors, written, anchored⟩ := posed.anchored.writeCell_ok distinct cells passes .burst
  refine ⟨anchors, anchored, ?_⟩
  have found : session.cells.indexOf? editor.cell = some above.length :=
    id ▸ CellList.indexOf?_eq distinct cells
  have kept : (session.overwritten above below cell { cell with source := editor.buffer.text } anchors
    .burst).editor = some editor := opened
  simp only [Session.syncEditor, opened, dirty, found, Buffer.lines, written, kept, Option.map_some,
    absorbed]
  rfl

/-- A check never closes an editor that sits on its cell, and leaves it clean if it was so. -/
theorem Posed.ensured_open (posed : Posed agrees session) (opened : session.editor = some editor)
    (clean : session.editorIsDirty = false) :
    session.ensured.editor.isSome ∧ session.ensured.editorIsDirty = false := by
  unfold Session.ensured
  split
  next => exact ⟨by rw [opened]; rfl, clean⟩
  next drift _ =>
    refine ⟨?_, reloadEditor_clean _⟩
    -- The repair looks the cell up in views that were made anew, and it is there.
    let made : Session := { session with
      drifts := drift :: session.drifts
      facade := place session.cells.cells (session.facade.setLines session.renderedLines .amend).2
      shadow := (Shadow.refresh session.shadow session.cells.cells).2 }
    have anchored : made.Anchored := by
      have remade : (session.refreshViews .amend).Anchored :=
        anchored_refreshViews posed.coherent.distinct_cells .amend
      obtain ⟨_, refreshed⟩ := session.refreshViews_eq .amend
      rw [refreshed] at remade
      exact ⟨remade.placed, remade.room⟩
    have posed : Posed agrees made := ⟨posed.coherent, anchored, posed.seated⟩
    obtain ⟨source, -, reloaded⟩ := posed.reloadEditor_seated opened
    have stays : made.reloadEditor.editor.isSome := by rw [reloaded]; rfl
    exact stays

/-- Bringing in a source that can be rendered leaves the editor open, with nothing to bring in. -/
theorem Reachable.syncEditor_ok (reachable : Reachable settings session)
    (opened : session.editor = some editor) (dirty : editor.isDirty = true)
    (passes : Markup.checkSource settings.tag editor.buffer.text = .ok ()) :
    ∃ synced, session.syncEditor = (.ok true, synced) ∧ synced.editor.isSome ∧
      synced.editorIsDirty = false ∧ synced.settings = session.settings ∧
      ∃ cell ∈ synced.cells.cells, cell.id = editor.cell ∧ cell.source = editor.buffer.text := by
  have same := reachable.headed.1
  have posed := reachable.posed
  obtain ⟨above, cell, below, cells, id, -, -⟩ := posed.seated editor opened
  obtain ⟨anchors, anchored, done⟩ := posed.syncEditor_ok opened dirty cells id (same ▸ passes)
  have left : session.syncEditor.2 = (session.absorbed editor above below cell anchors).ensured :=
    congrArg Prod.snd done
  have coherent := coherent_overwritten posed.coherent cells editor.buffer.text anchors .burst
  -- The editor still sits in its cell when its text is in, so the repair after it finds it open.
  have absorbed : Posed (fun _ _ => True) (session.absorbed editor above below cell anchors) := by
    refine ⟨coherent, ⟨anchored.placed, anchored.room⟩, ?_⟩
    rintro _ ⟨⟩
    exact ⟨above, { cell with source := editor.buffer.text }, below, rfl, id, rfl, trivial⟩
  obtain ⟨stays, clean⟩ := absorbed.ensured_open rfl
    (by simp [Session.absorbed, editorIsDirty, Editor.isDirty, Editor.markSynced])
  refine ⟨_, done, stays, clean, ?_, { cell with source := editor.buffer.text }, ?_, id, rfl⟩
  · rw [← left, same]
    exact (reachable.step .syncEditor).headed.1
  · rw [(repaired_ensured _).cells]
    exact List.mem_append_right _ List.mem_cons_self

/-! ## Whatever comes next -/

/-- Two sessions give the same answer to all that first brings in the changes of the editor, and are left
as the same session by it. -/
structure Alike (one other : Session) : Prop where
  insertCell : ∀ index kind source, one.insertCell index kind source = other.insertCell index kind source
  deleteCell : ∀ index, one.deleteCell index = other.deleteCell index
  moveCell : ∀ source target, one.moveCell source target = other.moveCell source target
  setKind : ∀ index kind, one.setKind index kind = other.setKind index kind
  setSource : ∀ index source, one.setSource index source = other.setSource index source
  editCell : ∀ id expected edits, one.editCell id expected edits = other.editCell id expected edits
  editFacade : ∀ edits grouping, one.editFacade edits grouping = other.editFacade edits grouping
  openEditor : ∀ index, one.openEditor index = other.openEditor index
  closeEditor : one.closeEditor = other.closeEditor
  commitEditor : one.commitEditor = other.commitEditor
  undo : one.undo = other.undo
  redo : one.redo = other.redo
  queue : ∀ index, one.queue index = other.queue index

/-- What follows the changes of the editor follows on them just as well once they were brought in. -/
theorem flushed_synced {α : Type} (dirty : session.editorIsDirty = true)
    (synchronous : session.syncEditor = (.ok true, synced)) (clean : synced.editorIsDirty = false)
    (next : Session → Outcome α) : session.flushed next = synced.flushed next := by
  rw [flushed_of_clean clean, flushed, if_pos dirty, synchronous]

theorem alike_synced (dirty : session.editorIsDirty = true)
    (synchronous : session.syncEditor = (.ok true, synced)) (stays : synced.editor.isSome)
    (clean : synced.editorIsDirty = false) (settings : synced.settings = session.settings) :
    Alike session synced := by
  have same {α : Type} (next : Session → Outcome α) : session.flushed next = synced.flushed next :=
    flushed_synced dirty synchronous clean next
  have restructured {α : Type} (change : CellList → Except Fault (α × CellList)) :
      session.restructured change = synced.restructured change := same _
  have travel (move : Buffer → Bool × Buffer) : session.travel move = synced.travel move := same _
  have commit : session.commitEditor = synced.commitEditor := same _
  have close : session.closeEditor = synced.closeEditor := by
    have opened : session.editor.isSome := by
      cases known : session.editor with
      | none => simp [editorIsDirty, known] at dirty
      | some => rfl
    rw [closeEditor, closeEditor, commit, if_neg (by simpa [Option.isSome_iff_ne_none] using opened),
      if_neg (by simpa [Option.isSome_iff_ne_none] using stays)]
  constructor
  case insertCell =>
    intro index kind source
    rw [insertCell, insertCell, settings]
    exact restructured _
  case openEditor =>
    intro index
    rw [openEditor, openEditor, close]
  case closeEditor => exact close
  case deleteCell | moveCell | setKind =>
    intros
    exact restructured _
  case undo | redo => exact travel _
  all_goals
    intros
    exact same _

/-! ## The way around -/

/-- Making the views anew looks at nothing that the editor holds. -/
theorem refreshViews_besides (session : Session) (editor : Option Editor) (grouping : Grouping) :
    ∃ left, { session with editor }.refreshViews grouping =
      { session.refreshViews grouping with editor := left } := by
  obtain ⟨left, one⟩ := Session.refreshViews_eq { session with editor } grouping
  obtain ⟨_, other⟩ := session.refreshViews_eq grouping
  rw [one, other]
  exact ⟨left, rfl⟩

theorem rerender_besides (session : Session) (editor : Option Editor) (grouping : Grouping) :
    ∃ left, { session with editor }.rerender grouping =
      { session.rerender grouping with editor := left } := by
  obtain ⟨left, remade⟩ := session.refreshViews_besides editor grouping
  have check : Session.checkInvariants { session.refreshViews grouping with editor := left } =
      (session.refreshViews grouping).checkInvariants := rfl
  rw [rerender, rerender, remade, ensured, ensured, check]
  split
  next => exact ⟨left, rfl⟩
  next drift _ =>
    exact refreshViews_besides { session.refreshViews grouping with
      drifts := drift :: (session.refreshViews grouping).drifts } left .amend

/-- The cells that are read from the facade, and the views that are made of them, do not depend on the
editor. -/
theorem syncFromFacade_besides (session : Session) (editor : Option Editor) :
    ∃ left, { session with editor }.syncFromFacade =
      (session.syncFromFacade.1, { session.syncFromFacade.2 with editor := left }) := by
  unfold syncFromFacade
  dsimp only
  split
  next =>
    obtain ⟨left, remade⟩ := session.refreshViews_besides editor .amend
    exact ⟨left, Prod.ext rfl remade⟩
  next blocks _ =>
    obtain ⟨left, remade⟩ := rerender_besides
      { session with cells := session.cells.reconcile blocks } editor .amend
    exact ⟨left, Prod.ext rfl remade⟩

/-- The cell of an editor has the source that the editor holds. -/
def Reflects (session : Session) (editor : Editor) : Prop :=
  ∃ cell ∈ session.cells.cells, cell.id = editor.cell ∧ cell.source = editor.buffer.text

/-- Whatever tag there is, reading the cells from the facade leaves no editor dirty. -/
theorem reflects_syncFromFacade (coherent : session.cells.Coherent) {left : Editor}
    (opened : session.syncFromFacade.2.editor = some left) :
    left.isDirty = false ∧ session.syncFromFacade.2.Reflects left := by
  let agrees (editor : Editor) (source : Text) : Prop :=
    editor.isDirty = false ∧ editor.buffer.text = source
  have settles : Settles agrees := fun editor span =>
    ⟨by simp [Editor.isDirty, Editor.markSynced], rfl⟩
  obtain ⟨above, cell, below, cells, id, -, clean, text⟩ :=
    (posed_syncFromFacade settles coherent).seated left opened
  refine ⟨clean, cell, ?_, id, text.symm⟩
  rw [cells]
  exact List.mem_append_right _ List.mem_cons_self

/-- Where nothing is amiss, reading the cells from the facade only looks at the cell of the editor. -/
theorem Reachable.syncFromFacade_eq (reachable : Reachable settings session)
    (plain : '\n' ∉ settings.tag) : session.syncFromFacade = (.ok (), session.reloadEditor) := by
  obtain ⟨sound, -⟩ := reachable.sound plain
  rw [sound.syncFromFacade_self, rerender_eq sound.plain sound.coherent.distinct_cells,
    sound.inStep.refreshViews (reachable.place_facade plain)]

/-- An editor that is looked after stays open, and holds the source that its cell has already. -/
theorem Posed.reflects_reloadEditor (posed : Posed agrees session)
    (opened : session.editor = some editor) :
    ∃ left, session.reloadEditor = { session with editor := some left } ∧ left.cell = editor.cell ∧
      left.isDirty = false ∧ session.Reflects left := by
  let agrees (editor : Editor) (source : Text) : Prop :=
    ∃ cell ∈ session.cells.cells, cell.id = editor.cell ∧ cell.source = source
  have located : Posed agrees session := by
    refine ⟨posed.coherent, posed.anchored, fun editor opened => ?_⟩
    obtain ⟨above, cell, below, cells, id, span, -⟩ := posed.seated editor opened
    refine ⟨above, cell, below, cells, id, span, cell, ?_, id, rfl⟩
    rw [cells]
    exact List.mem_append_right _ List.mem_cons_self
  obtain ⟨source, ⟨cell, live, id, known⟩, reloaded⟩ := located.reloadEditor_seated opened
  refine ⟨_, reloaded, ?_⟩
  split
  next same =>
    refine ⟨rfl, by simp [Editor.isDirty, Editor.markSynced], cell, live, id, known.trans same.symm⟩
  next =>
    refine ⟨rfl, by simp [Editor.reload, Editor.isDirty, Editor.markSynced], cell, live, id, ?_⟩
    rw [known]
    exact (Buffer.text_setText _ _ _).symm

/-- While the editor holds changes that can be rendered, every request gets the answer, and leaves the
session, that it would after these changes were brought in, and bringing them in makes them the source of
the cell. In step views show it, and the facade holds it as one more step that can be undone. Reading the
cells from the facade alone is different. What it reads, and what it makes of the cells and the views,
does not depend on the editor, which it leaves with what the cell has then. So where the views are in
step it changes nothing, and puts the source from before in the place of what was typed. -/
theorem Reachable.sync_first (reachable : Reachable settings session)
    (opened : session.editor = some editor) (dirty : editor.isDirty = true)
    (passes : Markup.checkSource settings.tag editor.buffer.text = .ok ()) :
    ∃ synced, session.syncEditor = (.ok true, synced) ∧ Alike session synced ∧
      synced.Reflects editor ∧
      (∀ other, ∃ left, { session with editor := other }.syncFromFacade =
        (session.syncFromFacade.1, { session.syncFromFacade.2 with editor := left })) ∧
      (∀ left, session.syncFromFacade.2.editor = some left →
        left.isDirty = false ∧ session.syncFromFacade.2.Reflects left) ∧
      ('\n' ∉ settings.tag →
        synced.facade.lines = synced.renderedLines ∧
        (∃ splice, session.facade.Typed synced.facade [splice]) ∧
        (∃ left, session.syncFromFacade = (.ok (), { session with editor := some left }) ∧
          left.cell = editor.cell ∧ session.Reflects left) ∧
        session.syncFromFacade ≠ synced.syncFromFacade) := by
  obtain ⟨synced, done, stays, clean, same, reflects⟩ := reachable.syncEditor_ok opened dirty passes
  have pending : session.editorIsDirty = true := by simpa [editorIsDirty, opened] using dirty
  refine ⟨synced, done, alike_synced pending done stays clean same, reflects,
    session.syncFromFacade_besides, fun left => reflects_syncFromFacade reachable.posed.coherent,
    fun plain => ?_⟩
  have later : Reachable settings synced := by
    have left : session.syncEditor.2 = synced := congrArg Prod.snd done
    exact left ▸ reachable.step .syncEditor
  obtain ⟨history, known, tidy⟩ := reachable.tidy
  obtain ⟨-, splice, typed⟩ := reachable.typed_syncEditor plain done (Buffer.typed_refl known tidy)
  obtain ⟨left, reloaded, cell, -, reflects⟩ := reachable.posed.reflects_reloadEditor opened
  have read := reachable.syncFromFacade_eq plain
  refine ⟨(later.sound plain).1.inStep.facade, ⟨splice, typed⟩, ⟨left, ?_, cell, reflects⟩, ?_⟩
  · rw [read, reloaded]
  · -- Only one of the two facades has the step.
    intro equal
    rw [read, later.syncFromFacade_eq plain] at equal
    obtain ⟨_, reread⟩ := synced.reloadEditor_eq
    rw [reloaded, reread] at equal
    have revision := typed.revision
    have facade : session.facade = synced.facade := congrArg (Session.facade ∘ Prod.snd) equal
    rw [facade, List.nil_append, List.length_singleton] at revision
    omega

/-- So a cell is queued with what was typed into its editor, and with what it was before if the cells are
read from the facade in between. -/
theorem sync_first_unless_read : ∃ opened session synced : Session, ∃ editor left,
    Session.ofCells [{ id := "a", kind := .code, source := "x = 1" }] {} = .ok opened ∧
    session = (Operation.perform (Operation.perform opened (.openEditor 0)).2
      (.editBuffer fun buffer => buffer.replace 4 5 "2" .burst)).2 ∧
    session.editor = some editor ∧ editor.buffer.text = "x = 2" ∧
    session.syncEditor = (.ok true, synced) ∧ session.queue 0 = synced.queue 0 ∧
    synced.cells.blocks = [⟨.code, "x = 2"⟩] ∧
    session.syncFromFacade = (.ok (), { session with editor := some left }) ∧
    left.buffer.text = "x = 1" ∧ session.cells.blocks = [⟨.code, "x = 1"⟩] := by
  have opened : Reachable {} _ := .cells (rfl :
    Session.ofCells [{ id := "a", kind := .code, source := "x = 1" }] {} = .ok _)
  have session := (opened.step (.openEditor 0)).step
    (.editBuffer fun buffer => buffer.replace 4 5 "2" .burst)
  obtain ⟨synced, done, alike, -, -, -, shown⟩ :=
    session.sync_first (Option.some_get (by decide +kernel)).symm (by decide +kernel) (by decide +kernel)
  obtain ⟨-, -, ⟨left, read, -⟩, -⟩ := shown (by decide)
  obtain rfl := congrArg Prod.snd done
  refine ⟨_, _, _, _, left, rfl, rfl, (Option.some_get (by decide +kernel)).symm, by decide +kernel, done,
    alike.queue 0, by decide +kernel, read, ?_, by decide +kernel⟩
  have reread := congrArg (fun outcome => outcome.2.editor.map (·.buffer.text)) read
  exact Option.some.inj (reread.symm.trans (by decide +kernel))

end Notebook.Session

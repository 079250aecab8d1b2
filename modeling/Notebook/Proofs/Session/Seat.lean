import Notebook.Proofs.Session.Invariant
/-!
# The editor stays on its cell

An open editor belongs to a live cell, and its span is where that cell stands. Whatever makes the
views anew ends by looking the cell up again; what writes the changes of the editor tells it the new
span; and nothing else moves a cell. The same argument carries any agreement between the editor and
the source of its cell that holds whenever the notebook takes over the text of the editor. It asks for
cells in their places and for nothing that the facade says, so it holds under any tag.
-/
namespace Notebook

open Text Layout

namespace Session

variable {session after : Session} {agrees : Editor → Text → Prop}

/-! ## Writing a cell -/

/-- Writing a cell has no fault to find with an identity. -/
theorem writeCell_ne_cellNotFound {index : Nat} {lines : List Text} {grouping : Grouping}
    {fault : Fault} (refused : session.writeCell index lines grouping = (.error fault, after))
    (id : Text) : fault ≠ .cellNotFound id := by
  rintro rfl
  unfold writeCell spanOrRepair at refused
  dsimp only at refused
  split at refused
  next => cases refused
  next =>
    split at refused
    next lost =>
      cases refused
      split at lost
      · cases lost
      · split at lost
        · cases lost
        · split at lost <;> cases lost
    next =>
      split at refused <;> cases refused

/-! ## Sitting on a cell -/

/-- The editor belongs to one of the cells, knows where it stands, and agrees with its source. -/
def Sits (agrees : Editor → Text → Prop) (cells : List Cell) (editor : Editor) : Prop :=
  ∃ above cell below, cells = above ++ cell :: below ∧ cell.id = editor.cell ∧
    editor.span = ⟨depth above, depth above + cell.height - 1⟩ ∧ agrees editor cell.source

/-- If there is an editor, it sits on its cell. -/
def Seated (agrees : Editor → Text → Prop) (session : Session) : Prop :=
  ∀ editor, session.editor = some editor → Sits agrees session.cells.cells editor

/-- An editor agrees with its own text as soon as the notebook holds it. -/
def Settles (agrees : Editor → Text → Prop) : Prop :=
  ∀ (editor : Editor) (span : Span), agrees (editor.markSynced span) editor.buffer.text

theorem seated_of_none (closed : session.editor = none) : Seated agrees session := by
  intro editor opened
  rw [closed] at opened
  cases opened

/-- What is not shown of the cells is no concern of the editor. -/
theorem Seated.of_shown (seated : Seated agrees session) (editor : after.editor = session.editor)
    (same : after.cells.cells.map shown = session.cells.cells.map shown) : Seated agrees after := by
  intro sitting opened
  obtain ⟨above, cell, below, cells, id, span, agree⟩ := seated sitting (editor ▸ opened)
  rw [cells, List.map_append, List.map_cons] at same
  obtain ⟨front, back, cells', above', rest⟩ := List.map_eq_append_iff.mp same
  obtain ⟨other, back, rfl, here, -⟩ := List.map_eq_cons_iff.mp rest
  obtain ⟨id', -, source⟩ := shown_eq here
  refine ⟨front, other, back, cells', id'.trans id, ?_, source ▸ agree⟩
  rw [span, depth_eq_of_shown above', height_eq_of_block (congrArg Prod.snd here)]

/-- Every cell is anchored where it stands under an identity of its own, and if there is an editor, it
sits on its cell. -/
structure Posed (agrees : Editor → Text → Prop) (session : Session) : Prop where
  coherent : session.cells.Coherent
  anchored : session.Anchored
  seated : Seated agrees session

theorem Sound.posed (sound : session.Sound) (seated : Seated agrees session) : Posed agrees session :=
  ⟨sound.coherent, sound.anchored, seated⟩

/-- A change of the facade's history and of what is not shown of the cells moves neither. -/
theorem Posed.of_shown (posed : Posed agrees session) (coherent : after.cells.Coherent)
    (same : after.cells.cells.map shown = session.cells.cells.map shown)
    (text : after.facade.text = session.facade.text)
    (anchors : after.facade.anchors = session.facade.anchors)
    (editor : after.editor = session.editor) : Posed agrees after := by
  refine ⟨coherent, ⟨placed_of_shown same posed.anchored.placed text anchors, ?_⟩,
    posed.seated.of_shown editor same⟩
  rw [depth_eq_of_shown same, Buffer.lineCount, text]
  exact posed.anchored.room

/-- Another editor may take the place of the one there was, if it sits on its cell. -/
theorem Posed.of_editor (posed : Posed agrees session) (cells : after.cells = session.cells)
    (facade : after.facade = session.facade) (seated : Seated agrees after) : Posed agrees after := by
  refine ⟨cells ▸ posed.coherent, ⟨?_, ?_⟩, seated⟩
  · rw [cells, facade]
    exact posed.anchored.placed
  · rw [cells, facade]
    exact posed.anchored.room

/-! ## Looking the cell up again -/

/-- An editor that is brought in line sits on its cell, wherever it was before. -/
theorem Anchored.seated_reloadEditor (settles : Settles agrees) (anchored : session.Anchored) :
    Seated agrees session.reloadEditor := by
  unfold reloadEditor
  split
  next closed => exact seated_of_none closed
  next editor _ =>
    dsimp only
    split
    next => exact seated_of_none rfl
    next cell span current =>
      obtain ⟨found, live, spanned⟩ := Option.bind_eq_some_iff.mp current
      obtain ⟨there, here, rfl, rfl⟩ : ∃ there, spanOfCell? session.facade found = some there ∧
          found = cell ∧ there = span := by simpa using spanned
      have id : found.id = editor.cell := by simpa using List.find?_some live
      obtain ⟨above, below, cells⟩ := List.append_of_mem (List.mem_of_find?_eq_some live)
      -- The anchors are in place, so the cell is found where it stands.
      have stands := anchored.placed.spanOfCell? anchored.room ⟨above, below, cells, rfl⟩
      have place := Option.some.inj (here.symm.trans stands)
      split
      next same =>
        rintro _ ⟨⟩
        exact ⟨above, found, below, cells, id, place, same ▸ settles editor there⟩
      next =>
        rintro _ ⟨⟩
        refine ⟨above, found, below, cells, id, place, ?_⟩
        have settled := settles { editor with
          buffer := (editor.buffer.setText found.source .alone).2 } there
        rwa [Buffer.text_setText] at settled

theorem posed_reloadEditor (settles : Settles agrees) (coherent : session.cells.Coherent)
    (anchored : session.Anchored) : Posed agrees session.reloadEditor := by
  have seated := anchored.seated_reloadEditor settles
  obtain ⟨editor, reloaded⟩ := session.reloadEditor_eq
  rw [reloaded] at seated ⊢
  exact ⟨coherent, ⟨anchored.placed, anchored.room⟩, seated⟩

/-- Whatever was before, all is in its place after the views were made anew. -/
theorem posed_refreshViews (settles : Settles agrees) (coherent : session.cells.Coherent)
    (grouping : Grouping) : Posed agrees (session.refreshViews grouping) := by
  have anchored := anchored_refreshViews coherent.distinct_cells grouping
  unfold refreshViews at anchored ⊢
  refine posed_reloadEditor settles coherent ?_
  obtain ⟨editor, reloaded⟩ := reloadEditor_eq { session with
    facade := place session.cells.cells (session.facade.setLines session.renderedLines grouping).2
    shadow := (Shadow.refresh session.shadow session.cells.cells).2 }
  rw [reloaded] at anchored
  exact ⟨anchored.placed, anchored.room⟩

/-- The check after a change moves nothing: a repair puts all in its place again. -/
theorem Posed.ensured (settles : Settles agrees) (posed : Posed agrees session) :
    Posed agrees session.ensured := by
  unfold Session.ensured
  split
  next => exact posed
  next drift _ =>
    let noted : Session := { session with drifts := drift :: session.drifts }
    have coherent : noted.cells.Coherent := posed.coherent
    exact posed_refreshViews settles coherent .amend

theorem posed_rerender (settles : Settles agrees) (coherent : session.cells.Coherent)
    (grouping : Grouping) : Posed agrees (session.rerender grouping) :=
  (posed_refreshViews settles coherent grouping).ensured settles

/-! ## Changes of the editor are brought in -/

/-- What becomes of a session when the editor's text is written into its cell. -/
def absorbed (session : Session) (editor : Editor) (above below : List Cell) (cell : Cell)
    (anchors : Table Text Nat) : Session :=
  let other : Cell := { cell with source := editor.buffer.text }
  { session.overwritten above below cell other anchors .burst with
    editor := some (editor.markSynced ⟨depth above, depth above + other.height - 1⟩) }

/-- Bringing in what the editor holds is refused and changes nothing, or there is nothing to bring in,
or the cell is written, the editor is told where it stands then, and the views are checked. -/
theorem Posed.syncEditor_cases (posed : Posed agrees session) :
    (∃ fault, session.syncEditor = (.error fault, session) ∧ ∀ id, fault ≠ .cellNotFound id) ∨
    session.syncEditor = (.ok false, session) ∨
    ∃ editor above cell below anchors, session.editor = some editor ∧ cell.id = editor.cell ∧
      session.cells.cells = above ++ cell :: below ∧
      (session.overwritten above below cell { cell with source := editor.buffer.text } anchors
        .burst).Anchored ∧
      session.syncEditor = (.ok true, (session.absorbed editor above below cell anchors).ensured) := by
  unfold syncEditor
  split
  next => exact .inl ⟨_, rfl, nofun⟩
  next editor opened =>
    split
    next => exact .inr (.inl rfl)
    next =>
      obtain ⟨above, cell, below, cells, id, -⟩ := posed.seated editor opened
      rw [← id, CellList.indexOf?_eq posed.coherent.distinct_cells cells]
      dsimp only
      rw [show editor.buffer.lines = Text.lines editor.buffer.text from rfl]
      rcases posed.anchored.writeCell posed.coherent.distinct_cells above.length editor.buffer.text
          .burst with
        ⟨fault, refused⟩ | ⟨above', found, below', anchors, cells', length, -, written, anchored⟩
      · rw [refused]
        exact .inl ⟨fault, rfl, writeCell_ne_cellNotFound refused⟩
      · -- The cell that is written is the one that the editor belongs to.
        obtain ⟨rfl, here⟩ := List.append_inj (cells.symm.trans cells') length.symm
        obtain ⟨rfl, rfl⟩ := List.cons_eq_cons.mp here
        refine .inr (.inr ⟨editor, above, cell, below, anchors, opened, id, cells, anchored, ?_⟩)
        rw [written]
        dsimp only [absorbed]
        rw [show (session.overwritten above below cell { cell with source := editor.buffer.text } anchors
          .burst).editor = some editor from opened, Option.map_some]

/-- In a sound session the check finds nothing to repair. -/
theorem Sound.syncEditor_cases (sound : session.Sound) (seated : Seated agrees session) :
    (∃ fault, session.syncEditor = (.error fault, session) ∧ ∀ id, fault ≠ .cellNotFound id) ∨
    session.syncEditor = (.ok false, session) ∨
    ∃ editor above cell below anchors, session.editor = some editor ∧ cell.id = editor.cell ∧
      session.syncEditor = (.ok true,
        let other : Cell := { cell with source := editor.buffer.text }
        { session.overwritten above below cell other anchors .burst with
          editor := some (editor.markSynced ⟨depth above, depth above + other.height - 1⟩) }) := by
  rcases (sound.posed seated).syncEditor_cases with refused | idle |
    ⟨editor, above, cell, below, anchors, opened, id, cells, anchored, done⟩
  · exact .inl refused
  · exact .inr (.inl idle)
  · have inStep := sound.inStep.overwritten sound.plain cells anchored rfl
    have step : (session.absorbed editor above below cell anchors).InStep :=
      ⟨inStep.facade, inStep.anchors, inStep.shadow⟩
    refine .inr (.inr ⟨editor, above, cell, below, anchors, opened, id, ?_⟩)
    rw [done, step.ensured sound.plain]
    rfl

theorem Posed.syncEditor (settles : Settles agrees) (posed : Posed agrees session) :
    Posed agrees session.syncEditor.2 := by
  rcases posed.syncEditor_cases with ⟨fault, refused, -⟩ | idle |
    ⟨editor, above, cell, below, anchors, -, id, cells, anchored, done⟩
  · rw [refused]
    exact posed
  · rw [idle]
    exact posed
  · rw [done]
    refine Posed.ensured settles ⟨coherent_overwritten posed.coherent cells _ anchors .burst,
      ⟨anchored.placed, anchored.room⟩, ?_⟩
    rintro _ ⟨⟩
    exact ⟨above, { cell with source := editor.buffer.text }, below, rfl, id, rfl, settles editor _⟩

theorem Posed.flushed {α : Type} (settles : Settles agrees) (posed : Posed agrees session)
    {next : Session → Outcome α}
    (onward : ∀ middle : Session, Posed agrees middle → Posed agrees (next middle).2) :
    Posed agrees (session.flushed next).2 := by
  have synced := posed.syncEditor settles
  unfold Session.flushed
  split
  next =>
    split
    next fault middle refused =>
      rw [refused] at synced
      exact synced
    next flag middle done =>
      rw [done] at synced
      exact onward middle synced
  next => exact onward session posed

/-! ## Every operation -/

theorem Posed.restructured {α : Type} (settles : Settles agrees) (posed : Posed agrees session)
    {change : CellList → Except Fault (α × CellList)}
    (fits : ∀ list result after, list.Coherent → change list = .ok (result, after) → after.Coherent) :
    Posed agrees (session.restructured change).2 := by
  refine posed.flushed settles fun middle posed => ?_
  split
  next => exact posed
  next changed => exact posed_rerender settles (fits _ _ _ posed.coherent changed) .alone

theorem Posed.replaceSource (settles : Settles agrees) (posed : Posed agrees session) (index : Nat)
    (source : Text) : Posed agrees (session.replaceSource index (Text.lines source)).2 := by
  unfold Session.replaceSource
  rcases posed.anchored.writeCell posed.coherent.distinct_cells index source .alone with
    ⟨fault, refused⟩ | ⟨above, cell, below, anchors, cells, -, -, written, anchored⟩
  · rw [refused]
    exact posed
  · rw [written]
    have coherent := coherent_overwritten posed.coherent cells source anchors .alone
    exact (posed_reloadEditor settles coherent anchored).ensured settles

theorem Posed.editCell (settles : Settles agrees) (posed : Posed agrees session) (id : Text)
    (expected : Span) (edits : List Edit) :
    Posed agrees (session.editCell id expected edits).2 := by
  refine posed.flushed settles fun middle posed => ?_
  dsimp only
  split
  next => exact posed
  next =>
    split
    next =>
      split
      next => exact posed
      next =>
        split
        next => exact posed
        next =>
          split
          next => exact posed
          next => exact posed.replaceSource settles _ _
    next => exact posed

theorem Posed.editFacade (settles : Settles agrees) (posed : Posed agrees session)
    (edits : List Edit) (grouping : Grouping) :
    Posed agrees (session.editFacade edits grouping).2 := by
  refine posed.flushed settles fun middle posed => ?_
  dsimp only
  split
  next => exact posed
  next =>
    split
    next => exact posed
    next blocks _ =>
      split
      next => exact posed
      next => exact posed_rerender settles (posed.coherent.reconcile blocks) .amend

/-- Reading the cells from the facade ends by making the views anew, whether they can be read or not. -/
theorem posed_syncFromFacade (settles : Settles agrees) (coherent : session.cells.Coherent) :
    Posed agrees session.syncFromFacade.2 := by
  unfold Session.syncFromFacade
  split
  next => exact posed_refreshViews settles coherent .amend
  next blocks _ => exact posed_rerender settles (coherent.reconcile blocks) .amend

theorem Posed.travel (settles : Settles agrees) (posed : Posed agrees session)
    {move : Buffer → Bool × Buffer}
    (idle : ∀ buffer : Buffer, (move buffer).1 = false ∨
      (move buffer).2.revision = buffer.revision → (move buffer).2.text = buffer.text ∧
        (move buffer).2.anchors = buffer.anchors) :
    Posed agrees (session.travel move).2 := by
  refine posed.flushed settles fun middle posed => ?_
  dsimp only
  split
  next still =>
    -- Only the history of the facade may have changed.
    obtain ⟨text, anchors⟩ := idle middle.facade (by simpa using still)
    exact posed.of_shown posed.coherent rfl text anchors rfl
  next =>
    let moved : Session := { middle with facade := (move middle.facade).2 }
    have read : Posed agrees moved.syncFromFacade.2 := posed_syncFromFacade settles posed.coherent
    split
    next _ known => rwa [known] at read
    next _ known => rwa [known] at read

theorem Posed.commitEditor (settles : Settles agrees) (posed : Posed agrees session) :
    Posed agrees session.commitEditor.2 :=
  posed.flushed settles fun _ posed => posed.of_shown posed.coherent rfl rfl rfl rfl

theorem Posed.closeEditor (settles : Settles agrees) (posed : Posed agrees session) :
    Posed agrees session.closeEditor := by
  unfold Session.closeEditor
  split
  next => exact posed
  next => exact (posed.commitEditor settles).of_editor rfl rfl (seated_of_none rfl)

theorem Posed.openEditor (settles : Settles agrees) (posed : Posed agrees session) (index : Nat) :
    Posed agrees (session.openEditor index).2 := by
  have closed := posed.closeEditor settles
  unfold Session.openEditor
  rcases closed.anchored.spanOrRepair index with
    ⟨-, missing⟩ | ⟨above, cell, below, cells, rfl, found⟩
  · rw [missing]
    exact closed
  · rw [found]
    dsimp only
    rw [CellList.get?_eq cells]
    refine closed.of_editor rfl rfl ?_
    rintro _ ⟨⟩
    -- A new buffer is at the revision that the editor starts from.
    let place : Span := ⟨depth above, depth above + cell.height - 1⟩
    exact ⟨above, cell, below, cells, rfl, rfl,
      settles (Editor.start cell.id _ place cell.source) place⟩

/-! ## Executions -/

theorem editor_applyEvent (session : Session) (event : Event) :
    (session.applyEvent event).2.editor = session.editor := by
  obtain ⟨cells, executions, namespaces, applied⟩ := session.applyEvent_eq event
  rw [applied]

theorem Posed.queue (settles : Settles agrees) (posed : Posed agrees session) (index : Nat) :
    Posed agrees (session.queue index).2 := by
  refine posed.flushed settles fun middle posed => ?_
  split
  next => exact posed
  next =>
    split
    next => exact posed
    next =>
      let change (cell : Cell) : Cell := { cell with outputs := [], progress := .queued }
      have same := middle.unshown_modifyAt index (fun _ => rfl : ∀ cell, shown (change cell) = _)
      exact posed.of_shown (same.coherent posed.coherent) same.cells rfl rfl rfl

/-- Every operation leaves all in its place, if changes of the editor's buffer leave it agreed. -/
theorem Posed.perform (settles : Settles agrees) (posed : Posed agrees session)
    (operation : Operation)
    (kept : ∀ change, operation = .editBuffer change → ∀ (editor : Editor) (source : Text),
      agrees editor source → agrees { editor with buffer := change editor.buffer } source) :
    Posed agrees (operation.perform session).2 := by
  cases operation with
  | insertCell index kind source =>
    have inserted : Posed agrees (session.insertCell index kind source).2 := by
      refine posed.restructured settles fun list id after coherent inserted => ?_
      split at inserted
      · cases inserted
      · exact coherent.insert inserted
    exact inserted
  | deleteCell index =>
    have removed : Posed agrees (session.deleteCell index).2 :=
      posed.restructured settles fun _ _ _ coherent removed => coherent.remove removed
    exact removed
  | moveCell source target =>
    exact posed.restructured settles fun _ _ _ coherent moved => coherent.move (ok_of_map_unit moved)
  | setKind index kind =>
    exact posed.restructured settles fun _ _ _ coherent changed =>
      coherent.setKind (ok_of_map_unit changed)
  | setSource index source =>
    exact posed.flushed settles fun _ posed => posed.replaceSource settles index source
  | editCell id expected edits => exact posed.editCell settles id expected edits
  | editFacade edits grouping => exact posed.editFacade settles edits grouping
  | openEditor index => exact posed.openEditor settles index
  | closeEditor => exact posed.closeEditor settles
  | commitEditor => exact posed.commitEditor settles
  | syncEditor => exact posed.syncEditor settles
  | editBuffer change =>
    -- The cell and the span stay, whatever becomes of the buffer.
    refine posed.of_editor rfl rfl fun changed opened => ?_
    obtain ⟨editor, known, rfl⟩ := Option.map_eq_some_iff.mp opened
    obtain ⟨above, cell, below, cells, id, span, agree⟩ := posed.seated editor known
    exact ⟨above, cell, below, cells, id, span, kept change rfl editor cell.source agree⟩
  | undo => exact posed.travel settles fun _ => Buffer.undo_idle
  | redo => exact posed.travel settles fun _ => Buffer.redo_idle
  | syncFromFacade => exact posed_syncFromFacade settles posed.coherent
  | repair => exact posed_refreshViews settles posed.coherent .amend
  | queue index => exact posed.queue settles index
  | applyEvent event =>
    have same := session.unshown_applyEvent event
    exact posed.of_shown (same.coherent posed.coherent) same.cells (congrArg Buffer.text same.facade)
      (congrArg Buffer.anchors same.facade) (session.editor_applyEvent event)
  | trackShadow on => exact posed.of_shown posed.coherent rfl rfl rfl rfl
  | takeShadowSplices => exact posed.of_shown posed.coherent rfl rfl rfl rfl

theorem Sound.seated_perform (settles : Settles agrees) (sound : session.Sound)
    (seated : Seated agrees session) (operation : Operation)
    (kept : ∀ change, operation = .editBuffer change → ∀ (editor : Editor) (source : Text),
      agrees editor source → agrees { editor with buffer := change editor.buffer } source) :
    Seated agrees (operation.perform session).2 :=
  ((sound.posed seated).perform settles operation kept).seated

/-! ## Runs -/

theorem editor_of_build {file : File} {cells : List Cell} {settings : Settings}
    (built : build file cells settings = .ok session) : session.editor = none := by
  obtain ⟨-, rfl⟩ := build_eq_ok built
  rfl

theorem editor_of_ofText {text : Text} {settings : Settings}
    (opened : ofText text settings = .ok session) : session.editor = none := by
  obtain ⟨file, cells, built⟩ := build_of_ofText opened
  exact editor_of_build built

/-- Of a notebook that is opened, every cell is in its place. -/
theorem posed_build {file : File} {cells : List Cell} {settings : Settings}
    (built : build file cells settings = .ok session) : Posed agrees session := by
  have closed := editor_of_build built
  obtain ⟨-, rfl⟩ := build_eq_ok built
  have coherent := CellList.coherent_ofCells cells
  let text := Markup.render settings.tag (CellList.ofCells cells).blocks
  have room : depth (CellList.ofCells cells).cells ≤
      ((Buffer.ofText text).withHistory settings.maxUndo).lineCount := depth_le_lineCount rfl
  refine ⟨coherent, ⟨placed_of_room coherent.distinct_cells room, ?_⟩, seated_of_none closed⟩
  rw [Buffer.lineCount, text_place]
  exact room

/-- Whatever was done to a notebook, every cell is in its place, and so is the editor. -/
theorem Reachable.posed {settings : Settings} (reachable : Reachable settings session) :
    Posed (fun _ _ => True) session := by
  induction reachable using Reachable.from_build with
  | built _ built => exact posed_build built
  | step _ operation ih => exact ih.perform (fun _ _ => trivial) operation fun _ _ _ _ _ => trivial

/-- However the buffer of the editor was changed, an editor sits on its cell. -/
theorem Reachable.seated {settings : Settings} (reachable : Reachable settings session)
    (plain : IsLine settings.tag) : Seated (fun _ _ => True) session := by
  induction reachable with
  | cells opened => exact seated_of_none (editor_of_build opened)
  | text opened => exact seated_of_none (editor_of_ofText opened)
  | step before operation ih =>
    obtain ⟨sound, -⟩ := before.sound plain
    exact sound.seated_perform (fun _ _ => trivial) ih operation fun _ _ _ _ _ => trivial

end Session

end Notebook

import Notebook.Proofs.Buffer.Undo
import Notebook.Proofs.CellList.Reconcile
import Notebook.Proofs.Session.Views
import Notebook.Session.Change
/-!
# Sound sessions

In a sound session the views are in step, every source can be rendered, identities are kept apart,
and nothing was ever repaired. Operations are made of few kinds of moves from one sound session to
another: something that no view shows changes, all views are made anew from other cells, or one cell
is written.
-/
namespace Notebook

open Text Layout

namespace Buffer

/-- The buffer keeps a history of so many steps, and its groups are numbered in order. -/
def Keeps (limit : Nat) (buffer : Buffer) : Prop :=
  ∃ history, buffer.history = some history ∧ history.Numbered ∧ history.limit = max limit 1

variable {limit : Nat} {buffer : Buffer}

theorem Keeps.of_history {other : Buffer} (keeps : buffer.Keeps limit)
    (same : other.history = buffer.history) : other.Keeps limit := by
  rwa [Keeps, same]

theorem Keeps.replace (keeps : buffer.Keeps limit) (start stop : Nat) (inserted : Text)
    (grouping : Grouping) : (buffer.replace start stop inserted grouping).Keeps limit := by
  obtain ⟨history, known, numbered, limit⟩ := keeps
  exact ⟨_, congrArg (Option.map _) known, numbered.record _ grouping, limit⟩

theorem Keeps.replaceLines (keeps : buffer.Keeps limit) (start stop : Nat) (new : List Text)
    (grouping : Grouping) : (buffer.replaceLines start stop new grouping).Keeps limit :=
  replaceLines_keeps (Keeps limit) keeps (keeps.replace · · · grouping) start stop new

theorem Keeps.setLines (keeps : buffer.Keeps limit) (new : List Text) (grouping : Grouping) :
    (buffer.setLines new grouping).2.Keeps limit :=
  setLines_keeps (Keeps limit) keeps (keeps.replace · · · grouping) new

theorem Keeps.endGroup (keeps : buffer.Keeps limit) : buffer.endGroup.Keeps limit := by
  obtain ⟨history, known, numbered, limit⟩ := keeps
  exact ⟨_, congrArg (Option.map _) known, numbered.endGroup, limit⟩

theorem Keeps.undo (keeps : buffer.Keeps limit) : buffer.undo.2.Keeps limit := by
  obtain ⟨history, known, numbered, limit⟩ := keeps
  simp only [Buffer.undo, known]
  split
  · exact ⟨_, rfl, numbered.endGroup, limit⟩
  · exact ⟨_, rfl, numbered.afterUndo, limit⟩

theorem Keeps.redo (keeps : buffer.Keeps limit) : buffer.redo.2.Keeps limit := by
  obtain ⟨history, known, numbered, limit⟩ := keeps
  simp only [Buffer.redo, known]
  split
  · exact ⟨_, rfl, numbered.endGroup, limit⟩
  · exact ⟨_, rfl, numbered.afterRedo, limit⟩

theorem Keeps.applyAll (keeps : buffer.Keeps limit) (edits : List Edit) (grouping : Grouping) :
    (Edit.applyAll edits grouping buffer).Keeps limit := by
  unfold Edit.applyAll
  generalize Edit.bottomUp edits = row
  induction row generalizing buffer with
  | nil => exact keeps
  | cons edit rest ih => exact ih (keeps.replace _ _ _ grouping)

/-- Undo takes something back, or it changes nothing but the history. -/
theorem undo_idle (still : buffer.undo.1 = false ∨ buffer.undo.2.revision = buffer.revision) :
    buffer.undo.2.text = buffer.text ∧ buffer.undo.2.anchors = buffer.anchors :=
  Direction.back.idle still

/-- Redo makes something again, or it changes nothing but the history. -/
theorem redo_idle (still : buffer.redo.1 = false ∨ buffer.redo.2.revision = buffer.revision) :
    buffer.redo.2.text = buffer.text ∧ buffer.redo.2.anchors = buffer.anchors :=
  Direction.forth.idle still

end Buffer

namespace Session

structure Sound (session : Session) : Prop where
  plain : IsLine session.settings.tag
  coherent : session.cells.Coherent
  free : ∀ block ∈ session.cells.blocks,
    Markup.checkSource session.settings.tag block.source = .ok ()
  inStep : session.InStep
  keeps : session.facade.Keeps session.settings.maxUndo
  steady : session.drifts = []

/-- A session became a sound one under the same settings. -/
structure Move (before after : Session) : Prop where
  sound : after.Sound
  settings : after.settings = before.settings

variable {session : Session}

theorem Sound.refl (sound : session.Sound) : Move session session := ⟨sound, rfl⟩

theorem Sound.anchored (sound : session.Sound) : session.Anchored :=
  sound.inStep.anchored sound.plain

/-! ## What no view shows -/

/-- What the views show of a cell, and the name of its anchor. -/
def shown (cell : Cell) : Text × Block := (cell.id, cell.block)

theorem shown_eq {cell other : Cell} (same : shown cell = shown other) :
    cell.id = other.id ∧ cell.kind = other.kind ∧ cell.source = other.source := by
  simpa [shown, Cell.block] using same

theorem height_eq_of_block {cell other : Cell} (same : cell.block = other.block) :
    cell.height = other.height := by
  have source : cell.source = other.source := congrArg Block.source same
  rw [Cell.height, Cell.height, Cell.lineCount, Cell.lineCount, source]

/-- The shadow is made of what the rendered text shows. -/
theorem shadowLines_eq_of_blocks {cells others : List Cell}
    (same : others.map Cell.block = cells.map Cell.block) :
    Shadow.lines others = Shadow.lines cells := by
  have view (row : List Cell) : Shadow.lines row =
      Markup.stacked ((row.map Cell.block).map fun block =>
        [] :: (Shadow.contentLines { id := [], kind := block.kind, source := block.source } ++
          [[]])) := by
    rw [List.map_map]
    rfl
  rw [view, view, same]

section Shown

variable {cells others : List Cell} (same : others.map shown = cells.map shown)

include same

theorem blocks_eq_of_shown : others.map Cell.block = cells.map Cell.block := by
  have snd := congrArg (List.map Prod.snd) same
  rwa [List.map_map, List.map_map] at snd

theorem depth_eq_of_shown : depth others = depth cells := by
  have view (row : List Cell) : depth row =
      ((row.map shown).map fun entry => 2 + Text.lineCount entry.2.source + 1).sum := by
    rw [List.map_map]
    rfl
  rw [view, view, same]

omit same in
/-- Where a cell stands is decided by what is shown. -/
theorem standsAt_of_shown (same : others.map shown = cells.map shown) {cell : Cell} {line : Nat}
    (stands : StandsAt others cell line) : ∃ other, StandsAt cells other line ∧ other.id = cell.id := by
  obtain ⟨above, below, rfl, rfl⟩ := stands
  rw [List.map_append, List.map_cons] at same
  obtain ⟨front, back, rfl, above', rest⟩ := List.map_eq_append_iff.mp same.symm
  obtain ⟨other, back, rfl, here, -⟩ := List.map_eq_cons_iff.mp rest
  exact ⟨other, ⟨front, back, rfl, (depth_eq_of_shown above').symm⟩, (shown_eq here).1⟩

/-- Anchors that are in place for some cells are so for any that show the same. -/
theorem placed_of_shown {facade other : Buffer} (placed : Placed cells facade)
    (text : other.text = facade.text) (anchors : other.anchors = facade.anchors) :
    Placed others other := by
  intro cell line stands
  obtain ⟨former, there, id⟩ := standsAt_of_shown same stands
  obtain ⟨offset, below⟩ := placed former line there
  exact ⟨by rw [anchors, text, ← id, offset], by rwa [Buffer.lineCount, text]⟩

end Shown

/-- Changing what no view shows is a move. -/
theorem Sound.aside (sound : session.Sound) {after : Session}
    (settings : after.settings = session.settings) (coherent : after.cells.Coherent)
    (same : after.cells.cells.map shown = session.cells.cells.map shown)
    (text : after.facade.text = session.facade.text)
    (anchors : after.facade.anchors = session.facade.anchors)
    (keeps : after.facade.Keeps session.settings.maxUndo) (shadow : after.shadow = session.shadow)
    (drifts : after.drifts = session.drifts) : Move session after := by
  -- The views are made of what is shown and of nothing else.
  have blocks : after.cells.blocks = session.cells.blocks := blocks_eq_of_shown same
  have rendered : after.renderedLines = session.renderedLines := by
    rw [renderedLines, renderedLines, settings, blocks]
  have inStep : after.InStep := by
    refine ⟨?_, placed_of_shown same sound.inStep.anchors text anchors, ?_⟩
    · rw [rendered, Buffer.lines, text]
      exact sound.inStep.facade
    · rw [shadow, shadowLines_eq_of_blocks blocks]
      exact sound.inStep.shadow
  refine ⟨⟨settings ▸ sound.plain, coherent, ?_, inStep, settings ▸ keeps, drifts ▸ sound.steady⟩,
    settings⟩
  rw [settings, blocks]
  exact sound.free

/-- A change that concerns neither the cells nor a view is a move. -/
theorem Sound.unseen (sound : session.Sound) {after : Session}
    (settings : after.settings = session.settings) (cells : after.cells = session.cells)
    (facade : after.facade = session.facade) (shadow : after.shadow = session.shadow)
    (drifts : after.drifts = session.drifts) : Move session after :=
  sound.aside settings (cells ▸ sound.coherent) (by rw [cells]) (by rw [facade]) (by rw [facade])
    (facade ▸ sound.keeps) shadow drifts

theorem Move.unseen {before : Session} (move : Move before session) {after : Session}
    (settings : after.settings = session.settings) (cells : after.cells = session.cells)
    (facade : after.facade = session.facade) (shadow : after.shadow = session.shadow)
    (drifts : after.drifts = session.drifts) : Move before after :=
  ⟨(move.sound.unseen settings cells facade shadow drifts).sound, settings.trans move.settings⟩

theorem Move.reloadEditor {before : Session} (move : Move before session) :
    Move before session.reloadEditor := by
  obtain ⟨editor, reloaded⟩ := session.reloadEditor_eq
  rw [reloaded]
  exact move.unseen rfl rfl rfl rfl rfl

theorem Move.ensured {before : Session} (move : Move before session) :
    Move before session.ensured := by
  rwa [move.sound.inStep.ensured move.sound.plain]

/-! ## All views anew -/

/-- Making all views from other cells is a move, whatever became of the facade before. -/
theorem Sound.refreshed (sound : session.Sound) {facade : Buffer} {cells : CellList}
    (keeps : facade.Keeps session.settings.maxUndo) (coherent : cells.Coherent)
    (free : ∀ block ∈ cells.blocks,
      Markup.checkSource session.settings.tag block.source = .ok ()) (grouping : Grouping) :
    Move session ({ session with facade, cells }.refreshViews grouping) := by
  let changed : Session := { session with facade, cells }
  have plain : IsLine changed.settings.tag := sound.plain
  have inStep : (changed.refreshViews grouping).InStep :=
    inStep_refreshViews plain coherent.distinct_cells grouping
  obtain ⟨editor, refreshed⟩ := changed.refreshViews_eq grouping
  change Move session (changed.refreshViews grouping)
  rw [refreshed] at inStep ⊢
  refine ⟨⟨sound.plain, coherent, free, inStep, ?_, sound.steady⟩, rfl⟩
  exact (keeps.setLines _ grouping).of_history (history_place _ _)

/-! ## One cell -/

/-- Writing a cell leaves every identity with its cell. -/
theorem coherent_overwritten (coherent : session.cells.Coherent) {above below : List Cell} {cell : Cell}
    (cells : session.cells.cells = above ++ cell :: below) (source : Text)
    (anchors : Table Text Nat) (grouping : Grouping) :
    (session.overwritten above below cell { cell with source } anchors grouping).cells.Coherent := by
  refine coherent.of_perm (List.Perm.append_right _ ?_) rfl
  rw [cells]
  simp [Session.overwritten]

theorem Sound.overwritten (sound : session.Sound) {above below : List Cell} {cell : Cell}
    (cells : session.cells.cells = above ++ cell :: below) {source : Text}
    (checked : Markup.checkSource session.settings.tag source = .ok ()) {anchors : Table Text Nat}
    {grouping : Grouping} (inStep : (session.overwritten above below cell { cell with source }
      anchors grouping).InStep) :
    Move session (session.overwritten above below cell { cell with source } anchors grouping) := by
  refine ⟨⟨sound.plain, coherent_overwritten sound.coherent cells _ _ _, ?_, inStep, ?_, sound.steady⟩,
    rfl⟩
  · have free := sound.free
    simp only [CellList.blocks, cells, List.map_append, List.map_cons, List.forall_mem_append,
      List.forall_mem_cons] at free
    simp only [Session.overwritten, CellList.blocks, List.map_append, List.map_cons,
      List.forall_mem_append, List.forall_mem_cons]
    exact ⟨free.1, checked, free.2.2⟩
  · exact (sound.keeps.replaceLines _ _ _ grouping).of_history rfl

/-- Writing a cell is a move, even if it is refused. -/
theorem Sound.written (sound : session.Sound) (index : Nat) (source : Text) (grouping : Grouping) :
    Move session (session.writeCell index (Text.lines source) grouping).2 := by
  rcases sound.inStep.writeCell sound.plain sound.coherent.distinct_cells index source grouping
    with ⟨fault, refused⟩ | ⟨above, cell, below, anchors, span, cells, -, checked, done, inStep⟩
  · rw [refused]
    exact sound.refl
  · rw [done]
    exact sound.overwritten cells checked inStep

/-- A source that can be rendered is written into all views, and the editor is brought in line. -/
theorem Sound.replaceSource_ok (sound : session.Sound) {above below : List Cell} {cell : Cell}
    (cells : session.cells.cells = above ++ cell :: below) {source : Text}
    (checked : Markup.checkSource session.settings.tag source = .ok ()) :
    ∃ anchors, session.replaceSource above.length (Text.lines source) = (.ok (),
      (session.overwritten above below cell { cell with source } anchors .alone).reloadEditor) := by
  obtain ⟨anchors, span, written, inStep⟩ :=
    sound.inStep.writeCell_ok sound.plain sound.coherent.distinct_cells cells checked .alone
  have move := (sound.overwritten cells checked inStep).reloadEditor
  refine ⟨anchors, ?_⟩
  rw [replaceSource, written]
  exact Prod.ext rfl (move.sound.inStep.ensured move.sound.plain)

/-- A step that writes one cell is refused and changes nothing, or it writes the cell into all views
and brings the editor in line. -/
theorem Sound.replaceSource_cases (sound : session.Sound) (index : Nat) (source : Text) :
    (∃ fault, session.replaceSource index (Text.lines source) = (.error fault, session)) ∨
    ∃ above cell below anchors editor, let other : Cell := { cell with source }
      session.cells.cells = above ++ cell :: below ∧ above.length = index ∧
      Markup.checkSource session.settings.tag source = .ok () ∧
      session.replaceSource index (Text.lines source) = (.ok (),
        { session.overwritten above below cell other anchors .alone with editor }) := by
  rcases sound.inStep.writeCell sound.plain sound.coherent.distinct_cells index source .alone
    with ⟨fault, refused⟩ | ⟨above, cell, below, -, -, cells, rfl, checked, -, -⟩
  · rw [replaceSource, refused]
    exact .inl ⟨fault, rfl⟩
  · obtain ⟨anchors, replaced⟩ := sound.replaceSource_ok cells checked
    obtain ⟨editor, reloaded⟩ := (session.overwritten above below cell { cell with source } anchors
      .alone).reloadEditor_eq
    exact .inr ⟨above, cell, below, anchors, editor, cells, rfl, checked, reloaded ▸ replaced⟩

/-- The facade of a sound session is read as its cells. -/
theorem Sound.reads (sound : session.Sound) :
    Markup.parseLines session.settings.tag session.facade.lines = .ok session.cells.blocks := by
  rw [sound.inStep.facade]
  refine Markup.parseLines_renderLines fun block member => ?_
  rw [← Markup.checkSource_iff]
  exact sound.free block member

end Session

end Notebook

import Notebook.Proofs.Session.Course
import Notebook.Proofs.Session.Seat
/-!
# The editor shows its cell

An editor whose buffer was only changed by the buffer's own operations knows by the revision whether
it still holds the source of its cell. If it does, its lines are lines of the facade and of the shadow,
lower by its offset.
-/
namespace Notebook

open Text Layout

/-- A change of the editor's buffer is one that the buffer itself knows how to make. -/
def Operation.IsOrderly : Operation → Prop
  | editBuffer change => ∃ action : Buffer.Action, ∀ buffer, change buffer = action.perform buffer
  | _ => True

/-- A session is reached in good order if the buffer of the editor was only ever changed by its own
operations, and never exchanged for another one. -/
inductive Session.Orderly (settings : Settings) : Session → Prop
  | cells {cells : List Cell} {session : Session} :
      Session.ofCells cells settings = .ok session → Orderly settings session
  | text {text : Text} {session : Session} :
      Session.ofText text settings = .ok session → Orderly settings session
  | step {session : Session} : Orderly settings session → (operation : Operation) →
      operation.IsOrderly → Orderly settings (operation.perform session).2

/-- Orderly operations lead from one session to another. -/
inductive Session.Steered (before : Session) : Session → Prop
  | still : Steered before before
  | step {after : Session} : Steered before after → (operation : Operation) → operation.IsOrderly →
      Steered before (operation.perform after).2

/-- The editor holds a source, unless its buffer went on to a later revision. -/
structure Editor.Holds (editor : Editor) (source : Text) : Prop where
  synced : editor.synced ≤ editor.buffer.revision
  text : editor.buffer.revision = editor.synced → editor.buffer.text = source

theorem Editor.Holds.revised {editor : Editor} {source : Text} (holds : editor.Holds source)
    {buffer : Buffer} (revised : Buffer.Revised editor.buffer buffer) :
    Editor.Holds { editor with buffer } source := by
  refine ⟨Nat.le_trans holds.synced revised.revision, fun clean => ?_⟩
  have clean : buffer.revision = editor.synced := clean
  -- The buffer is back at the revision that the notebook knows, so it never left it.
  have before : editor.buffer.revision = editor.synced :=
    Nat.le_antisymm (clean ▸ revised.revision) holds.synced
  exact (revised.text (clean.trans before.symm)).trans (holds.text before)

theorem Editor.settles_holds : Session.Settles Editor.Holds :=
  fun _ _ => ⟨Nat.le_refl _, fun _ => rfl⟩

/-- What the buffer does by itself leaves the editor with what it holds. -/
theorem Operation.IsOrderly.holds {operation : Operation} (fair : operation.IsOrderly)
    (change : Buffer → Buffer) (same : operation = .editBuffer change) (editor : Editor) (source : Text)
    (holds : editor.Holds source) : Editor.Holds { editor with buffer := change editor.buffer } source := by
  subst same
  obtain ⟨action, known⟩ := fair
  rw [known]
  exact holds.revised (editor.buffer.revised_perform action)

namespace Session

variable {session : Session} {settings : Settings}

theorem Orderly.reachable (orderly : Orderly settings session) : Reachable settings session := by
  induction orderly with
  | cells opened => exact .cells opened
  | text opened => exact .text opened
  | step _ operation _ ih => exact ih.step operation

theorem Steered.one (session : Session) (operation : Operation) (fair : operation.IsOrderly) :
    session.Steered (operation.perform session).2 :=
  Steered.still.step operation fair

theorem Steered.leads {before : Session} (steered : before.Steered session) : before.Leads session := by
  induction steered with
  | still => exact .still
  | step _ operation _ ih => exact ih.step operation

theorem Orderly.steered {before : Session} (orderly : Orderly settings before)
    (steered : before.Steered session) : Orderly settings session := by
  induction steered with
  | still => exact orderly
  | step _ operation fair ih => exact ih.step operation fair

theorem Orderly.seated (orderly : Orderly settings session) (plain : IsLine settings.tag) :
    Seated Editor.Holds session := by
  induction orderly with
  | cells opened => exact seated_of_none (editor_of_build opened)
  | text opened => exact seated_of_none (editor_of_ofText opened)
  | step before operation fair ih =>
    obtain ⟨sound, -⟩ := before.reachable.sound plain
    exact sound.seated_perform Editor.settles_holds ih operation fair.holds

/-- Under any tag, every cell is in its place, and the editor holds what it is known to hold. -/
theorem Orderly.posed (orderly : Orderly settings session) : Posed Editor.Holds session := by
  induction orderly with
  | cells opened => exact posed_build opened
  | text opened =>
    obtain ⟨file, cells, built⟩ := build_of_ofText opened
    exact posed_build built
  | step _ operation fair ih => exact ih.perform Editor.settles_holds operation fair.holds

/-! ## What the views show where the editor is -/

/-- The content lines of a cell stand in the facade below its start marker, and in the shadow on the
same lines if they are code. -/
theorem InStep.content_lines (inStep : session.InStep) (plain : IsLine session.settings.tag)
    {above below : List Cell} {cell : Cell} (cells : session.cells.cells = above ++ cell :: below)
    {l : Nat} {line : Text} (here : cell.lines[l]? = some line) :
    session.facade.lines[l + (depth above + 1)]? = some line ∧
      session.shadow.lines[l + (depth above + 1)]? =
        some (if cell.kind.isCode then line else []) := by
  have inside : l < cell.lineCount := by
    obtain ⟨bound, -⟩ := List.getElem?_eq_some_iff.mp here
    rwa [Cell.lines, length_lines] at bound
  have onPage {face : Face} (regular : face.Regular) :
      (face.page (above ++ cell :: below))[l + (depth above + 1)]? = (face.content cell)[l]? := by
    rw [← content_page regular, List.getElem?_drop, List.getElem?_take_of_lt (by omega),
      Nat.add_comm]
  constructor
  · rw [inStep.facade, renderedLines_eq, cells, onPage (regular_facadeFace plain)]
    exact here
  · rw [inStep.shadow, cells, ← page_shadowFace, onPage regular_shadowFace]
    change (Shadow.contentLines cell)[l]? = _
    unfold Shadow.contentLines
    split
    · exact here
    · rw [List.getElem?_replicate, if_pos inside]

/-- Whatever was done since the notebook was opened, an open editor belongs to a live cell, and its
span is where that cell stands, even while the editor is dirty. So what it holds is never dropped for
want of a cell. If its buffer was changed by its own operations only, an editor that is not dirty
holds the source; then each of its lines is the line of the facade that stands lower by the offset of
the editor, and the shadow has the same line there if the cell is code, and an empty one otherwise. -/
theorem Reachable.editor_in_place (reachable : Reachable settings session)
    (plain : '\n' ∉ settings.tag) {editor : Editor} (opened : session.editor = some editor) :
    ∃ index cell, session.cells.indexOf? editor.cell = some index ∧
      session.cells.get? index = some cell ∧ cell.id = editor.cell ∧
      session.spanOf? index = some editor.span ∧
      (∀ id, session.syncEditor.1 ≠ .error (.cellNotFound id)) ∧
      (Orderly settings session → editor.isDirty = false → editor.buffer.text = cell.source ∧
        ∀ l line, editor.buffer.lines[l]? = some line →
          session.facade.lines[l + editor.lineOffset]? = some line ∧
          session.shadow.lines[l + editor.lineOffset]? =
            some (if cell.kind.isCode then line else [])) := by
  obtain ⟨sound, -⟩ := reachable.sound plain
  have seated := reachable.seated plain
  obtain ⟨above, cell, below, cells, id, span, -⟩ := seated editor opened
  have found := CellList.indexOf?_eq sound.coherent.distinct_cells cells
  have here := CellList.get?_eq cells
  refine ⟨above.length, cell, id ▸ found, here, id, ?_, ?_, ?_⟩
  · rw [span]
    exact sound.inStep.spanOf? sound.plain cells
  · intro lost refused
    rcases sound.syncEditor_cases seated with ⟨fault, known, other⟩ | known |
      ⟨_, _, _, _, _, _, _, known⟩
    · rw [known] at refused
      exact other lost (Except.error.inj refused)
    · rw [known] at refused
      cases refused
    · rw [known] at refused
      cases refused
  · intro orderly clean
    -- There is one cell of that identity, so it is the one whose source the editor holds.
    obtain ⟨above', other, below', cells', id', -, holds⟩ := orderly.seated plain editor opened
    have found' := CellList.indexOf?_eq sound.coherent.distinct_cells cells'
    rw [id', ← id, found] at found'
    obtain rfl : cell = other := by
      have here' := CellList.get?_eq cells'
      rw [← Option.some.inj found', here] at here'
      exact Option.some.inj here'
    have text := holds.text (by simpa [Editor.isDirty] using clean)
    refine ⟨text, fun l line member => ?_⟩
    rw [Editor.lineOffset, span]
    apply sound.inStep.content_lines sound.plain cells
    rwa [Cell.lines, ← text]

/-- So it is with an editor whose change was brought in by an insertion above its cell. -/
theorem editor_in_place_after_insertion : ∃ opened session editor,
    Session.ofCells [{ id := "a", kind := .code, source := "x = 1" },
      { id := "b", kind := .markdown, source := "some\nprose" }] {} = .ok opened ∧
    session = (Operation.perform (Operation.perform (Operation.perform opened (.openEditor 1)).2
      (.editBuffer fun buffer => buffer.replace 0 4 "more" .burst)).2
      (.insertCell 0 .code "y = 2")).2 ∧
    session.editor = some editor ∧ editor.isDirty = false ∧
    ∃ index cell, session.cells.indexOf? editor.cell = some index ∧
      session.cells.get? index = some cell ∧ session.spanOf? index = some editor.span ∧
      editor.buffer.text = cell.source ∧
      ∀ l line, editor.buffer.lines[l]? = some line →
        session.facade.lines[l + editor.lineOffset]? = some line ∧
        session.shadow.lines[l + editor.lineOffset]? =
          some (if cell.kind.isCode then line else []) := by
  have opened : Orderly {} _ := .cells (rfl :
    Session.ofCells [{ id := "a", kind := .code, source := "x = 1" },
      { id := "b", kind := .markdown, source := "some\nprose" }] {} = .ok _)
  have orderly := ((opened.step (.openEditor 1) trivial).step
    (.editBuffer fun buffer => buffer.replace 0 4 "more" .burst)
    ⟨.replace 0 4 "more" .burst, fun _ => rfl⟩).step (.insertCell 0 .code "y = 2") trivial
  obtain ⟨index, cell, found, here, -, span, -, shows⟩ :=
    orderly.reachable.editor_in_place (by decide) (Option.some_get (by decide +kernel)).symm
  refine ⟨_, _, _, rfl, rfl, (Option.some_get _).symm, ?clean, index, cell, found, here, span, ?_⟩
  case clean => decide +kernel
  exact shows orderly (by decide +kernel)

end Session

end Notebook

import Notebook.Proofs.Lsp.GoodOrder
/-!
# Diagnostics where the notebook stands now

Diagnostics are about lines that a server was told of, and when they are published they are looked up in
the notebook as it is by then. Those on content lines of code are for the facade. The editor knows where
its cell stands, so those that start in the content of that cell can be counted from its first line.
-/
namespace Notebook.Lsp

open Workspace

variable {session : Session} {editor : Editor} {settings : Settings}

/-! ## Lines of code -/

/-- A line is a content line of a code cell. -/
def OnCode (session : Session) (line : Nat) : Prop :=
  ∃ index cell span, session.cells.get? index = some cell ∧ cell.kind.isCode = true ∧
    session.spanOf? index = some span ∧ span.containsContent line = true

/-- In a session in which every cell is in its place, the line is looked up. -/
theorem isInCode_iff (anchored : session.Anchored) {diagnostic : Diagnostic} :
    Publisher.isInCode session diagnostic = true ↔ OnCode session diagnostic.range.start.line := by
  unfold Publisher.isInCode
  constructor
  · intro inside
    dsimp only at inside
    split at inside
    next => cases inside
    next index _ =>
      split at inside
      next cell span here stands =>
        exact ⟨index, cell, span, here, (Bool.and_eq_true_iff.mp inside).1, stands,
          (Bool.and_eq_true_iff.mp inside).2⟩
      next => cases inside
  · rintro ⟨index, cell, span, here, code, stands, content⟩
    simp [anchored.cellAt?_of_content stands content, here, stands, code, content]

instance decidableOnCode (session : Session) (line : Nat) : Decidable (OnCode session line) :=
  decidable_of_iff (∃ index < session.cells.length,
      ((session.cells.get? index).any (·.kind.isCode) && (session.spanOf? index).any
        (·.containsContent line)) = true) <| by
    constructor
    · rintro ⟨index, -, both⟩
      obtain ⟨code, content⟩ := Bool.and_eq_true_iff.mp both
      obtain ⟨cell, here, code⟩ := (Option.any_eq_true _ _).mp code
      obtain ⟨span, stands, content⟩ := (Option.any_eq_true _ _).mp content
      exact ⟨index, cell, span, here, code, stands, content⟩
    · rintro ⟨index, cell, span, here, code, stands, content⟩
      have bound := (List.getElem?_eq_some_iff.mp (show session.cells.cells[index]? = _ from here)).1
      exact ⟨index, bound, by simp [here, stands, code, content]⟩

/-- The diagnostics that start on content lines of code. -/
def onCode (session : Session) (diagnostics : List Diagnostic) : List Diagnostic :=
  diagnostics.filter fun diagnostic => OnCode session diagnostic.range.start.line

theorem filter_isInCode (anchored : session.Anchored) (diagnostics : List Diagnostic) :
    diagnostics.filter (Publisher.isInCode session) = onCode session diagnostics := by
  refine List.filter_congr fun diagnostic _ => ?_
  rw [Bool.eq_iff_iff, isInCode_iff anchored, decide_eq_true_iff]

/-! ## Lines of the editor -/

/-- The diagnostics that start on content lines of a span, counted from the first of these. What ends
above that line ends on it. -/
def fromContent (span : Span) (diagnostics : List Diagnostic) : List Diagnostic :=
  (diagnostics.filter fun diagnostic => span.containsContent diagnostic.range.start.line).map
    (Publisher.shiftedUp span.contentStart)

theorem contentStart_le {span : Span} {line : Nat} (inside : span.containsContent line = true) :
    span.contentStart ≤ line := by
  simp only [Span.containsContent, Bool.and_eq_true, decide_eq_true_eq] at inside
  exact inside.1

/-- An offset that no line is above is not cut off where lines are not. -/
theorem shiftedUp_word {span : Span} {diagnostics : List Diagnostic}
    (short : ∀ diagnostic ∈ diagnostics, diagnostic.range.start.line < 0x100000000) :
    (diagnostics.filter fun diagnostic => span.containsContent diagnostic.range.start.line).map
        (Publisher.shiftedUp (word span.contentStart)) = fromContent span diagnostics := by
  refine List.map_congr_left fun diagnostic member => ?_
  obtain ⟨listed, inside⟩ := List.mem_filter.mp member
  have bound := Nat.lt_of_le_of_lt (contentStart_le inside) (short diagnostic listed)
  rw [word, Nat.mod_eq_of_lt bound]

/-- Lines that come in are kept in 32 bits. -/
theorem line_lt_of_decode? {value : Json} {set : DiagnosticSet}
    (decoded : DiagnosticSet.decode? value = some set) :
    ∀ diagnostic ∈ set.diagnostics, diagnostic.range.start.line < 0x100000000 := by
  obtain ⟨field, -, decoded⟩ := Option.bind_eq_some_iff.mp decoded
  obtain ⟨uri, -, decoded⟩ := Option.bind_eq_some_iff.mp decoded
  obtain rfl := Option.some.inj decoded
  intro diagnostic member
  obtain ⟨item, -, decoded⟩ := List.mem_filterMap.mp member
  obtain ⟨value, -, decoded⟩ := Option.bind_eq_some_iff.mp decoded
  obtain ⟨range, found, decoded⟩ := Option.bind_eq_some_iff.mp decoded
  obtain rfl := Option.some.inj decoded
  obtain ⟨_, -, found⟩ := Option.bind_eq_some_iff.mp found
  obtain ⟨start, first, found⟩ := Option.bind_eq_some_iff.mp found
  obtain ⟨_, -, found⟩ := Option.bind_eq_some_iff.mp found
  obtain ⟨stop, -, found⟩ := Option.bind_eq_some_iff.mp found
  obtain rfl := Option.some.inj found
  obtain ⟨_, -, first⟩ := Option.bind_eq_some_iff.mp first
  obtain ⟨line, -, first⟩ := Option.bind_eq_some_iff.mp first
  obtain ⟨_, -, first⟩ := Option.bind_eq_some_iff.mp first
  obtain ⟨character, -, first⟩ := Option.bind_eq_some_iff.mp first
  obtain rfl := Option.some.inj first
  exact Nat.mod_lt _ (by decide)

/-- An editor knows where its cell stands. -/
theorem editor_stands (reachable : session.Reachable settings) (opened : session.editor = some editor) :
    ∃ index, session.cells.indexOf? editor.cell = some index ∧
      session.spanOf? index = some editor.span := by
  obtain ⟨coherent, anchored, seated⟩ := reachable.posed
  obtain ⟨above, cell, below, cells, id, span, -⟩ := seated editor opened
  refine ⟨above.length, ?_, span ▸ anchored.spanOf? cells⟩
  rw [← id]
  exact CellList.indexOf?_eq coherent.distinct_cells cells

/-- A content line of its cell is a line of the editor, unless it is dirty. -/
theorem line_in_editor (orderly : session.Orderly settings) (opened : session.editor = some editor)
    (clean : editor.isDirty = false) {line : Nat} (inside : editor.span.containsContent line = true) :
    line - editor.lineOffset < editor.buffer.lineCount := by
  obtain ⟨above, cell, below, -, -, span, holds⟩ := orderly.posed.seated editor opened
  have text := holds.text (by simpa [Editor.isDirty] using clean)
  have bottom := Layout.contentStop_eq (Layout.depth above) cell
  simp only [Span.containsContent, span, Bool.and_eq_true, decide_eq_true_eq] at inside
  simp only [Editor.lineOffset, span, Span.contentStart, Buffer.lineCount, text]
  rw [Cell.lineCount] at bottom
  omega

/-- A notebook that has the live handle of an editor has an editor. -/
theorem exists_editor {workspace : Workspace} (apart : workspace.EditorsApart) {id : NotebookId}
    {surface : SurfaceId} (live : workspace.editorSurface? id = some surface)
    (opened : workspace.session? id = some session) : ∃ editor, session.editor = some editor := by
  obtain ⟨entry, known, live⟩ := Option.bind_eq_some_iff.mp live
  obtain ⟨kept, held, live⟩ := Option.bind_eq_some_iff.mp live
  obtain ⟨found, resolved, -⟩ := Option.map_eq_some_iff.mp live
  obtain ⟨there, current, open', number⟩ := resolve?_eq_some_iff.mp resolved
  obtain ⟨kind, rfl⟩ := (apart id entry kept known held).2 found there
  obtain rfl := Option.some.inj (opened.symm.trans open')
  obtain ⟨editor, sits, -⟩ := Option.map_eq_some_iff.mp (number kind)
  exact ⟨editor, sits⟩

end Notebook.Lsp

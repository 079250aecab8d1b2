import Notebook.Proofs.Layout
import Notebook.Session.Basic
/-!
# Cells in their places

Where every cell is anchored on its first line and the facade has all lines that the cells take up,
every cell is found without a repair, and one that is written leaves all of them in their places. This
asks nothing of what the lines say, so it holds under any tag, even if no cell could be read.
-/
namespace Notebook

open Text Layout

namespace Session

/-- A cell in its place among the others. -/
theorem exists_around {cells : List Cell} {index : Nat} {cell : Cell}
    (here : cells[index]? = some cell) :
    ∃ above below, cells = above ++ cell :: below ∧ above.length = index := by
  obtain ⟨bound, rfl⟩ := List.getElem?_eq_some_iff.mp here
  refine ⟨cells.take index, cells.drop (index + 1), ?_, ?_⟩
  · rw [List.getElem_cons_drop, List.take_append_drop]
  · rw [List.length_take, Nat.min_eq_left (Nat.le_of_lt bound)]

theorem modify_around (above below : List Cell) (cell : Cell) (change : Cell → Cell) :
    (above ++ cell :: below).modify above.length change = above ++ change cell :: below := by
  induction above with
  | nil => rfl
  | cons first rest ih => exact congrArg (first :: ·) ih

/-- Every cell is anchored where it stands, and the facade has its lines. -/
structure Anchored (session : Session) : Prop where
  placed : Placed session.cells.cells session.facade
  room : depth session.cells.cells ≤ session.facade.lineCount

variable {session : Session} {above below : List Cell} {cell : Cell}

/-- A cell is found where it stands. -/
theorem Anchored.spanOf? (anchored : session.Anchored)
    (cells : session.cells.cells = above ++ cell :: below) :
    session.spanOf? above.length = some ⟨depth above, depth above + cell.height - 1⟩ := by
  have here : session.cells.cells[above.length]? = some cell := CellList.get?_eq cells
  rw [Session.spanOf?, Layout.spanOf?, here]
  exact anchored.placed.spanOfCell? anchored.room ⟨above, below, cells, rfl⟩

section Spans

variable {index line : Nat}

/-- A cell starts behind the lines of all cells before it. -/
theorem Anchored.spanOf?_eq (anchored : session.Anchored) (here : session.cells.get? index = some cell) :
    session.spanOf? index = some ⟨depth (session.cells.cells.take index),
      depth (session.cells.cells.take index) + cell.height - 1⟩ := by
  obtain ⟨above, below, cells, rfl⟩ := exists_around here
  rw [anchored.spanOf? cells, cells, List.take_left]

theorem Anchored.spanOf?_eq_some_iff (anchored : session.Anchored) {span : Span} :
    session.spanOf? index = some span ↔ ∃ cell, session.cells.get? index = some cell ∧
      span.top = depth (session.cells.cells.take index) ∧
      span.bottom + 2 = depth (session.cells.cells.take (index + 1)) := by
  cases here : session.cells.get? index with
  | none => simp [Session.spanOf?, Layout.spanOf?, show session.cells.cells[index]? = none from here]
  | some cell =>
    have next : session.cells.cells.take (index + 1) =
        session.cells.cells.take index ++ [cell] := by
      rw [List.take_add_one, show session.cells.cells[index]? = some cell from here]
      rfl
    rw [anchored.spanOf?_eq here, next, depth_append, depth_cons, depth_nil]
    obtain ⟨top, bottom⟩ := span
    simp only [Option.some.injEq, Span.mk.injEq, exists_eq_left', Cell.height]
    omega

/-- Cells take up the more lines the more of them there are. -/
theorem depth_take_le (cells : List Cell) {few many : Nat} (fewer : few ≤ many) :
    depth (cells.take few) ≤ depth (cells.take many) := by
  have split := List.take_append_drop few (cells.take many)
  rw [List.take_take, Nat.min_eq_left fewer] at split
  rw [← split, depth_append]
  exact Nat.le_add_right ..

/-- Between the span of a cell and that of a cell below it there is a blank line. -/
theorem Anchored.spans_apart (anchored : session.Anchored) {other : Nat} {span next : Span}
    (above : index < other) (here : session.spanOf? index = some span)
    (there : session.spanOf? other = some next) : span.bottom + 2 ≤ next.top := by
  obtain ⟨-, -, -, bottom⟩ := anchored.spanOf?_eq_some_iff.mp here
  obtain ⟨-, -, top, -⟩ := anchored.spanOf?_eq_some_iff.mp there
  rw [bottom, top]
  exact depth_take_le _ above

/-- The anchor of a cell is where its span starts. -/
theorem Anchored.top?_eq (anchored : session.Anchored) :
    top? session.cells.cells session.facade index = (session.spanOf? index).map Span.top := by
  cases here : session.cells.cells[index]? with
  | none => simp [top?, Session.spanOf?, Layout.spanOf?, here]
  | some cell =>
    have span := anchored.spanOf?_eq here
    obtain ⟨above, below, cells, rfl⟩ := exists_around here
    have anchor := (anchored.placed cell _ ⟨above, below, cells, rfl⟩).anchorLine
    rw [top?, here, span, cells, List.take_left]
    exact anchor

/-- A line belongs to the last cell that starts on it or above it. -/
theorem Anchored.cellAt?_eq_some_iff (anchored : session.Anchored) : session.cellAt? line = some index ↔
    (∃ span, session.spanOf? index = some span ∧ span.top ≤ line) ∧
      ∀ later span, index < later → session.spanOf? later = some span → line < span.top := by
  rw [Session.cellAt?, Layout.cellAt?_eq_some_iff]
  simp only [anchored.top?_eq, Option.map_eq_some_iff]
  constructor
  · rintro ⟨⟨_, ⟨span, here, rfl⟩, below⟩, final⟩
    exact ⟨⟨span, here, below⟩, fun later span above there => final later _ above ⟨span, there, rfl⟩⟩
  · rintro ⟨⟨span, here, below⟩, final⟩
    refine ⟨⟨_, ⟨span, here, rfl⟩, below⟩, ?_⟩
    rintro later _ above ⟨span, there, rfl⟩
    exact final later span above there

/-- A content line is looked up as one of its cell. -/
theorem Anchored.cellAt?_of_content (anchored : session.Anchored) {span : Span}
    (stands : session.spanOf? index = some span) (inside : span.containsContent line = true) :
    session.cellAt? line = some index := by
  simp only [Span.containsContent, Bool.and_eq_true, decide_eq_true_eq] at inside
  refine anchored.cellAt?_eq_some_iff.mpr ⟨⟨span, stands, by omega⟩, fun later next above there => ?_⟩
  have apart := anchored.spans_apart above stands there
  omega

end Spans

/-! ## Writing a cell -/

/-- No cell has to be looked for by a repair. -/
theorem Anchored.spanOrRepair (anchored : session.Anchored) (index : Nat) :
    (session.cells.cells[index]? = none ∧
      session.spanOrRepair index =
        (.error (.indexOutOfRange index session.cells.length), session)) ∨
    ∃ above cell below, session.cells.cells = above ++ cell :: below ∧ above.length = index ∧
      session.spanOrRepair index =
        (.ok ⟨depth above, depth above + cell.height - 1⟩, session) := by
  unfold Session.spanOrRepair CellList.get?
  cases here : session.cells.cells[index]? with
  | none => exact .inl ⟨rfl, rfl⟩
  | some cell =>
    obtain ⟨above, below, cells, rfl⟩ := exists_around here
    refine .inr ⟨above, cell, below, cells, rfl, ?_⟩
    simp only [anchored.spanOf? cells]

/-- A session in which the content of one cell was written into the cells and the views. -/
def overwritten (session : Session) (above below : List Cell) (cell other : Cell)
    (anchors : Table Text Nat) (grouping : Grouping) : Session :=
  { session with
    cells := { session.cells with cells := above ++ other :: below }
    facade := { session.facade.replaceLines (depth above + 1) (depth above + 1 + cell.lineCount)
      other.lines grouping with anchors }
    shadow := Shadow.patch session.shadow ⟨depth above, depth above + cell.height - 1⟩ other }

/-- A source that cannot be rendered is not written. -/
theorem writeCell_unrendered {source : Text} {fault : MarkupFault}
    (checked : Markup.checkSource session.settings.tag source = .error fault) (index : Nat)
    (grouping : Grouping) :
    session.writeCell index (Text.lines source) grouping = (.error (.markup fault), session) := by
  simp only [Session.writeCell, if_neg (lines_ne_nil source), unlines_lines, checked]

/-- Any other is written where its cell stands, and leaves all cells anchored. -/
theorem Anchored.writeCell_ok (anchored : session.Anchored)
    (distinct : (CellList.ids session.cells.cells).Nodup)
    (cells : session.cells.cells = above ++ cell :: below) {source : Text}
    (checked : Markup.checkSource session.settings.tag source = .ok ()) (grouping : Grouping) :
    ∃ anchors, let other : Cell := { cell with source }
      session.writeCell above.length (Text.lines source) grouping =
        (.ok ⟨depth above, depth above + other.height - 1⟩,
          session.overwritten above below cell other anchors grouping) ∧
      (session.overwritten above below cell other anchors grouping).Anchored := by
  have here := CellList.get?_eq cells
  have found := anchored.spanOf? cells
  let other : Cell := { cell with source }
  have room := cells ▸ anchored.room
  have areLines : ∀ line ∈ other.lines, IsLine line := fun _ => isLine_of_mem_lines
  have count : other.lines.length = other.lineCount := length_lines source
  obtain ⟨anchors, facade, placed⟩ := exists_placed_write (cells ▸ anchored.placed) room areLines
    (rfl : other.id = cell.id) (cells ▸ distinct) count grouping
  have after : (session.overwritten above below cell other anchors grouping).Anchored :=
    ⟨placed, room_write room areLines count grouping⟩
  refine ⟨anchors, ?_, after⟩
  have length : depth above + cell.height - 1 - depth above - 1 = cell.lineCount := by
    rw [contentStop_eq]
    omega
  have modified : session.cells.modifyAt above.length (fun cell => { cell with source }) =
      { session.cells with cells := above ++ other :: below } := by
    rw [CellList.modifyAt, cells, modify_around]
  have there : CellList.get? { session.cells with cells := above ++ other :: below }
      above.length = some other := CellList.get?_eq rfl
  -- Anchors are placed anew only if the number of lines changes; they are right either way.
  have written : (if (Text.lines source).length ≠ cell.lineCount then
      place (above ++ other :: below) (session.facade.replaceLines (depth above + 1)
        (depth above + cell.height - 1) (Text.lines source) grouping)
      else session.facade.replaceLines (depth above + 1) (depth above + cell.height - 1)
        (Text.lines source) grouping) =
      (session.overwritten above below cell other anchors grouping).facade := by
    rw [contentStop_eq]
    exact facade
  simp only [Session.writeCell, Session.spanOrRepair, if_neg (lines_ne_nil source), unlines_lines,
    checked, here, found, modified, there, Span.contentStart, Span.contentStop, Span.contentLength,
    length, written]
  have found := after.spanOf? rfl
  split
  next span there =>
    obtain rfl := Option.some.inj (there.symm.trans found)
    rfl
  next lost => cases lost.symm.trans found

/-- Writing a cell is refused and changes nothing, or it writes the cell where it stands and leaves
all cells anchored. -/
theorem Anchored.writeCell (anchored : session.Anchored)
    (distinct : (CellList.ids session.cells.cells).Nodup) (index : Nat) (source : Text)
    (grouping : Grouping) :
    (∃ fault, session.writeCell index (Text.lines source) grouping = (.error fault, session)) ∨
    ∃ above cell below anchors, let other : Cell := { cell with source }
      session.cells.cells = above ++ cell :: below ∧ above.length = index ∧
      Markup.checkSource session.settings.tag source = .ok () ∧
      session.writeCell index (Text.lines source) grouping =
        (.ok ⟨depth above, depth above + other.height - 1⟩,
          session.overwritten above below cell other anchors grouping) ∧
      (session.overwritten above below cell other anchors grouping).Anchored := by
  cases checked : Markup.checkSource session.settings.tag source with
  | error fault => exact .inl ⟨_, writeCell_unrendered checked index grouping⟩
  | ok =>
    cases here : session.cells.get? index with
    | none =>
      left
      simp only [Session.writeCell, Session.spanOrRepair, if_neg (lines_ne_nil source), unlines_lines,
        checked, here]
      exact ⟨_, rfl⟩
    | some cell =>
      obtain ⟨above, below, cells, rfl⟩ := exists_around here
      obtain ⟨anchors, written, after⟩ := anchored.writeCell_ok distinct cells checked grouping
      exact .inr ⟨above, cell, below, anchors, cells, rfl, rfl, written, after⟩

end Session

end Notebook

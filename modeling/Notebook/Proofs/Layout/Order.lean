import Notebook.Proofs.Buffer.Drift
import Notebook.Proofs.Layout
/-!
# Anchors of cells stay in the order of the cells

Once the anchors of cells are placed in the text that renders them, they lie one behind the other, as the
cells do. Edits, undo and redo may move them, bring them together on one line or drop some, but what is left
stays in that order and within the text. So the search for the cell of a line, which looks for the last
anchor on the line or above it, has all other anchors above it on its one side and none on the other.
-/
namespace Notebook.Layout

open Text Buffer

variable {cells : List Cell} {facade after : Buffer}

/-! ## Anchors as they are placed -/

theorem le_of_mem_startLines {first line : Nat} (member : line ∈ startLines first cells) :
    first ≤ line := by
  induction cells generalizing first with
  | nil => cases member
  | cons cell rest ih =>
    rw [startLines] at member
    rcases List.mem_cons.mp member with rfl | later
    · exact Nat.le_refl _
    · exact Nat.le_trans (by omega) (ih later)

theorem pairwise_startLines (first : Nat) (cells : List Cell) :
    (startLines first cells).Pairwise (· < ·) := by
  induction cells generalizing first with
  | nil => exact .nil
  | cons cell rest ih =>
    refine .cons (fun line later => ?_) (ih _)
    exact Nat.lt_of_lt_of_le (by omega) (le_of_mem_startLines later)

/-- The anchors of cells whose lines the text has are placed in the order of the cells. -/
theorem rising_place (distinct : (CellList.ids cells).Nodup)
    (within : ∀ cell line, StandsAt cells cell line → line < facade.lineCount) :
    (place cells facade).Rising (CellList.ids cells) := by
  have placed := placed_of_below distinct within
  have bound (entry : Cell × Nat) (member : entry ∈ cells.zip (startLines 0 cells)) :
      Table.get? (place cells facade).anchors entry.1.id =
        some (lineStart facade.text entry.2) := by
    rw [(placed _ _ (mem_zip_startLines.mp member)).offset, text_place]
  refine ⟨(anchored_place cells facade).nodup distinct, fun id offset found => ?_, ?_⟩
  · have known : id ∈ CellList.ids cells :=
      (anchored_place cells facade).subset (List.mem_map_of_mem (f := Prod.fst) (Table.mem_of_get? found))
    obtain ⟨cell, there, rfl⟩ := List.mem_map.mp known
    obtain ⟨above, below, split⟩ := List.append_of_mem there
    have anchored := placed cell (depth above) ⟨above, below, split, rfl⟩
    obtain rfl := Option.some.inj (found.symm.trans anchored.offset)
    exact lineStart_le_length anchored.below
  · -- The offsets are the starts of the lines that the layout gives to the cells.
    have lines : (cells.zip (startLines 0 cells)).map Prod.snd = startLines 0 cells :=
      List.map_snd_zip (by rw [length_startLines])
    have offsets : (CellList.ids cells).filterMap (Table.get? (place cells facade).anchors) =
        (startLines 0 cells).map (lineStart facade.text) := calc
      _ = (cells.zip (startLines 0 cells)).filterMap
            fun entry => Table.get? (place cells facade).anchors entry.1.id := by
          rw [← ids_zip_startLines, List.filterMap_map]
          rfl
      _ = (cells.zip (startLines 0 cells)).filterMap
            fun entry => some (lineStart facade.text entry.2) := List.filterMap_congr bound
      _ = (startLines 0 cells).map (lineStart facade.text) := by
          rw [List.filterMap_eq_map']
          conv_rhs => rw [← lines, List.map_map]
          rfl
    rw [offsets, List.pairwise_map]
    refine (pairwise_startLines 0 cells).imp_of_mem fun _ member earlier => lineStart_lt earlier ?_
    obtain ⟨entry, there, rfl⟩ := List.mem_map.mp (lines ▸ member)
    exact within _ _ (mem_zip_startLines.mp there)

/-- Whatever the marker tag, a cell starts on a line of the rendering. -/
theorem StandsAt.below_rendering {tag : Text} (rendered : facade.text = Markup.render tag (cells.map Cell.block))
    {cell : Cell} {line : Nat} (stands : StandsAt cells cell line) : line < facade.lineCount :=
  Nat.lt_of_le_of_lt (Nat.le_add_right ..)
    (Nat.lt_of_lt_of_le stands.below_depth (depth_le_lineCount rendered))

/-! ## Anchors after edits -/

/-- Of two cells that are still anchored, the one further up has its anchor on the same line or above. -/
theorem top?_le (rising : after.Rising (CellList.ids cells)) {above below top bottom : Nat}
    (inOrder : above < below) (first : top? cells after above = some top)
    (second : top? cells after below = some bottom) : top ≤ bottom := by
  obtain ⟨cell, here, first⟩ := Option.bind_eq_some_iff.mp first
  obtain ⟨other, there, second⟩ := Option.bind_eq_some_iff.mp second
  rw [rising.anchorLine] at first second
  obtain ⟨offset, found, rfl⟩ := Option.map_eq_some_iff.mp first
  obtain ⟨further, next, rfl⟩ := Option.map_eq_some_iff.mp second
  have name : (CellList.ids cells)[above]? = some cell.id := by
    rw [CellList.ids, List.getElem?_map, here, Option.map_some]
  have otherName : (CellList.ids cells)[below]? = some other.id := by
    rw [CellList.ids, List.getElem?_map, there, Option.map_some]
  exact lineOf_mono _ (Nat.le_of_lt (rising.lt inOrder name otherName found next))

/-- Whatever is done to the text in which the anchors of cells with identities of their own were placed, as
long as they are not placed anew: every anchor that is left is that of a cell, lies within the text and has
a line; the anchors that are left lie one behind the other in the order of the cells; and the cell of a
line is the last one whose anchor is on the line or above it, and no anchor of a cell before that one is
below the line. -/
theorem anchors_in_order {tag : Text} (rendered : facade.text = Markup.render tag (cells.map Cell.block))
    (distinct : (CellList.ids cells).Nodup) {actions : List Action}
    (keeps : ∀ action ∈ actions, action.keepsAnchors = true) :
    let after := actions.foldl Action.perform (place cells facade)
    (∀ id offset, Table.get? after.anchors id = some offset →
      id ∈ CellList.ids cells ∧ offset ≤ after.text.length ∧
        after.anchorLine id = some (lineOf after.text offset)) ∧
    ((CellList.ids cells).filterMap (Table.get? after.anchors)).Pairwise (· < ·) ∧
    ∀ line index, (cellAt? cells after line = some index ↔
        (∃ top, top? cells after index = some top ∧ top ≤ line) ∧
          ∀ later top, index < later → top? cells after later = some top → line < top) ∧
      (cellAt? cells after line = some index →
        ∀ earlier top, earlier < index → top? cells after earlier = some top → top ≤ line) := by
  intro after
  -- Placing sets the anchors in ascending order, and an edit carries them by a monotone map: they
  -- stay in order, though several may fall together.
  have carried : Carried (place cells facade) after :=
    List.foldlRecOn actions Action.perform .still
      fun buffer there action member => there.trans (buffer.carried_perform (keeps action member))
  have rising : after.Rising (CellList.ids cells) :=
    carried.rising (rising_place distinct fun _ _ stands => stands.below_rendering rendered)
  refine ⟨fun id offset found => ⟨?_, rising.within id offset found, ?_⟩, rising.rising,
    fun line index => ⟨cellAt?_eq_some_iff, fun found earlier top above anchored => ?_⟩⟩
  · have stored : id ∈ after.anchored := List.mem_map_of_mem (f := Prod.fst) (Table.mem_of_get? found)
    exact (anchored_place cells facade).subset (carried.anchored.subset stored)
  · rw [rising.anchorLine, found, Option.map_some]
  · obtain ⟨⟨bottom, here, reached⟩, -⟩ := cellAt?_eq_some_iff.mp found
    exact Nat.le_trans (top?_le rising above anchored here) reached

/-- So it is where the second of three cells has lost its anchor with its marker, which undo brought back
without it, and the third has come up to the line of the first. -/
theorem anchors_in_order_on_one_line :
    let cells : List Cell := [{ id := "a", kind := .code, source := "x" },
      { id := "b", kind := .markdown, source := "y" }, { id := "c", kind := .code, source := "z" }]
    let facade := (Buffer.ofText (Markup.render "ipynb" (cells.map Cell.block))).withHistory 8
    let actions : List Action := [.replaceLines 4 5 [] .alone, .undo,
      .replaceSpan ⟨0, 2⟩ ⟨8, 0⟩ [] .alone]
    let after := actions.foldl Action.perform (place cells facade)
    top? cells after 0 = some 0 ∧ top? cells after 1 = none ∧ top? cells after 2 = some 0 ∧
      cellAt? cells after 0 = some 2 := by
  intro cells facade actions after
  obtain ⟨-, -, found⟩ := anchors_in_order
    (rfl : facade.text = Markup.render "ipynb" (cells.map Cell.block)) (by decide)
    (by decide : ∀ action ∈ actions, action.keepsAnchors = true)
  have third : top? cells after 2 = some 0 := by decide +kernel
  refine ⟨by decide +kernel, by decide +kernel, third, (found 0 2).1.mpr ⟨⟨0, third, Nat.le_refl _⟩, ?_⟩⟩
  intro later top below anchored
  have none : cells[later]? = none := List.getElem?_eq_none_iff.mpr below
  rw [top?, none] at anchored
  cases anchored

end Notebook.Layout

import Notebook.Proofs.Buffer.Anchors
import Notebook.Proofs.CellList.Identity
import Notebook.Proofs.Markup.RoundTrip
import Notebook.Shadow
/-!
# Pages

The rendered text and the shadow are pages of one layout: each cell has an opening line, its content
lines, a closing line and a blank line, and cells stand one below the other. So a cell stands on the
same lines of both, and what holds of writing the content of one cell into a page is proved once.
-/
namespace Notebook.Layout

open Text

/-- How cells are shown: the opening lines, the content lines and the closing line. -/
structure Face where
  top : Cell → Text
  content : Cell → List Text
  bottom : Text

namespace Face

/-- Lines of some cells, one below the other, a blank line after each. -/
def rows (face : Face) (cells : List Cell) : List Text :=
  cells.flatMap fun cell => (face.top cell :: (face.content cell ++ [face.bottom])) ++ [[]]

/-- The lines of the whole text; without cells, one blank line. -/
def page (face : Face) (cells : List Cell) : List Text :=
  Markup.stacked (cells.map fun cell => face.top cell :: (face.content cell ++ [face.bottom]))

/-- The face shows every cell in as many lines as the cell counts, and has only lines. -/
structure Regular (face : Face) : Prop where
  /-- There are as many content lines as the cell has lines. -/
  length : ∀ cell, (face.content cell).length = cell.lineCount
  topLine : ∀ cell, IsLine (face.top cell)
  contentLines : ∀ cell, ∀ line ∈ face.content cell, IsLine line
  bottomLine : IsLine face.bottom

end Face

def facadeFace (tag : Text) : Face :=
  ⟨fun cell => startMarker tag cell.kind, Cell.lines, endMarker tag⟩

def shadowFace : Face := ⟨fun _ => [], Shadow.contentLines, []⟩

theorem page_facadeFace (tag : Text) (cells : List Cell) :
    (facadeFace tag).page cells = Markup.renderLines tag (cells.map Cell.block) := by
  rw [Markup.renderLines, List.map_map]
  rfl

theorem page_shadowFace (cells : List Cell) : shadowFace.page cells = Shadow.lines cells := rfl

theorem regular_facadeFace {tag : Text} (plain : IsLine tag) : (facadeFace tag).Regular where
  length cell := length_lines cell.source
  topLine cell := isLine_startMarker plain cell.kind
  contentLines _ _ member := isLine_of_mem_lines member
  bottomLine := isLine_endMarker plain

theorem length_contentLines (cell : Cell) : (Shadow.contentLines cell).length = cell.lineCount := by
  unfold Shadow.contentLines
  split
  · exact length_lines cell.source
  · exact List.length_replicate

theorem regular_shadowFace : shadowFace.Regular where
  length := length_contentLines
  topLine _ := List.not_mem_nil
  contentLines cell line member := by
    change line ∈ Shadow.contentLines cell at member
    unfold Shadow.contentLines at member
    split at member
    · exact isLine_of_mem_lines member
    · rw [List.eq_of_mem_replicate member]
      exact List.not_mem_nil
  bottomLine := List.not_mem_nil

/-! ## Lines of a page -/

/-- Number of lines that cells take up, blank lines included. -/
def depth (cells : List Cell) : Nat := (cells.map fun cell => cell.height + 1).sum

@[simp] theorem depth_nil : depth [] = 0 := rfl

@[simp] theorem depth_cons (cell : Cell) (rest : List Cell) :
    depth (cell :: rest) = cell.height + 1 + depth rest := by
  simp [depth]

@[simp] theorem depth_append (front back : List Cell) :
    depth (front ++ back) = depth front + depth back := by
  simp [depth]

section Page

variable {face : Face} {cells above below : List Cell} {cell : Cell}

@[simp] theorem rows_nil : face.rows [] = [] := rfl

@[simp] theorem rows_cons (cell : Cell) (rest : List Cell) : face.rows (cell :: rest) =
    face.top cell :: (face.content cell ++ face.bottom :: [] :: face.rows rest) := by
  simp [Face.rows]

@[simp] theorem rows_append (front back : List Cell) :
    face.rows (front ++ back) = face.rows front ++ face.rows back := by
  simp [Face.rows]

theorem length_rows_of_content (length : ∀ cell, (face.content cell).length = cell.lineCount)
    (cells : List Cell) : (face.rows cells).length = depth cells := by
  induction cells with
  | nil => rfl
  | cons cell rest ih =>
    rw [rows_cons, depth_cons, ← ih, Cell.height, ← length cell]
    simp only [List.length_cons, List.length_append]
    omega

theorem length_rows (regular : face.Regular) (cells : List Cell) :
    (face.rows cells).length = depth cells :=
  length_rows_of_content regular.length cells

theorem page_nil : face.page [] = [[]] := rfl

theorem page_of_ne_nil (nonempty : cells ≠ []) : face.page cells = face.rows cells := by
  rw [Face.page, Markup.stacked_of_ne_nil (by simpa using nonempty), List.flatMap_map]
  rfl

theorem page_ne_nil (face : Face) (cells : List Cell) : face.page cells ≠ [] := by
  cases cells with
  | nil => exact List.cons_ne_nil _ _
  | cons cell rest =>
    rw [page_of_ne_nil (List.cons_ne_nil _ _), rows_cons]
    exact List.cons_ne_nil _ _

theorem areLines_page (regular : face.Regular) (cells : List Cell) :
    ∀ line ∈ face.page cells, IsLine line := by
  intro line member
  cases cells with
  | nil =>
    obtain rfl : line = [] := by simpa [page_nil] using member
    exact List.not_mem_nil
  | cons cell rest =>
    rw [page_of_ne_nil (List.cons_ne_nil _ _), Face.rows, List.mem_flatMap] at member
    -- A row of the page is a marker, a line of a source or the blank line between two cells.
    obtain ⟨shown, -, member⟩ := member
    simp only [List.cons_append, List.nil_append, List.append_assoc, List.mem_cons,
      List.mem_append, List.not_mem_nil, or_false] at member
    rcases member with rfl | content | rfl | rfl
    · exact regular.topLine shown
    · exact regular.contentLines shown line content
    · exact regular.bottomLine
    · exact List.not_mem_nil

theorem page_around (face : Face) (above below : List Cell) (cell : Cell) :
    face.page (above ++ cell :: below) = face.rows above ++
      face.top cell :: (face.content cell ++ face.bottom :: [] :: face.rows below) := by
  rw [page_of_ne_nil (by simp), rows_append, rows_cons]

/-- The lengths of pages with as many lines to each cell agree. -/
theorem length_page (regular : face.Regular) (cells : List Cell) :
    (face.page cells).length = max 1 (depth cells) := by
  cases cells with
  | nil => rfl
  | cons cell rest =>
    rw [page_of_ne_nil (List.cons_ne_nil _ _), length_rows regular, depth_cons]
    omega

/-- The content of a cell begins below the cells above it and its own first line. -/
theorem page_above_content (regular : face.Regular) : ∃ front, front.length = depth above + 1 ∧
    front = face.rows above ++ [face.top cell] ∧ face.page (above ++ cell :: below) =
      front ++ (face.content cell ++ face.bottom :: [] :: face.rows below) := by
  refine ⟨_, ?_, rfl, ?_⟩
  · simp [length_rows regular]
  · rw [page_around, List.append_assoc, List.singleton_append]

theorem take_page (regular : face.Regular) : (face.page (above ++ cell :: below)).take
    (depth above + 1) = face.rows above ++ [face.top cell] := by
  obtain ⟨front, length, rfl, split⟩ := @page_above_content face above below cell regular
  rw [split, ← length, List.take_left]

theorem drop_page (regular : face.Regular) : (face.page (above ++ cell :: below)).drop
    (depth above + 1 + cell.lineCount) = face.bottom :: [] :: face.rows below := by
  have front : (face.rows above ++ face.top cell :: face.content cell).length =
      depth above + 1 + cell.lineCount := by
    rw [List.length_append, List.length_cons, length_rows regular, regular.length]
    omega
  have split : face.page (above ++ cell :: below) =
      (face.rows above ++ face.top cell :: face.content cell) ++
        face.bottom :: [] :: face.rows below := by
    rw [page_around, List.append_assoc, List.cons_append]
  rw [split, ← front, List.drop_left]

/-- Exchanging the content lines of a cell makes the page of the cell that has the other ones. -/
theorem page_patched (regular : face.Regular) {other : Cell} (top : face.top other = face.top cell) :
    (face.page (above ++ cell :: below)).take (depth above + 1) ++ (face.content other ++
      (face.page (above ++ cell :: below)).drop (depth above + 1 + cell.lineCount)) =
        face.page (above ++ other :: below) := by
  rw [take_page regular, drop_page regular, page_around, top, List.append_assoc,
    List.singleton_append]

/-- The content lines of a cell, read off the page. -/
theorem content_page (regular : face.Regular) :
    ((face.page (above ++ cell :: below)).take (depth above + 1 + cell.lineCount)).drop
      (depth above + 1) = face.content cell := by
  obtain ⟨front, length, -, split⟩ := @page_above_content face above below cell regular
  rw [List.drop_take, Nat.add_sub_cancel_left, split, ← length, List.drop_left, ← regular.length,
    List.take_left]

end Page

/-! ## Where cells stand -/

/-- The closing line of a cell comes right behind its content. -/
theorem contentStop_eq (line : Nat) (cell : Cell) :
    line + cell.height - 1 = line + 1 + cell.lineCount := by
  rw [Cell.height]
  omega

/-- A cell of the list starts on a line. -/
def StandsAt (cells : List Cell) (cell : Cell) (line : Nat) : Prop :=
  ∃ above below, cells = above ++ cell :: below ∧ line = depth above

theorem startLines_append (line : Nat) (above below : List Cell) :
    startLines line (above ++ below) = startLines line above ++
      startLines (line + depth above) below := by
  induction above generalizing line with
  | nil => rfl
  | cons cell rest ih =>
    have onward : line + (cell.height + 1 + depth rest) = line + cell.height + 1 + depth rest := by
      omega
    rw [List.cons_append, startLines, ih, startLines, depth_cons, List.cons_append, onward]

theorem length_startLines (line : Nat) (cells : List Cell) :
    (startLines line cells).length = cells.length := by
  induction cells generalizing line with
  | nil => rfl
  | cons cell rest ih => rw [startLines, List.length_cons, ih, List.length_cons]

theorem mem_zip_startLines_from {line first : Nat} {cells : List Cell} {cell : Cell} :
    (cell, line) ∈ cells.zip (startLines first cells) ↔
      ∃ above below, cells = above ++ cell :: below ∧ line = first + depth above := by
  constructor
  · intro member
    induction cells generalizing first with
    | nil => cases member
    | cons other rest ih =>
      rw [startLines, List.zip_cons_cons, List.mem_cons] at member
      rcases member with here | later
      · cases here
        exact ⟨[], rest, rfl, rfl⟩
      · obtain ⟨above, below, rfl, rfl⟩ := ih later
        exact ⟨other :: above, below, rfl, by rw [depth_cons]; omega⟩
  · rintro ⟨above, below, rfl, rfl⟩
    rw [startLines_append, List.zip_append (length_startLines first above).symm, startLines,
      List.zip_cons_cons]
    exact List.mem_append_right _ List.mem_cons_self

/-- The layout puts every cell where it stands. -/
theorem mem_zip_startLines {cells : List Cell} {cell : Cell} {line : Nat} :
    (cell, line) ∈ cells.zip (startLines 0 cells) ↔ StandsAt cells cell line := by
  simp only [mem_zip_startLines_from, Nat.zero_add]
  rfl

/-- The lines of a cell are among those that all cells take up. -/
theorem StandsAt.below_depth {cells : List Cell} {cell : Cell} {line : Nat}
    (stands : StandsAt cells cell line) : line + cell.height < depth cells := by
  obtain ⟨above, below, rfl, rfl⟩ := stands
  rw [depth_append, depth_cons]
  omega

/-- Whatever the marker tag, a rendering has a line for every line of its cells. -/
theorem depth_le_lineCount {tag : Text} {cells : List Cell} {text : Text}
    (rendered : text = Markup.render tag (cells.map Cell.block)) : depth cells ≤ lineCount text := by
  have length (cell : Cell) : ((facadeFace tag).content cell).length = cell.lineCount :=
    length_lines cell.source
  have lines := length_le_lineCount_unlines ((facadeFace tag).page cells)
  have depth : depth cells ≤ ((facadeFace tag).page cells).length := by
    cases cells with
    | nil => exact Nat.zero_le _
    | cons cell rest =>
      rw [page_of_ne_nil (List.cons_ne_nil _ _), length_rows_of_content length]
  rw [page_facadeFace] at depth lines
  rw [rendered, Markup.render]
  exact depth.trans lines

/-- A page has room for its cells. -/
theorem room_of_page {face : Face} (regular : face.Regular) {cells : List Cell} {buffer : Buffer}
    (page : buffer.lines = face.page cells) : depth cells ≤ buffer.lineCount := by
  rw [← Buffer.length_lines, page, length_page regular]
  exact Nat.le_max_right ..

theorem StandsAt.top {face : Face} (regular : face.Regular) {cells : List Cell} {cell : Cell}
    {line : Nat} (stands : StandsAt cells cell line) :
    (face.page cells)[line]? = some (face.top cell) := by
  obtain ⟨above, below, rfl, rfl⟩ := stands
  rw [page_around, ← length_rows regular, List.getElem?_append_right (Nat.le_refl _), Nat.sub_self,
    List.getElem?_cons_zero]

theorem StandsAt.bottom {face : Face} (regular : face.Regular) {cells : List Cell} {cell : Cell}
    {line : Nat} (stands : StandsAt cells cell line) :
    (face.page cells)[line + cell.height - 1]? = some face.bottom := by
  obtain ⟨above, below, rfl, rfl⟩ := stands
  rw [contentStop_eq, ← Nat.add_zero (depth above + 1 + cell.lineCount), ← List.getElem?_drop,
    drop_page regular, List.getElem?_cons_zero]

/-! ## Anchors of cells -/

/-- Every cell is anchored where it stands. -/
def Placed (cells : List Cell) (facade : Buffer) : Prop :=
  ∀ cell line, StandsAt cells cell line → facade.AnchoredAt cell.id line

private theorem foldl_bindAnchor (entries : List (Cell × Nat)) (buffer : Buffer) :
    entries.foldl (fun b entry => b.bindAnchor entry.1.id entry.2) buffer =
      { buffer with
        anchors := (entries.map fun entry => (entry.1.id,
          lineStart buffer.text (min entry.2 (buffer.lineCount - 1)))).foldl
            (fun anchors anchor => Table.set anchors anchor.1 anchor.2) buffer.anchors } := by
  induction entries generalizing buffer with
  | nil => rfl
  | cons entry rest ih =>
    rw [List.foldl_cons, ih]
    rfl

/-- Placing the anchors changes nothing but the anchors. -/
theorem place_eq (cells : List Cell) (facade : Buffer) :
    ∃ anchors, place cells facade = { facade with anchors } :=
  ⟨_, foldl_bindAnchor (cells.zip (startLines 0 cells)) facade.clearAnchors⟩

@[simp] theorem text_place (cells : List Cell) (facade : Buffer) :
    (place cells facade).text = facade.text := by
  obtain ⟨anchors, placed⟩ := place_eq cells facade
  rw [placed]

@[simp] theorem lines_place (cells : List Cell) (facade : Buffer) :
    (place cells facade).lines = facade.lines := by
  rw [Buffer.lines, text_place, Buffer.lines]

@[simp] theorem history_place (cells : List Cell) (facade : Buffer) :
    (place cells facade).history = facade.history := by
  obtain ⟨anchors, placed⟩ := place_eq cells facade
  rw [placed]

@[simp] theorem revision_place (cells : List Cell) (facade : Buffer) :
    (place cells facade).revision = facade.revision := by
  obtain ⟨anchors, placed⟩ := place_eq cells facade
  rw [placed]

/-- Where the anchors are placed depends on the text alone. -/
theorem anchors_place_of_text (cells : List Cell) {facade other : Buffer} (same : facade.text = other.text) :
    (place cells facade).anchors = (place cells other).anchors := by
  rw [place, place, foldl_bindAnchor, foldl_bindAnchor]
  simp only [Buffer.clearAnchors, Buffer.lineCount, same]

theorem ids_zip_startLines (cells : List Cell) :
    (cells.zip (startLines 0 cells)).map (fun entry => entry.1.id) = CellList.ids cells := by
  have fst : (cells.zip (startLines 0 cells)).map Prod.fst = cells :=
    List.map_fst_zip (by rw [length_startLines])
  have names := congrArg (List.map Cell.id) fst
  rwa [List.map_map] at names

/-- Placing the anchors binds those of the cells, in their order, and no others. -/
theorem anchored_place (cells : List Cell) (facade : Buffer) :
    (place cells facade).anchored.Sublist (CellList.ids cells) := by
  rw [place, foldl_bindAnchor, Buffer.anchored]
  have bound := Table.keys_foldl_set ((cells.zip (startLines 0 cells)).map fun entry =>
    (entry.1.id, lineStart facade.clearAnchors.text (min entry.2 (facade.clearAnchors.lineCount - 1))))
    facade.clearAnchors.anchors
  rw [List.map_map] at bound
  exact ids_zip_startLines cells ▸ bound

/-- Where every cell with an identity of its own stands within the text, placing the anchors anchors
every cell. -/
theorem placed_of_below {cells : List Cell} {facade : Buffer} (distinct : (CellList.ids cells).Nodup)
    (within : ∀ cell line, StandsAt cells cell line → line < facade.lineCount) :
    Placed cells (place cells facade) := by
  intro cell line stands
  have below := within cell line stands
  refine ⟨?_, by rwa [Buffer.lineCount, text_place]⟩
  rw [text_place, place, foldl_bindAnchor]
  refine Table.get?_foldl_set ?_ _ (List.mem_map.mpr ⟨(cell, line), mem_zip_startLines.mpr stands, ?_⟩)
  · -- Every identity is bound once, so no later binding overwrites an earlier one.
    rw [List.map_map]
    exact (ids_zip_startLines cells).symm ▸ distinct
  · change (cell.id, lineStart facade.text (min line (facade.lineCount - 1))) = _
    rw [Nat.min_eq_left (Nat.le_sub_one_of_lt below)]

/-- Where there is room for cells with distinct identities, placing the anchors anchors every cell. -/
theorem placed_of_room {cells : List Cell} {facade : Buffer} (distinct : (CellList.ids cells).Nodup)
    (room : depth cells ≤ facade.lineCount) : Placed cells (place cells facade) :=
  placed_of_below distinct fun _ _ stands =>
    Nat.lt_of_le_of_lt (Nat.le_add_right ..) (Nat.lt_of_lt_of_le stands.below_depth room)

/-- On a page of cells with distinct identities, placing the anchors anchors every cell. -/
theorem placed_place {face : Face} (regular : face.Regular) {cells : List Cell} {facade : Buffer}
    (distinct : (CellList.ids cells).Nodup) (page : facade.lines = face.page cells) :
    Placed cells (place cells facade) :=
  placed_of_room distinct (room_of_page regular page)

/-- If only cells are anchored, and each where it stands, then the anchors are those of the cells. -/
theorem Placed.anchored {cells : List Cell} {facade : Buffer} (placed : Placed cells facade)
    (distinct : (CellList.ids cells).Nodup) (only : facade.anchored.Sublist (CellList.ids cells)) :
    facade.anchored = CellList.ids cells := by
  have each : CellList.ids cells ⊆ facade.anchored := by
    intro id member
    obtain ⟨cell, there, rfl⟩ := List.mem_map.mp member
    obtain ⟨above, below, split⟩ := List.append_of_mem there
    exact List.mem_map_of_mem
      (Table.mem_of_get? (placed cell (depth above) ⟨above, below, split, rfl⟩).offset)
  exact only.eq_of_length_le (List.subperm_of_subset distinct each).length_le

/-- Anchors that are placed already stay as they are. -/
theorem Placed.place_self {face : Face} (regular : face.Regular) {cells : List Cell} {facade : Buffer}
    (placed : Placed cells facade) (distinct : (CellList.ids cells).Nodup)
    (page : facade.lines = face.page cells) (only : facade.anchored.Sublist (CellList.ids cells)) :
    place cells facade = facade := by
  have again := placed_place regular distinct page
  have names := again.anchored distinct (anchored_place cells facade)
  have known := placed.anchored distinct only
  -- Both tables hold an anchor for each live cell and no other, where the page shows its first line.
  have anchors : (place cells facade).anchors = facade.anchors := by
    apply Table.Distinct.ext
    · change (place cells facade).anchored.Nodup
      exact names ▸ distinct
    · exact names.trans known.symm
    · intro id member
      have live : id ∈ CellList.ids cells := names ▸ member
      obtain ⟨cell, there, rfl⟩ := List.mem_map.mp live
      obtain ⟨above, below, split⟩ := List.append_of_mem there
      have stands : StandsAt cells cell (depth above) := ⟨above, below, split, rfl⟩
      rw [(placed cell _ stands).offset, (again cell _ stands).offset, text_place]
  obtain ⟨_, placing⟩ := place_eq cells facade
  rw [placing] at anchors ⊢
  exact congrArg (fun anchors => ({ facade with anchors } : Buffer)) anchors

/-! ## The cell of a line -/

/-- What is found from the end of a row of numbers is the last one that fits. -/
theorem find?_reverse_range {count found : Nat} {fits : Nat → Bool} :
    (List.range count).reverse.find? fits = some found ↔
      (found < count ∧ fits found) ∧ ∀ later, found < later → later < count → ¬fits later := by
  -- The last number is looked at first. If it does not fit, it is as if it were not there.
  induction count with
  | zero => simp
  | succ count ih =>
    rw [List.range_succ, List.reverse_append, List.reverse_singleton, List.singleton_append,
      List.find?_cons]
    cases last : fits count with
    | true =>
      constructor
      · rintro ⟨⟩
        exact ⟨⟨Nat.lt_succ_self _, last⟩, fun later _ _ => by omega⟩
      · rintro ⟨⟨bound, -⟩, final⟩
        rcases Nat.lt_succ_iff_lt_or_eq.mp bound with below | rfl
        · exact absurd last (final count below (Nat.lt_succ_self _))
        · rfl
    | false =>
      apply ih.trans
      constructor
      · rintro ⟨⟨bound, fit⟩, final⟩
        refine ⟨⟨Nat.lt_succ_of_lt bound, fit⟩, fun later above below => ?_⟩
        rcases Nat.lt_succ_iff_lt_or_eq.mp below with below | rfl
        · exact final later above below
        · simp [last]
      · rintro ⟨⟨bound, fit⟩, final⟩
        have other : found ≠ count := by
          rintro rfl
          simp [last] at fit
        exact ⟨⟨by omega, fit⟩, fun later above below => final later above (by omega)⟩

/-- The line of the anchor of a cell, if the cell has one. -/
def top? (cells : List Cell) (facade : Buffer) (index : Nat) : Option Nat :=
  cells[index]?.bind fun cell => facade.anchorLine cell.id

section Top

variable {cells : List Cell} {facade : Buffer} {line index : Nat}

private theorem any_top?_iff : ((cells[index]?.bind fun cell => facade.anchorLine cell.id).any
    fun top => decide (top ≤ line)) = true ↔ ∃ top, top? cells facade index = some top ∧ top ≤ line := by
  rw [top?]
  cases (cells[index]?.bind fun cell => facade.anchorLine cell.id) <;> simp

private theorem lt_of_top? {top : Nat} (anchored : top? cells facade index = some top) :
    index < cells.length := by
  obtain ⟨cell, here, -⟩ := Option.bind_eq_some_iff.mp anchored
  exact (List.getElem?_eq_some_iff.mp here).1

/-- A line belongs to the last cell whose anchor is on it or above it. -/
theorem cellAt?_eq_some_iff : cellAt? cells facade line = some index ↔
    (∃ top, top? cells facade index = some top ∧ top ≤ line) ∧
      ∀ later top, index < later → top? cells facade later = some top → line < top := by
  rw [cellAt?, find?_reverse_range]
  simp only [any_top?_iff]
  constructor
  · rintro ⟨⟨-, here⟩, final⟩
    refine ⟨here, fun later top above there => ?_⟩
    exact Nat.lt_of_not_le fun below => final later above (lt_of_top? there) ⟨top, there, below⟩
  · rintro ⟨⟨top, here, below⟩, final⟩
    refine ⟨⟨lt_of_top? here, top, here, below⟩, fun later above _ => ?_⟩
    rintro ⟨next, there, reached⟩
    exact Nat.not_le_of_lt (final later next above there) reached

end Top

section Check

variable {tag : Text} {cells : List Cell} {facade : Buffer}

/-- The check of a row of cells passes if it passes for each. -/
theorem verify_eq_ok_iff : verify tag cells facade = .ok () ↔
    ∀ cell line, StandsAt cells cell line → verifyCell tag facade cell line = .ok () := by
  have each (entries : List (Cell × Nat)) :
      (entries.forM fun entry => verifyCell tag facade entry.1 entry.2) = .ok () ↔
        ∀ entry ∈ entries, verifyCell tag facade entry.1 entry.2 = .ok () := by
    induction entries with
    | nil => simp [pure, Except.pure]
    | cons entry rest ih =>
      rw [List.forM_eq_forM] at ih ⊢
      rw [List.forM_cons, List.forall_mem_cons, ← ih]
      cases verifyCell tag facade entry.1 entry.2 <;> simp [bind, Except.bind]
  rw [verify, each]
  constructor
  · exact fun fine cell line stands => fine (cell, line) (mem_zip_startLines.mpr stands)
  · exact fun fine entry member => fine entry.1 entry.2 (mem_zip_startLines.mp member)

/-- Of a rendered text the check asks that the anchors are where the cells stand. -/
theorem verify_eq_ok_iff_anchors (plain : IsLine tag)
    (page : facade.lines = (facadeFace tag).page cells) : verify tag cells facade = .ok () ↔
      ∀ cell line, StandsAt cells cell line → facade.anchorLine cell.id = some line := by
  have regular := regular_facadeFace plain
  rw [verify_eq_ok_iff]
  refine forall_congr' fun cell => forall_congr' fun line => imp_congr_right fun stands => ?_
  have top : line? facade.text line = some (startMarker tag cell.kind) := by
    change facade.lines[line]? = _
    rw [page]
    exact stands.top regular
  have bottom : line? facade.text (line + cell.height - 1) = some (endMarker tag) := by
    change facade.lines[_]? = _
    rw [page]
    exact stands.bottom regular
  unfold verifyCell
  cases anchor : facade.anchorLine cell.id with
  | none => simp
  | some actual =>
    by_cases same : actual = line
    · simp [same, top, bottom]
    · simp [same]

/-- An anchored cell is found where it stands, if the text has its lines. -/
theorem Placed.spanOfCell? (placed : Placed cells facade) (room : depth cells ≤ facade.lineCount)
    {cell : Cell} {line : Nat} (stands : StandsAt cells cell line) :
    spanOfCell? facade cell = some ⟨line, line + cell.height - 1⟩ := by
  have below : line + cell.height - 1 < facade.lineCount :=
    Nat.lt_of_le_of_lt (Nat.sub_le ..) (Nat.lt_of_lt_of_le stands.below_depth room)
  simp only [Layout.spanOfCell?, (placed cell line stands).anchorLine, Option.bind_eq_bind,
    Option.bind_some, if_pos below]

end Check

/-! ## Writing the content of one cell -/

section Write

variable {face : Face} {buffer : Buffer} {above below : List Cell} {cell other : Cell}

/-- The content of a cell ends above the last line that all cells take up. -/
theorem content_below (room : depth (above ++ cell :: below) ≤ buffer.lineCount) :
    depth above + 1 + cell.lineCount < buffer.lineCount := by
  rw [depth_append, depth_cons, Cell.height] at room
  omega

/-- Writing the content of another cell over that of a cell makes the other cell's page. -/
theorem lines_write (regular : face.Regular)
    (page : buffer.lines = face.page (above ++ cell :: below))
    (top : face.top other = face.top cell) (grouping : Grouping) :
    (buffer.replaceLines (depth above + 1) (depth above + 1 + cell.lineCount)
      (face.content other) grouping).lines = face.page (above ++ other :: below) := by
  rw [Buffer.lines_replaceLines_inside (Nat.le_add_right ..) (content_below (room_of_page regular page))
    (regular.contentLines other), page, page_patched regular top]

section Anchors

variable {new : List Text} (placed : Placed (above ++ cell :: below) buffer)
  (room : depth (above ++ cell :: below) ≤ buffer.lineCount) (areLines : ∀ line ∈ new, IsLine line)
  (id : other.id = cell.id)

include room

include areLines in
/-- Writing the content of a cell makes room for what it has now. -/
theorem room_write (length : new.length = other.lineCount) (grouping : Grouping) :
    depth (above ++ other :: below) ≤ (buffer.replaceLines (depth above + 1)
      (depth above + 1 + cell.lineCount) new grouping).lineCount := by
  have inside := content_below room
  rw [depth_append, depth_cons, Cell.height] at room
  rw [← Buffer.length_lines, Buffer.lines_replaceLines_inside (Nat.le_add_right ..) inside areLines,
    List.length_append, List.length_append, List.length_take, List.length_drop, Buffer.length_lines,
    depth_append, depth_cons, Cell.height, length]
  omega

include placed areLines id in
/-- If the number of lines stays, so do the anchors. -/
theorem placed_write (length : new.length = other.lineCount) (same : other.lineCount = cell.lineCount)
    (grouping : Grouping) : Placed (above ++ other :: below) (buffer.replaceLines (depth above + 1)
      (depth above + 1 + cell.lineCount) new grouping) := by
  have inside := content_below room
  have inOrder : depth above + 1 ≤ depth above + 1 + cell.lineCount := Nat.le_add_right ..
  have height : other.height = cell.height := congrArg (2 + ·) same
  rintro shown line ⟨front, back, split, rfl⟩
  rw [List.append_eq_append_iff] at split
  rcases split with ⟨middle, rfl, rest⟩ | ⟨middle, rfl, rest⟩
  · cases middle with
    | nil =>
      obtain ⟨rfl, rfl⟩ := List.cons_eq_cons.mp rest
      have anchored := placed cell (depth above) ⟨above, below, rfl, rfl⟩
      rw [List.append_nil, id]
      exact anchored.replaceLines_above inOrder inside areLines grouping (Nat.lt_succ_self _)
    | cons first middle =>
      obtain ⟨rfl, rfl⟩ := List.cons_eq_cons.mp rest
      -- The cell stands below the one that was written, on the same line as before.
      have anchored := placed shown (depth (above ++ cell :: middle))
        ⟨above ++ cell :: middle, back, by simp, rfl⟩
      have line : depth (above ++ cell :: middle) - (depth above + 1 + cell.lineCount -
          (depth above + 1)) + new.length = depth (above ++ other :: middle) := by
        rw [length, same, depth_append, depth_append, depth_cons, depth_cons, height, Cell.height]
        omega
      rw [← line]
      refine anchored.replaceLines_below inOrder inside areLines grouping ?_
      rw [depth_append, depth_cons, Cell.height]
      omega
  · cases middle with
    | nil =>
      obtain ⟨rfl, rfl⟩ := List.cons_eq_cons.mp rest
      have anchored := placed cell (depth front) ⟨front, back, by simp, rfl⟩
      rw [id]
      simp only [List.append_nil] at inside inOrder ⊢
      exact anchored.replaceLines_above inOrder inside areLines grouping (Nat.lt_succ_self _)
    | cons first middle =>
      obtain ⟨rfl, rfl⟩ := List.cons_eq_cons.mp rest
      have anchored := placed shown (depth front) ⟨front, middle ++ cell :: below, by simp, rfl⟩
      refine anchored.replaceLines_above inOrder inside areLines grouping ?_
      rw [depth_append]
      omega

include placed areLines id in
/-- When the anchors are placed anew if the number of lines changes, every cell is anchored. -/
theorem exists_placed_write (distinct : (CellList.ids (above ++ cell :: below)).Nodup)
    (length : new.length = other.lineCount) (grouping : Grouping) :
    let written := buffer.replaceLines (depth above + 1) (depth above + 1 + cell.lineCount) new grouping
    ∃ anchors, (if new.length ≠ cell.lineCount then place (above ++ other :: below) written
        else written) = { written with anchors } ∧
      Placed (above ++ other :: below) { written with anchors } := by
  intro written
  have names : CellList.ids (above ++ other :: below) = CellList.ids (above ++ cell :: below) := by
    simp [id]
  -- A source of another height moves the cells below, so the anchors are set anew; one of the same
  -- height leaves every anchor on its line.
  split
  next =>
    obtain ⟨anchors, eq⟩ := place_eq (above ++ other :: below) written
    refine ⟨anchors, eq, ?_⟩
    rw [← eq]
    exact placed_of_room (names ▸ distinct) (room_write room areLines length grouping)
  next same =>
    refine ⟨written.anchors, rfl, placed_write placed room areLines id length ?_ grouping⟩
    rw [← length, not_not.mp same]

end Anchors

end Write

end Notebook.Layout

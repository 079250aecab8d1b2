import Notebook.Proofs.Session.Anchored
import Notebook.Proofs.Shadow
/-!
# Keeping the views in step

The views of a session are in step when the check of the invariants passes. Making all views anew
brings them in step whatever they were before. Writing one cell keeps them in step. So no repair
finds anything to do.
-/
namespace Notebook

open Text Layout

namespace Session

/-! ## What the check asks for -/

theorem firstDifference_eq_none_iff {k : Nat} {old new : List Text} :
    firstDifference k old new = none ↔ old = new := by
  induction old generalizing k new with
  | nil => cases new <;> simp [firstDifference]
  | cons line more ih =>
    cases new with
    | nil => simp [firstDifference]
    | cons other rest =>
      by_cases same : line = other
      · simp [firstDifference, same, ih]
      · simp [firstDifference, same]

/-- The facade shows the cells and anchors each where it stands, and so does the shadow. -/
structure InStep (session : Session) : Prop where
  facade : session.facade.lines = session.renderedLines
  anchors : Placed session.cells.cells session.facade
  shadow : session.shadow.lines = Shadow.lines session.cells.cells

theorem renderedLines_eq (session : Session) :
    session.renderedLines = (facadeFace session.settings.tag).page session.cells.cells :=
  (page_facadeFace _ _).symm

/-- The facade and the shadow of cells have as many lines. -/
theorem length_shadowLines {tag : Text} (plain : IsLine tag) (cells : List Cell) :
    (Shadow.lines cells).length = ((facadeFace tag).page cells).length := by
  rw [← page_shadowFace, length_page regular_shadowFace, length_page (regular_facadeFace plain)]

/-- The check of the invariants passes exactly if the facade is the rendering of the cells, every
anchor is on the first line of its cell, and the shadow is the shadow of the cells. -/
theorem checkInvariants_eq_ok_iff {session : Session} (plain : IsLine session.settings.tag) :
    session.checkInvariants = .ok () ↔
      session.facade.lines = session.renderedLines ∧
      (∀ cell line, StandsAt session.cells.cells cell line →
        session.facade.anchorLine cell.id = some line) ∧
      session.shadow.lines = Shadow.lines session.cells.cells := by
  unfold checkInvariants
  dsimp only
  split
  next line differs =>
    have other : session.facade.lines ≠ session.renderedLines := fun same => by
      rw [firstDifference_eq_none_iff.mpr same] at differs
      cases differs
    simp [other]
  next same =>
    have facade := firstDifference_eq_none_iff.mp same
    have anchors := verify_eq_ok_iff_anchors plain (facade.trans session.renderedLines_eq)
    split
    next drift found =>
      rw [found] at anchors
      simp [facade, ← anchors]
    next fine =>
      rw [fine] at anchors
      split
      next count =>
        have other : session.shadow.lines ≠ Shadow.lines session.cells.cells := fun shadow =>
          count (by rw [shadow, length_shadowLines plain, facade, renderedLines_eq])
        simp [other]
      next =>
        split
        next line differs =>
          have other : session.shadow.lines ≠ Shadow.lines session.cells.cells := fun shadow => by
            rw [firstDifference_eq_none_iff.mpr shadow] at differs
            cases differs
          simp [other]
        next shadow => simp [facade, ← anchors, firstDifference_eq_none_iff.mp shadow]

theorem InStep.checkInvariants {session : Session} (inStep : session.InStep)
    (plain : IsLine session.settings.tag) : session.checkInvariants = .ok () :=
  (checkInvariants_eq_ok_iff plain).mpr
    ⟨inStep.facade, fun cell line stands => (inStep.anchors cell line stands).anchorLine,
      inStep.shadow⟩

theorem InStep.ensured {session : Session} (inStep : session.InStep)
    (plain : IsLine session.settings.tag) : session.ensured = session := by
  rw [Session.ensured, inStep.checkInvariants plain]

theorem InStep.anchored {session : Session} (inStep : session.InStep)
    (plain : IsLine session.settings.tag) : session.Anchored :=
  ⟨inStep.anchors,
    room_of_page (regular_facadeFace plain) (inStep.facade.trans session.renderedLines_eq)⟩

/-! ## Making the views anew -/

theorem reloadEditor_eq (session : Session) :
    ∃ editor, session.reloadEditor = { session with editor } := by
  unfold reloadEditor
  split
  · exact ⟨session.editor, rfl⟩
  · dsimp only
    split
    · exact ⟨_, rfl⟩
    · split <;> exact ⟨_, rfl⟩

theorem cells_reloadEditor (session : Session) : session.reloadEditor.cells = session.cells := by
  obtain ⟨editor, reloaded⟩ := session.reloadEditor_eq
  rw [reloaded]

/-- Making the views anew changes the views and the editor, and nothing else. -/
theorem refreshViews_eq (session : Session) (grouping : Grouping) :
    ∃ editor, session.refreshViews grouping = { session with
      facade := place session.cells.cells
        (session.facade.setLines session.renderedLines grouping).2
      shadow := (Shadow.refresh session.shadow session.cells.cells).2
      editor } := by
  obtain ⟨editor, reloaded⟩ := reloadEditor_eq { session with
    facade := place session.cells.cells (session.facade.setLines session.renderedLines grouping).2
    shadow := (Shadow.refresh session.shadow session.cells.cells).2 }
  exact ⟨editor, reloaded⟩

theorem inStep_refreshViews {session : Session} (plain : IsLine session.settings.tag)
    (distinct : (CellList.ids session.cells.cells).Nodup) (grouping : Grouping) :
    (session.refreshViews grouping).InStep := by
  have regular := regular_facadeFace plain
  -- The facade becomes the page of the cells, so every anchor finds its line.
  have page : (session.facade.setLines session.renderedLines grouping).2.lines =
      (facadeFace session.settings.tag).page session.cells.cells := by
    rw [session.renderedLines_eq]
    exact Buffer.lines_setLines _ (page_ne_nil _ _) (areLines_page regular _) grouping
  obtain ⟨editor, refreshed⟩ := session.refreshViews_eq grouping
  rw [refreshed]
  exact ⟨by rw [lines_place, page]; exact (renderedLines_eq _).symm,
    placed_place regular distinct page, Shadow.lines_refresh _ _⟩

/-- Making the views anew puts every cell in its place, whatever the tag. -/
theorem anchored_refreshViews {session : Session} (distinct : (CellList.ids session.cells.cells).Nodup)
    (grouping : Grouping) : (session.refreshViews grouping).Anchored := by
  let written := (session.facade.setLines session.renderedLines grouping).2
  have room : depth session.cells.cells ≤ written.lineCount :=
    depth_le_lineCount (Buffer.text_setLines _ _ grouping)
  obtain ⟨editor, refreshed⟩ := session.refreshViews_eq grouping
  rw [refreshed]
  refine ⟨placed_of_room distinct room, ?_⟩
  rwa [Buffer.lineCount, text_place]

/-- Making the views anew leaves the cells alone. -/
theorem cells_rerender (session : Session) (grouping : Grouping) :
    (session.rerender grouping).cells = session.cells := by
  have refreshed (other : Session) (grouping : Grouping) :
      (other.refreshViews grouping).cells = other.cells := by
    obtain ⟨editor, refreshed⟩ := other.refreshViews_eq grouping
    rw [refreshed]
  rw [rerender, ensured]
  split
  · exact refreshed session grouping
  · rw [repairAfter, repair, refreshed]
    exact refreshed session grouping

/-- After making all views anew there is nothing to repair. -/
theorem rerender_eq {session : Session} (plain : IsLine session.settings.tag)
    (distinct : (CellList.ids session.cells.cells).Nodup) (grouping : Grouping) :
    session.rerender grouping = session.refreshViews grouping := by
  have settings : (session.refreshViews grouping).settings = session.settings := by
    obtain ⟨editor, refreshed⟩ := session.refreshViews_eq grouping
    rw [refreshed]
  exact (inStep_refreshViews plain distinct grouping).ensured (settings ▸ plain)

/-! ## Writing one cell -/

section Write

variable {session : Session} {above below : List Cell} {cell : Cell}

/-- A cell of a session in step is found where it stands. -/
theorem InStep.spanOf? (inStep : session.InStep) (plain : IsLine session.settings.tag)
    (cells : session.cells.cells = above ++ cell :: below) :
    session.spanOf? above.length = some ⟨depth above, depth above + cell.height - 1⟩ :=
  (inStep.anchored plain).spanOf? cells

theorem InStep.spanOrRepair (inStep : session.InStep) (plain : IsLine session.settings.tag)
    (index : Nat) :
    (session.cells.cells[index]? = none ∧
      session.spanOrRepair index =
        (.error (.indexOutOfRange index session.cells.length), session)) ∨
    ∃ above cell below, session.cells.cells = above ++ cell :: below ∧ above.length = index ∧
      session.spanOrRepair index =
        (.ok ⟨depth above, depth above + cell.height - 1⟩, session) :=
  (inStep.anchored plain).spanOrRepair index

theorem InStep.overwritten (inStep : session.InStep) (plain : IsLine session.settings.tag)
    (cells : session.cells.cells = above ++ cell :: below) {other : Cell} {anchors : Table Text Nat}
    {grouping : Grouping}
    (anchored : (session.overwritten above below cell other anchors grouping).Anchored)
    (kind : other.kind = cell.kind) :
    (session.overwritten above below cell other anchors grouping).InStep := by
  have page := inStep.facade.trans session.renderedLines_eq
  rw [cells] at page
  have top : (facadeFace session.settings.tag).top other =
      (facadeFace session.settings.tag).top cell := congrArg (startMarker _) kind
  have facade := lines_write (regular_facadeFace plain) page top grouping
  refine ⟨facade.trans ?_, anchored.placed, Shadow.lines_patch (cells ▸ inStep.shadow) kind⟩
  exact (session.overwritten above below cell other anchors grouping).renderedLines_eq.symm

/-- A source that can be rendered is written into all views, and leaves them in step. -/
theorem InStep.writeCell_ok (inStep : session.InStep) (plain : IsLine session.settings.tag)
    (distinct : (CellList.ids session.cells.cells).Nodup)
    (cells : session.cells.cells = above ++ cell :: below) {source : Text}
    (checked : Markup.checkSource session.settings.tag source = .ok ()) (grouping : Grouping) :
    ∃ anchors span, let other : Cell := { cell with source }
      session.writeCell above.length (Text.lines source) grouping =
        (.ok span, session.overwritten above below cell other anchors grouping) ∧
      (session.overwritten above below cell other anchors grouping).InStep := by
  obtain ⟨anchors, written, after⟩ :=
    (inStep.anchored plain).writeCell_ok distinct cells checked grouping
  exact ⟨anchors, _, written, inStep.overwritten plain cells after rfl⟩

/-- Writing a cell is refused and changes nothing, or it writes the cell into all views and leaves
them in step. -/
theorem InStep.writeCell (inStep : session.InStep) (plain : IsLine session.settings.tag)
    (distinct : (CellList.ids session.cells.cells).Nodup) (index : Nat) (source : Text)
    (grouping : Grouping) :
    (∃ fault, session.writeCell index (Text.lines source) grouping = (.error fault, session)) ∨
    ∃ above cell below anchors span, let other : Cell := { cell with source }
      session.cells.cells = above ++ cell :: below ∧ above.length = index ∧
      Markup.checkSource session.settings.tag source = .ok () ∧
      session.writeCell index (Text.lines source) grouping =
        (.ok span, session.overwritten above below cell other anchors grouping) ∧
      (session.overwritten above below cell other anchors grouping).InStep := by
  rcases (inStep.anchored plain).writeCell distinct index source grouping with
    refused | ⟨above, cell, below, anchors, cells, length, checked, written, after⟩
  · exact .inl refused
  · exact .inr ⟨above, cell, below, anchors, _, cells, length, checked, written,
      inStep.overwritten plain cells after rfl⟩

end Write

end Session

end Notebook

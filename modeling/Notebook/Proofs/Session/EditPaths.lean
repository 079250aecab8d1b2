import Notebook.Proofs.Session.Piles
import Notebook.Proofs.Session.Refusal
import Notebook.Proofs.Session.Undo
/-!
# Two ways to edit a cell

Edits of the content of one cell can be made within the cell, or as edits of the facade, from which all
cells are then read anew. The facade with the edits is the rendering of the cells with the edited source,
as long as every edit finds its lines; and edits that do not overlap find them, for only an edit further
up may lose its lines to one that was made before. So both ways lead to notebooks that show the same, and
from either one undo leads back.
-/
namespace Notebook

open Text Layout

namespace Edit

/-- A place lies in the spans of both edits. -/
def Overlaps (a b : Edit) : Prop :=
  ∃ place : Position, (place.before a.start = false ∧ place.before a.stop = true) ∧
    place.before b.start = false ∧ place.before b.stop = true

variable {edits row : List Edit} {edit : Edit} {first : Nat} {text new : Text}

theorem Apart.not_overlaps {a b : Edit} (apart : a.Apart b) : ¬a.Overlaps b := by
  rintro ⟨place, ⟨behind, above⟩, behind', above'⟩
  rw [Position.not_before_iff] at behind behind'
  rw [Position.before_iff] at above above'
  rcases apart with clear | clear
  · rw [Position.not_before_iff] at clear
    omega
  · rw [Position.not_before_iff] at clear
    omega

/-- Of two edits that do not overlap, the one made first only inserts, or is clear of the other. -/
theorem clear_of_not_overlaps {lower upper : Edit} (forward : lower.stop.before lower.start = false)
    (forward' : upper.stop.before upper.start = false) (order : lower.start.before upper.start = false)
    (separate : ¬lower.Overlaps upper) : lower.start = lower.stop ∨ Clear lower upper := by
  by_cases inserts : lower.start = lower.stop
  · exact .inl inserts
  · have some := Position.before_of_not_before_of_ne forward inserts
    -- Otherwise the start of the lower edit would lie in both spans.
    have behind : lower.start.before upper.stop = false := by
      rw [← Bool.not_eq_true]
      exact fun inside => separate
        ⟨lower.start, ⟨Position.not_before_self _, some⟩, order, inside⟩
    right
    rw [Position.not_before_iff] at forward forward' behind
    rw [Clear]
    omega

theorem foldl_of_rewriteAll? (rewritten : rewriteAll? row text = some new) :
    row.foldl (fun text edit => edit.rewrite text) text = new := by
  induction row generalizing text with
  | nil => exact Option.some.inj rewritten
  | cons edit rest ih =>
    rw [rewriteAll?] at rewritten
    split at rewritten
    next => exact ih rewritten
    next => cases rewritten

theorem insertBottomUp_shiftedUp (start : first ≤ edit.start.line)
    (below : ∀ other ∈ row, first ≤ other.start.line) :
    (edit.shiftedUp first).insertBottomUp (row.map (·.shiftedUp first)) =
      (edit.insertBottomUp row).map (·.shiftedUp first) := by
  induction row with
  | nil => rfl
  | cons other rest ih =>
    obtain ⟨here, below⟩ := List.forall_mem_cons.mp below
    have order : (edit.shiftedUp first).start.before (other.shiftedUp first).start =
        edit.start.before other.start := by
      rw [Bool.eq_iff_iff, Position.before_iff, Position.before_iff]
      dsimp only [shiftedUp]
      omega
    rw [List.map_cons, insertBottomUp, insertBottomUp, order]
    split
    · rw [ih below, List.map_cons]
    · rfl

/-- Counting from another line above all edits makes no difference to their order. -/
theorem bottomUp_shiftedUp (below : ∀ edit ∈ edits, first ≤ edit.start.line) :
    bottomUp (edits.map (·.shiftedUp first)) = (bottomUp edits).map (·.shiftedUp first) := by
  induction edits with
  | nil => rfl
  | cons edit rest ih =>
    obtain ⟨here, below⟩ := List.forall_mem_cons.mp below
    rw [List.map_cons, bottomUp_cons, ih below, bottomUp_cons, insertBottomUp_shiftedUp here fun other member =>
      below other ((bottomUp_perm rest).subset member)]

/-- Edits that lie on the lines of a text and do not overlap find their lines one after the other. -/
theorem exists_rewriteAll?_bottomUp (fits : ∀ edit ∈ edits, edit.Fits text)
    (forward : ∀ edit ∈ edits, edit.stop.before edit.start = false)
    (separate : edits.Pairwise fun a b => ¬a.Overlaps b) :
    ∃ new, rewriteAll? (bottomUp edits) text = some new := by
  have perm := bottomUp_perm edits
  have apart : (bottomUp edits).Pairwise fun a b => ¬a.Overlaps b :=
    perm.symm.pairwise separate fun apart ⟨place, one, other⟩ => apart ⟨place, other, one⟩
  refine exists_rewriteAll? (fun edit member => fits edit (perm.subset member))
    (((upward_bottomUp edits).and apart).imp_of_mem fun here there ⟨order, apart⟩ => ?_)
  exact clear_of_not_overlaps (forward _ (perm.subset here)) (forward _ (perm.subset there)) order apart

/-- Counting from another line above two edits makes no difference to whether they overlap. -/
theorem Overlaps.of_shiftedUp {a b : Edit} (above : first ≤ a.start.line ∧ first ≤ a.stop.line)
    (above' : first ≤ b.start.line ∧ first ≤ b.stop.line)
    (overlaps : (a.shiftedUp first).Overlaps (b.shiftedUp first)) : a.Overlaps b := by
  obtain ⟨place, ⟨behind, inside⟩, behind', inside'⟩ := overlaps
  refine ⟨⟨place.line + first, place.column⟩, ?_⟩
  simp only [Position.before_iff, Position.not_before_iff, shiftedUp] at *
  omega

/-- Edits on the lines that a text has from a line on, and that do not overlap, find their lines in it. -/
theorem exists_rewriteAll?_shiftedUp (inside : ∀ edit ∈ edits,
      (first ≤ edit.start.line ∧ edit.start.line < first + lineCount text) ∧
        first ≤ edit.stop.line ∧ edit.stop.line < first + lineCount text)
    (forward : ∀ edit ∈ edits, edit.stop.before edit.start = false)
    (separate : edits.Pairwise fun a b => ¬a.Overlaps b) :
    ∃ new, rewriteAll? ((bottomUp edits).map (·.shiftedUp first)) text = some new := by
  rw [← bottomUp_shiftedUp fun edit member => (inside edit member).1.1]
  apply exists_rewriteAll?_bottomUp
  · refine List.forall_mem_map.mpr fun edit member => ?_
    have lines := inside edit member
    simp only [Fits, shiftedUp]
    omega
  · refine List.forall_mem_map.mpr fun edit member => ?_
    have lines := inside edit member
    have order := forward edit member
    simp only [Position.not_before_iff, shiftedUp] at *
    omega
  · refine List.pairwise_map.mpr (separate.imp_of_mem fun {a b} here there apart overlaps => ?_)
    exact apart (overlaps.of_shiftedUp ⟨(inside a here).1.1, (inside a here).2.1⟩
      ⟨(inside b there).1.1, (inside b there).2.1⟩)

end Edit

namespace Session

variable {session within after : Session} {above below : List Cell} {cell : Cell} {edits : List Edit}

/-- The content lines of a cell, counted through the cells above it. -/
theorem containsContent_iff {line : Nat} :
    (Span.mk (depth above) (depth above + cell.height - 1)).containsContent line = true ↔
      depth above + 1 ≤ line ∧ line < depth above + 1 + lineCount cell.source := by
  have height : cell.height = 2 + lineCount cell.source := rfl
  simp only [Span.containsContent, Bool.and_eq_true, decide_eq_true_eq]
  omega

/-- The source that edits within a cell make. -/
def editedSource (above : List Cell) (cell : Cell) (edits : List Edit) : Text :=
  (Edit.applyAll (edits.map (·.shiftedUp (depth above + 1))) .alone (Buffer.ofText cell.source)).text

/-- Edits within a cell that are made: the cell is there and stands where it was expected, the edits lie on
its content lines, and the source that they make can be rendered and is the source of the cell then. -/
theorem Sound.editCell_ok (sound : session.Sound) (clean : session.editorIsDirty = false) {id : Text}
    {expected : Span} (done : session.editCell id expected edits = (.ok (), within)) :
    ∃ above cell below, session.cells.cells = above ++ cell :: below ∧
      (∀ edit ∈ edits, (Span.mk (depth above) (depth above + cell.height - 1)).containsContent
          edit.start.line = true ∧
        (Span.mk (depth above) (depth above + cell.height - 1)).containsContent edit.stop.line = true) ∧
      Markup.checkSource session.settings.tag (editedSource above cell edits) = .ok () ∧
      within.cells.cells = above ++ { cell with source := editedSource above cell edits } :: below := by
  rw [Session.editCell, flushed_of_clean clean] at done
  split at done
  next => cases done
  next index found =>
    split at done
    next cell span here stands =>
      obtain ⟨above, below, cells, rfl⟩ := exists_around here
      rw [sound.inStep.spanOf? sound.plain cells] at stands
      obtain rfl := Option.some.inj stands
      split at done
      next => cases done
      next =>
        split at done
        next => cases done
        next inside =>
          refine ⟨above, cell, below, cells, ?_, ?_⟩
          · simpa [Edit.firstOutside?, List.find?_eq_none] using inside
          · change (if editedSource above cell edits = cell.source then _ else
              session.replaceSource above.length (Text.lines (editedSource above cell edits))) = _ at done
            split at done
            next same =>
              cases done
              rw [same]
              refine ⟨sound.free cell.block ?_, cells⟩
              rw [CellList.blocks, cells]
              simp
            next =>
              cases checked : Markup.checkSource session.settings.tag
                  (editedSource above cell edits) with
              | error fault =>
                rw [Session.replaceSource, writeCell_unrendered checked] at done
                cases done
              | ok =>
                obtain ⟨anchors, replaced⟩ := sound.replaceSource_ok cells checked
                cases replaced.symm.trans done
                exact ⟨rfl, by rw [cells_reloadEditor]; rfl⟩
    next => cases done

/-- The facade with edits that find their lines in the source of a cell renders the cells, of which that
one has the edited source. -/
theorem Sound.lines_applyAll (sound : session.Sound)
    (cells : session.cells.cells = above ++ cell :: below)
    (inside : ∀ edit ∈ edits, depth above + 1 ≤ edit.start.line ∧ depth above + 1 ≤ edit.stop.line)
    {source : Text} (rewritten : Edit.rewriteAll?
      ((Edit.bottomUp edits).map (·.shiftedUp (depth above + 1))) cell.source = some source)
    (grouping : Grouping) : (Edit.applyAll edits grouping (Buffer.ofText session.facade.text)).lines =
      Markup.renderLines session.settings.tag
        ((above ++ { cell with source } :: below).map Cell.block) := by
  let face := facadeFace session.settings.tag
  let front := face.rows above ++ [face.top cell]
  let back := face.bottom :: [] :: face.rows below
  have regular := regular_facadeFace sound.plain
  have page (source : Text) : face.page (above ++ { cell with source } :: below) =
      front ++ (Text.lines source ++ back) := by
    rw [page_around, List.append_assoc, List.singleton_append]
    rfl
  have areFront : ∀ line ∈ front, IsLine line := fun line member =>
    areLines_page regular (above ++ cell :: below) line
      (page cell.source ▸ List.mem_append_left _ member)
  have length : front.length = depth above + 1 := by
    rw [List.length_append, length_rows regular, List.length_singleton]
  have text : session.facade.text = terminated front ++ (cell.source ++ '\n' :: unlines back) := by
    rw [← Edit.unlines_around front cell.source (List.cons_ne_nil _ _), ← page, ← cells,
      ← session.renderedLines_eq, ← sound.inStep.facade, Buffer.unlines_lines]
  rw [Buffer.lines, Edit.text_applyAll]
  -- The edits leave the lines in front of the source and behind it alone.
  change Text.lines (List.foldl _ session.facade.text _) = _
  rw [text, Edit.foldl_rewrite areFront (fun edit member => ?_) (length ▸ rewritten),
    ← Edit.unlines_around front source (List.cons_ne_nil _ _), ← page, ← page_facadeFace]
  · exact lines_unlines (page_ne_nil _ _) (areLines_page regular _)
  · rw [length]
    exact inside edit ((Edit.bottomUp_perm edits).subset member)

/-- Edits that find their lines in a cell are the same in its source, counted from its first line. -/
theorem editedSource_eq {source : Text}
    (below : ∀ edit ∈ edits, depth above + 1 ≤ edit.start.line) (rewritten : Edit.rewriteAll?
      ((Edit.bottomUp edits).map (·.shiftedUp (depth above + 1))) cell.source = some source) :
    editedSource above cell edits = source := by
  rw [editedSource, Edit.text_applyAll, Edit.bottomUp_shiftedUp below]
  exact Edit.foldl_of_rewriteAll? rewritten

/-! ## What is shown afterwards -/

/-- Sound sessions whose cells show the same show the same. -/
theorem Sound.showsAs_of_blocks (sound : session.Sound) {other : Session} (target : other.Sound)
    (settings : session.settings = other.settings) (blocks : session.cells.blocks = other.cells.blocks) :
    session.ShowsAs other := by
  refine sound.showsAs_of_text target settings (lines_injective ?_)
  have facade : session.facade.lines = other.facade.lines := by
    rw [sound.inStep.facade, target.inStep.facade, renderedLines, renderedLines, settings, blocks]
  exact facade

/-- A change that is a batch of splices is taken back by one undo, if no more steps were recorded than are
kept. -/
theorem Sound.undo_batched (sound : session.Sound) (move : Move session after)
    (batched : Batched session after) (changed : after.facade.text ≠ session.facade.text)
    (room : after.facade.revision ≤ session.facade.revision + session.settings.maxUndo) :
    ∃ undone, after.undo = (.ok true, undone) ∧ undone.ShowsAs session := by
  obtain ⟨⟨splices, batch⟩, still⟩ := batched
  have fits : splices.length ≤ session.settings.maxUndo := by
    rw [batch.revision] at room
    omega
  obtain ⟨back, undo, text, other, -⟩ := batch.undo_redo (batch.changed changed) fun history known => by
    obtain ⟨found, same, numbered, limit⟩ := sound.keeps
    rw [same] at known
    cases known
    exact ⟨numbered, by omega⟩
  obtain ⟨undone, undoes, shows, -⟩ := move.sound.travel_to still sound move.settings.symm undo text other
  exact ⟨undone, undoes, shows⟩

/-- Edits of the facade once the changes of the editor are brought in: if the facade with the edits can be
read, the cells show what was read, and else nothing more happens. -/
theorem editFacade_flush {middle : Session} (flush : session.flush = (.ok (), middle)) (some : edits ≠ [])
    (grouping : Grouping) :
    match Markup.parseLines middle.settings.tag
      (Edit.applyAll edits .alone (Buffer.ofText middle.facade.text)).lines with
    | .error fault => session.editFacade edits grouping = (.error (.markup fault), middle)
    | .ok blocks => ∃ after, session.editFacade edits grouping = (.ok (), after) ∧
        after.cells.blocks = blocks := by
  rw [Session.editFacade, flushed_eq, flush]
  dsimp only
  rw [if_neg some]
  cases Markup.parseLines middle.settings.tag
      (Edit.applyAll edits .alone (Buffer.ofText middle.facade.text)).lines with
  | error fault => rfl
  | ok blocks =>
    dsimp only
    split
    next unchanged => exact ⟨middle, rfl, unchanged.symm⟩
    next =>
      refine ⟨_, rfl, ?_⟩
      rw [cells_rerender]
      exact CellList.blocks_reconcile _ _

/-- Edits of the facade while the editor holds no changes: if the facade with the edits can be read, the
cells show what was read, and else nothing happens. -/
theorem editFacade_read (clean : session.editorIsDirty = false) (some : edits ≠ [])
    (grouping : Grouping) :
    match Markup.parseLines session.settings.tag
      (Edit.applyAll edits .alone (Buffer.ofText session.facade.text)).lines with
    | .error fault => session.editFacade edits grouping = (.error (.markup fault), session)
    | .ok blocks => ∃ after, session.editFacade edits grouping = (.ok (), after) ∧
        after.cells.blocks = blocks :=
  editFacade_flush (flush_of_clean clean) some grouping

/-- Edits that find their lines in a cell can be made as edits of the facade, if the edited source can be
rendered. -/
theorem Sound.editFacade_within (sound : session.Sound) (clean : session.editorIsDirty = false)
    (cells : session.cells.cells = above ++ cell :: below)
    (inside : ∀ edit ∈ edits, depth above + 1 ≤ edit.start.line ∧ depth above + 1 ≤ edit.stop.line)
    {source : Text} (rewritten : Edit.rewriteAll?
      ((Edit.bottomUp edits).map (·.shiftedUp (depth above + 1))) cell.source = some source)
    (checked : Markup.checkSource session.settings.tag source = .ok ()) (grouping : Grouping) :
    ∃ after, session.editFacade edits grouping = (.ok (), after) ∧
      after.cells.blocks = (above ++ { cell with source } :: below).map Cell.block := by
  by_cases none : edits = []
  · subst none
    obtain rfl : cell.source = source := Option.some.inj rewritten
    refine ⟨session, ?_, by rw [CellList.blocks, cells]⟩
    rw [Session.editFacade, flushed_of_clean clean, if_pos rfl]
  · have free : ∀ block ∈ (above ++ { cell with source } :: below).map Cell.block,
        endMarker session.settings.tag ∉ Text.lines block.source := by
      have others := sound.free
      rw [CellList.blocks, cells] at others
      simp only [List.map_append, List.map_cons, List.forall_mem_append, List.forall_mem_cons,
        Markup.checkSource_iff] at others ⊢
      exact ⟨others.1, Markup.checkSource_iff.mp checked, others.2.2⟩
    have read := editFacade_read clean none grouping
    rwa [sound.lines_applyAll cells inside rewritten .alone, Markup.parseLines_renderLines free] at read

/-- Edits within a cell that do not overlap, and that are made there, can also be made as edits of the
facade. The two notebooks then show the same, and one undo leads from either of them to what was shown
before, if the facade changed and no more steps were recorded than are kept. -/
theorem Reachable.editFacade_of_editCell {settings : Settings} (reachable : Reachable settings session)
    (plain : '\n' ∉ settings.tag) (clean : session.editorIsDirty = false)
    (forward : ∀ edit ∈ edits, edit.stop.before edit.start = false)
    (separate : edits.Pairwise fun a b => ¬a.Overlaps b) {id : Text} {expected : Span}
    (done : session.editCell id expected edits = (.ok (), within)) :
    ∃ across, session.editFacade edits .alone = (.ok (), across) ∧ across.ShowsAs within ∧
      ∀ after ∈ [within, across], after.facade.text ≠ session.facade.text →
        after.facade.revision ≤ session.facade.revision + settings.maxUndo →
        ∃ undone, after.undo = (.ok true, undone) ∧ undone.ShowsAs session := by
  obtain ⟨sound, rfl⟩ := reachable.sound plain
  obtain ⟨above, cell, below, cells, inside, checked, made⟩ := sound.editCell_ok clean done
  simp only [containsContent_iff] at inside
  obtain ⟨source, rewritten⟩ := Edit.exists_rewriteAll?_shiftedUp inside forward separate
  have same : editedSource above cell edits = source :=
    editedSource_eq (fun edit member => (inside edit member).1.1) rewritten
  rw [same] at checked made
  obtain ⟨across, edited, blocks⟩ := sound.editFacade_within clean cells
    (fun edit member => ⟨(inside edit member).1.1, (inside edit member).2.1⟩) rewritten checked .alone
  -- Both are changes of one sound session, so showing the same cells is enough.
  have moveWithin : Move session within := by
    have move := sound.phases (session.phases_editCell id expected edits)
    rwa [done] at move
  have moveAcross : Move session across := by
    have move := sound.phases (session.phases_editFacade edits .alone)
    rwa [edited] at move
  refine ⟨across, edited, ?_, ?_⟩
  · refine moveAcross.sound.showsAs_of_blocks moveWithin.sound
      (moveAcross.settings.trans moveWithin.settings.symm) ?_
    rw [blocks, CellList.blocks, made]
  · have batched := sound.batched_editCell clean (congrArg Prod.fst done)
    have batched' := sound.batched_editFacade clean (congrArg Prod.fst edited)
    rw [done] at batched
    rw [edited] at batched'
    intro after member
    rcases List.mem_pair.mp member with rfl | rfl
    · exact sound.undo_batched moveWithin batched
    · exact sound.undo_batched moveAcross batched'

/-- So it is with edits of which one removes a line, and the other inserts one that looks like the start of a
cell. -/
theorem editFacade_of_editCell_like_marker : ∃ before within across : Session,
    Session.ofCells [{ id := "a", kind := .code, source := "x\ny\nz" },
      { id := "b", kind := .raw, source := "w" }] {} = .ok before ∧
    before.editCell "a" ⟨0, 4⟩
      [⟨⟨1, 0⟩, ⟨1, 1⟩, "# <<ipynb:code>>\nv"⟩, ⟨⟨2, 0⟩, ⟨3, 0⟩, ""⟩] = (.ok (), within) ∧
    before.editFacade [⟨⟨1, 0⟩, ⟨1, 1⟩, "# <<ipynb:code>>\nv"⟩, ⟨⟨2, 0⟩, ⟨3, 0⟩, ""⟩] .alone =
      (.ok (), across) ∧
    across.ShowsAs within ∧ ∃ undone, across.undo = (.ok true, undone) ∧ undone.ShowsAs before := by
  have opened : Reachable {} _ := .cells (rfl : Session.ofCells
    [{ id := "a", kind := .code, source := "x\ny\nz" }, { id := "b", kind := .raw, source := "w" }] {} =
      .ok _)
  have separate : [(⟨⟨1, 0⟩, ⟨1, 1⟩, "# <<ipynb:code>>\nv"⟩ : Edit), ⟨⟨2, 0⟩, ⟨3, 0⟩, ""⟩].Pairwise
      fun a b => ¬a.Overlaps b := by
    refine List.Pairwise.imp Edit.Apart.not_overlaps ?_
    decide +kernel
  obtain ⟨across, edited, shows, undoes⟩ := opened.editFacade_of_editCell (by decide) (by decide +kernel)
    (by decide +kernel) separate
    (show Session.editCell _ "a" ⟨0, 4⟩ _ = (.ok (), _) from Prod.ext (by decide +kernel) rfl)
  refine ⟨_, _, across, rfl, Prod.ext (by decide +kernel) rfl, edited, shows, ?_⟩
  obtain rfl := congrArg Prod.snd edited
  exact undoes _ (by simp) (by decide +kernel) (by decide +kernel)

end Session

end Notebook

import Notebook.Lsp.Apply
import Notebook.Proofs.Session.Edits
import Notebook.Proofs.Session.Undo
/-!
# Formatting within one cell

What formatting makes of a cell is told by its source and by the lines of the facade down to its end
marker. Edits that reach further down are refused, whatever stands there. So it makes no difference to
a cell whether cells below it were formatted before.
-/
namespace Notebook.Lsp

open Text Layout Session

/-- The result of formatting a source whose cell stands at a span, and the source afterwards. -/
def reformat (session : Session) (span : Span) (source : Text) (proposed : List TextEdit) :
    Except RelayFault Nat × Text :=
  if proposed = [] then (.ok 0, source)
  else match (TextEdit.toEdits session.facade proposed).mapM (clip? session span) with
    | none => (.error (.crossBoundary .formatSpansCells), source)
    | some edits =>
      if (Edit.firstOutside? span edits).isSome then
        (.error (.crossBoundary .formatSpansCells), source)
      else
        let made := (Edit.applyAll (edits.map (·.shiftedUp span.contentStart)) .alone
          (Buffer.ofText source)).text
        match Markup.checkSource session.settings.tag made with
        | .error fault => (.error (.notebook (.markup fault)), source)
        | .ok () => (.ok edits.length, made)

variable {session other : Session} {span : Span} {source : Text} {proposed : List TextEdit}

@[simp] theorem reformat_nil : reformat session span source [] = (.ok 0, source) := rfl

/-- Formatting is refused across boundaries, or because the source could not be rendered. Then the
source stays. -/
theorem reformat_cases (session : Session) (span : Span) (source : Text) (proposed : List TextEdit) :
    (∃ edits, (reformat session span source proposed).1 = .ok edits) ∨
      reformat session span source proposed = (.error (.crossBoundary .formatSpansCells), source) ∨
      ∃ fault, reformat session span source proposed = (.error (.notebook (.markup fault)), source) := by
  unfold reformat
  split
  next => exact .inl ⟨0, rfl⟩
  next =>
    split
    next => exact .inr (.inl rfl)
    next edits _ =>
      split
      next => exact .inr (.inl rfl)
      next =>
        dsimp only
        split
        next fault _ => exact .inr (.inr ⟨fault, rfl⟩)
        next => exact .inl ⟨edits.length, rfl⟩

theorem reformat_refused {fault : RelayFault}
    (refused : (reformat session span source proposed).1 = .error fault) :
    (reformat session span source proposed).2 = source := by
  rcases reformat_cases session span source proposed with ⟨edits, made⟩ | made | ⟨_, made⟩
  · cases refused.symm.trans made
  · rw [made]
  · rw [made]

/-! ## What formatting does to a session -/

/-- Formatting a cell where it stands changes its source and nothing else that is shown. -/
theorem applyFormat_of_clean (sound : session.Sound) (clean : session.editorIsDirty = false)
    {above below : List Cell} {cell : Cell} (cells : session.cells.cells = above ++ cell :: below)
    (proposed : List TextEdit) :
    let span : Span := ⟨depth above, depth above + cell.height - 1⟩
    let made := reformat session span cell.source proposed
    let outcome := applyFormat session cell.id span proposed
    outcome.1 = made.1 ∧ outcome.2.cells.cells = above ++ { cell with source := made.2 } :: below ∧
      outcome.2.editorIsDirty = false := by
  intro span
  have found := CellList.indexOf?_eq sound.coherent.distinct_cells cells
  have here := CellList.get?_eq cells
  have stands : session.spanOf? above.length = some span := sound.inStep.spanOf? sound.plain cells
  unfold applyFormat reformat
  by_cases nothing : proposed = []
  · rw [if_pos nothing, if_pos nothing]
    exact ⟨rfl, cells, clean⟩
  · rw [if_neg nothing, if_neg nothing]
    cases clipped : (TextEdit.toEdits session.facade proposed).mapM (clip? session span) with
    | none => exact ⟨rfl, cells, clean⟩
    | some edits =>
      simp only [editCell, flushed_of_clean clean, found, here, stands, ne_eq, not_true_eq_false,
        if_false]
      cases outside : Edit.firstOutside? span edits with
      | some line => exact ⟨rfl, cells, clean⟩
      | none =>
        simp only [Option.isSome_none, Bool.false_eq_true, if_false]
        generalize Edit.applyAll (edits.map (·.shiftedUp span.contentStart)) .alone
          (Buffer.ofText cell.source) = scratch
        have free : Markup.checkSource session.settings.tag cell.source = .ok () := by
          apply sound.free cell.block
          rw [CellList.blocks, cells]
          simp
        by_cases same : scratch.text = cell.source
        · -- The source stays, and it can be rendered as it was before.
          simp only [same, if_true, free]
          exact ⟨trivial, cells, clean⟩
        · simp only [same, if_false]
          cases checked : Markup.checkSource session.settings.tag scratch.text with
          | error fault =>
            simp only [Session.replaceSource, Buffer.lines, writeCell_unrendered checked]
            exact ⟨trivial, cells, clean⟩
          | ok =>
            obtain ⟨anchors, replaced⟩ := sound.replaceSource_ok cells checked
            simp only [Buffer.lines, replaced, cells_reloadEditor]
            exact ⟨trivial, rfl, reloadEditor_clean _⟩

/-! ## What formatting looks at -/

theorem mem_of_mapM {α β : Type} {f : α → Option β} {row : List α} {made : List β}
    (done : row.mapM f = some made) : ∀ a ∈ row, ∃ b ∈ made, f a = some b := by
  induction row generalizing made with
  | nil => exact List.forall_mem_nil _
  | cons first rest ih =>
    rw [List.mapM_cons] at done
    obtain ⟨b, here, done⟩ := Option.bind_eq_some_iff.mp done
    obtain ⟨more, there, done⟩ := Option.bind_eq_some_iff.mp done
    obtain rfl := Option.some.inj done
    refine List.forall_mem_cons.mpr ⟨⟨b, List.mem_cons_self, here⟩, fun a member => ?_⟩
    obtain ⟨c, inside, known⟩ := ih there a member
    exact ⟨c, List.mem_cons_of_mem _ inside, known⟩

/-- Clipping leaves what reaches below the end marker. -/
theorem below_clip? {edit clipped : Edit} (done : clip? session span edit = some clipped)
    (below : span.bottom < edit.start.line ∨ span.bottom < edit.stop.line) :
    span.bottom < clipped.start.line ∨ span.bottom < clipped.stop.line := by
  unfold clip? at done
  split at done
  next stop =>
    -- It stops on the line of the end marker, so it starts further down.
    have line : edit.stop.line = span.bottom := congrArg Position.line stop
    split at done
    next =>
      obtain rfl := Option.some.inj done
      exact .inl (below.resolve_right line.le.not_gt)
    next => cases done
  next =>
    obtain rfl := Option.some.inj done
    exact below

/-- Edits that reach below the end marker are refused. -/
theorem reformat_below {edit : TextEdit} (member : edit ∈ proposed)
    (below : span.bottom < edit.range.start.line ∨ span.bottom < edit.range.stop.line) :
    reformat session span source proposed =
      (.error (.crossBoundary .formatSpansCells), source) := by
  unfold reformat
  rw [if_neg (List.ne_nil_of_mem member)]
  split
  next => rfl
  next edits clipped =>
    have listed : TextEdit.toEdit session.facade edit ∈ TextEdit.toEdits session.facade proposed :=
      (Edit.bottomUp_perm _).symm.subset (List.mem_map_of_mem member)
    obtain ⟨made, inside, done⟩ := mem_of_mapM clipped _ listed
    have below := below_clip? done below
    have outside : (Edit.firstOutside? span edits).isSome := by
      rw [Edit.firstOutside?, List.find?_isSome]
      rcases below with start | stop
      · refine ⟨made.start.line, List.mem_flatMap.mpr ⟨made, inside, by simp⟩, ?_⟩
        simp [Span.containsContent, Nat.not_lt.mpr start.le]
      · refine ⟨made.stop.line, List.mem_flatMap.mpr ⟨made, inside, by simp⟩, ?_⟩
        simp [Span.containsContent, Nat.not_lt.mpr stop.le]
    rw [if_pos outside]

/-- Nothing below the end marker matters. -/
theorem reformat_congr (settings : session.settings = other.settings)
    (same : ∀ l ≤ span.bottom, line? session.facade.text l = line? other.facade.text l) :
    reformat session span source proposed = reformat other span source proposed := by
  by_cases below : ∃ edit ∈ proposed,
      span.bottom < edit.range.start.line ∨ span.bottom < edit.range.stop.line
  · obtain ⟨edit, member, below⟩ := below
    rw [reformat_below member below, reformat_below member below]
  · have clips : clip? session span = clip? other span := by
      funext edit
      have last : lineLength session.facade.text (span.contentStop - 1) =
          lineLength other.facade.text (span.contentStop - 1) := by
        rw [lineLength, lineLength, same _ (Nat.sub_le span.contentStop 1)]
      simp only [clip?, last]
    have edits : proposed.map (TextEdit.toEdit session.facade) =
        proposed.map (TextEdit.toEdit other.facade) := by
      refine List.map_congr_left fun edit member => ?_
      have inside : edit.range.start.line ≤ span.bottom ∧ edit.range.stop.line ≤ span.bottom := by
        constructor
        · exact Nat.le_of_not_lt fun start => below ⟨edit, member, .inl start⟩
        · exact Nat.le_of_not_lt fun stop => below ⟨edit, member, .inr stop⟩
      simp only [TextEdit.toEdit, TextEdit.place, same _ inside.1, same _ inside.2]
    simp only [reformat, TextEdit.toEdits, clips, edits, settings]

/-! ## Cells below make no difference -/

/-- What is shown of cells tells the lines that show them. -/
theorem rows_eq_of_shown (tag : Text) {cells others : List Cell}
    (same : others.map shown = cells.map shown) :
    (facadeFace tag).rows others = (facadeFace tag).rows cells := by
  have view (row : List Cell) : (facadeFace tag).rows row = (row.map shown).flatMap fun entry =>
      (startMarker tag entry.2.kind :: (lines entry.2.source ++ [endMarker tag])) ++ [[]] := by
    rw [List.flatMap_map]
    rfl
  rw [view, view, same]

/-- In sound sessions that show the same cells down to one, formatting that one is the same. -/
theorem reformat_eq_of_shown (sound : session.Sound) (target : other.Sound)
    (settings : session.settings = other.settings) {above above' below below' : List Cell}
    {cell cell' : Cell} (cells : session.cells.cells = above ++ cell :: below)
    (cells' : other.cells.cells = above' ++ cell' :: below')
    (same : (above' ++ [cell']).map shown = (above ++ [cell]).map shown)
    (source : Text) (proposed : List TextEdit) :
    let span : Span := ⟨depth above, depth above + cell.height - 1⟩
    reformat session span source proposed = reformat other span source proposed := by
  intro span
  apply reformat_congr settings
  intro l inside
  have regular := regular_facadeFace sound.plain
  have rows (row rest : List Cell) (last : Cell) :
      (facadeFace session.settings.tag).page (row ++ last :: rest) =
        (facadeFace session.settings.tag).rows (row ++ [last]) ++
          (facadeFace session.settings.tag).rows rest := by
    rw [page_of_ne_nil (by simp), ← rows_append, List.append_assoc, List.singleton_append]
  have here : session.facade.lines = (facadeFace session.settings.tag).rows (above ++ [cell]) ++
      (facadeFace session.settings.tag).rows below := by
    rw [sound.inStep.facade, renderedLines_eq, cells, rows]
  have there : other.facade.lines = (facadeFace session.settings.tag).rows (above ++ [cell]) ++
      (facadeFace session.settings.tag).rows below' := by
    rw [target.inStep.facade, renderedLines_eq, cells', ← settings, rows, rows_eq_of_shown _ same]
  have bound : l < ((facadeFace session.settings.tag).rows (above ++ [cell])).length := by
    rw [length_rows regular, depth_append, depth_cons, depth_nil]
    have : l ≤ depth above + cell.height - 1 := inside
    omega
  change session.facade.lines[l]? = other.facade.lines[l]?
  rw [here, there, List.getElem?_append_left bound, List.getElem?_append_left bound]

end Notebook.Lsp

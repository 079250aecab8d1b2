import Notebook.Lsp.Apply
import Notebook.Proofs.Lsp.Replica
import Notebook.Proofs.Session.EditPaths
/-!
# Edits that start at different places

Edits of one text that replace separate spans, no two of which start at the same place, are made of the
text at once: no edit meets what another one made, even if they adjoin or take line feeds away. So the
order in which they are listed makes no difference, neither to edits within one cell nor to edits of the
facade. Replacements that a language server proposes are such edits, and their spans are the ones that the
server counts in code units of the text before all edits.
-/
namespace Notebook

open Text Session

namespace Lsp

/-- The place of a point has the offset at which a server finds the point. -/
theorem TextEdit.offsetAt_place (facade : Buffer) (point : Point) :
    offsetAt facade.text (place facade point) = Server.offsetOf facade.text point := by
  rw [offsetAt, place, Server.offsetOf, lineLength, Nat.min_eq_left (charOffset_le_length _ _)]

/-- The splice that a server understands a replacement to be. -/
def TextEdit.spliceIn (text : Text) (edit : TextEdit) : Splice :=
  let start := Server.offsetOf text edit.range.start
  ⟨start, (text.drop start).take (Server.offsetOf text edit.range.stop - start), edit.text⟩

theorem TextEdit.spliceIn_toEdit (facade : Buffer) (edit : TextEdit) :
    (edit.toEdit facade).spliceIn facade.text = edit.spliceIn facade.text := by
  simp only [Edit.spliceIn, TextEdit.spliceIn, toEdit, offsetAt_place]

/-- The same replacement counted from another line. -/
def TextEdit.shiftedUp (edit : TextEdit) (lines : Nat) : TextEdit :=
  ⟨⟨⟨edit.range.start.line - lines, edit.range.start.character⟩,
    ⟨edit.range.stop.line - lines, edit.range.stop.character⟩⟩, edit.text⟩

/-- The lines on which a replacement starts and stops are those of a text that stands from a line on. -/
def TextEdit.OnLinesOf (facade text : Text) (first : Nat) (edit : TextEdit) : Prop :=
  line? facade edit.range.start.line = line? text (edit.range.start.line - first) ∧
    line? facade edit.range.stop.line = line? text (edit.range.stop.line - first)

instance (facade text : Text) (first : Nat) (edit : TextEdit) :
    Decidable (edit.OnLinesOf facade text first) := inferInstanceAs (Decidable (_ ∧ _))

/-- So converting the columns makes no difference to where such a text stands. -/
theorem TextEdit.OnLinesOf.spliceIn {facade : Buffer} {text : Text} {first : Nat} {edit : TextEdit}
    (same : edit.OnLinesOf facade.text text first) :
    ((edit.toEdit facade).shiftedUp first).spliceIn text = (edit.shiftedUp first).spliceIn text := by
  have moved : (edit.toEdit facade).shiftedUp first =
      (edit.shiftedUp first).toEdit (Buffer.ofText text) := by
    simp only [toEdit, Edit.shiftedUp, TextEdit.shiftedUp, place, same.1, same.2]
    rfl
  rw [moved]
  exact spliceIn_toEdit (Buffer.ofText text) _

/-- Separate edits of a text that start at different places make of it what they make of it at once. -/
theorem text_applyAll_separate {buffer : Buffer} {edits : List Edit}
    (separate : Edit.Separate buffer.text edits) (distinct : (edits.map (·.start)).Nodup)
    (grouping : Grouping) : (Edit.applyAll edits grouping buffer).text =
      Splice.atOnce (edits.map (Edit.spliceIn buffer.text)) buffer.text := by
  have shared : edits.Pairwise fun a b => a.start = b.start → a.stop = a.start :=
    (List.pairwise_map.mp distinct).imp fun different same => absurd same different
  rw [Edit.text_applyAll, separate.foldl_rewrite_eq shared, Edit.piles_eq_map distinct]

/-- Separate edits of a text that start at different places are made of it at once, in whatever order they
are listed. So it is in every buffer, with edits of the facade, from which the cells are then read, with
edits within one cell, whose source they are made of, and with replacements that a language server
proposes for a text that stands from some line on. -/
theorem separate_edits_at_once {text : Text} {edits order : List Edit}
    (separate : Edit.Separate text edits) (distinct : (edits.map (·.start)).Nodup)
    (perm : order.Perm edits) :
    let made := Splice.atOnce (edits.map (Edit.spliceIn text)) text
    (∀ (buffer : Buffer) (grouping : Grouping), buffer.text = text →
      (Edit.applyAll order grouping buffer).text = made) ∧
    (∀ (session : Session) (grouping : Grouping), session.editorIsDirty = false →
      session.facade.text = text → order ≠ [] →
      match Markup.parse session.settings.tag made with
      | .error fault => session.editFacade order grouping = (.error (.markup fault), session)
      | .ok blocks => ∃ after, session.editFacade order grouping = (.ok (), after) ∧
          after.cells.blocks = blocks) ∧
    (∀ (session : Session) (index : Nat) (cell : Cell) (span : Span) (listed : List Edit),
      session.editorIsDirty = false → session.cells.indexOf? cell.id = some index →
      session.cells.get? index = some cell → session.spanOf? index = some span → cell.source = text →
      Edit.firstOutside? span listed = none → listed.map (·.shiftedUp span.contentStart) = order →
      session.editCell cell.id span listed =
        if made = text then (.ok (), session) else session.replaceSource index (lines made)) ∧
    ∀ (facade buffer : Buffer) (first : Nat) (proposed : List TextEdit) (grouping : Grouping),
      buffer.text = text → (∀ edit ∈ proposed, edit.OnLinesOf facade.text text first) →
      (proposed.map fun edit => (edit.toEdit facade).shiftedUp first) = order →
      (Edit.applyAll ((TextEdit.toEdits facade proposed).map (·.shiftedUp first)) grouping buffer).text =
        Splice.atOnce (proposed.map fun edit => (edit.shiftedUp first).spliceIn text) text := by
  intro made
  have applied {row : List Edit} (perm : row.Perm edits) (buffer : Buffer) (grouping : Grouping)
      (same : buffer.text = text) : (Edit.applyAll row grouping buffer).text = made := by
    subst same
    have distinct : (row.map (·.start)).Nodup := (perm.map _).nodup_iff.mpr distinct
    rw [text_applyAll_separate (separate.perm perm.symm) distinct]
    exact (separate.perm perm.symm).atOnce_perm distinct perm
  refine ⟨fun buffer grouping same => applied perm buffer grouping same, ?_, ?_, ?_⟩
  · intro session grouping clean same some
    have tried := applied perm (Buffer.ofText session.facade.text) .alone same
    have read := editFacade_read clean some grouping
    rwa [Buffer.lines, tried] at read
  · intro session index cell span listed clean found here stands source inside counted
    subst source
    have tried := applied perm (Buffer.ofText cell.source) .alone rfl
    simp only [Session.editCell, flushed_of_clean clean, found, here, stands, inside, counted,
      Buffer.lines, tried, ne_eq, not_true_eq_false, if_false]
  · intro facade buffer first proposed grouping same onLines counted
    -- Turning replacements into edits sorts them, which does not matter here.
    have listed : ((TextEdit.toEdits facade proposed).map (·.shiftedUp first)).Perm order := by
      have sorted := (Edit.bottomUp_perm (proposed.map (TextEdit.toEdit facade))).map
        (·.shiftedUp first)
      rwa [List.map_map, Function.comp_def, counted] at sorted
    have resolved : order.map (Edit.spliceIn text) =
        proposed.map fun edit => (edit.shiftedUp first).spliceIn text := by
      rw [← counted, List.map_map]
      exact List.map_congr_left fun edit member => (onLines edit member).spliceIn
    rw [applied (listed.trans perm) buffer grouping same, ← resolved]
    exact separate.atOnce_perm distinct perm.symm

/-- So it is with edits in a cell of which one takes the line feed away that another one starts behind. -/
theorem joined_lines_at_once : ∃ session : Session,
    Session.ofCells [{ id := "a", kind := .code, source := "ab\ncd" }] {} = .ok session ∧
    session.editCell "a" ⟨0, 3⟩
        [⟨⟨1, 1⟩, ⟨2, 0⟩, ""⟩, ⟨⟨1, 0⟩, ⟨1, 0⟩, "é"⟩, ⟨⟨2, 0⟩, ⟨2, 1⟩, "x\ny"⟩] =
      session.replaceSource 0 (lines "éax\nyd") := by
  have separate : Edit.Separate "ab\ncd"
      [⟨⟨1, 0⟩, ⟨1, 1⟩, "x\ny"⟩, ⟨⟨0, 1⟩, ⟨1, 0⟩, ""⟩, ⟨⟨0, 0⟩, ⟨0, 0⟩, "é"⟩] :=
    ⟨by decide +kernel, by decide +kernel, by decide +kernel⟩
  have perm : [⟨⟨0, 1⟩, ⟨1, 0⟩, ""⟩, ⟨⟨0, 0⟩, ⟨0, 0⟩, "é"⟩, ⟨⟨1, 0⟩, ⟨1, 1⟩, "x\ny"⟩].Perm
      [(⟨⟨1, 0⟩, ⟨1, 1⟩, "x\ny"⟩ : Edit), ⟨⟨0, 1⟩, ⟨1, 0⟩, ""⟩, ⟨⟨0, 0⟩, ⟨0, 0⟩, "é"⟩] := by
    decide +kernel
  refine ⟨_, rfl, ?_⟩
  refine ((separate_edits_at_once separate (by decide +kernel) perm).2.2.1 _ 0
    { id := "a", kind := .code, source := "ab\ncd" } _ _ ?_ ?_ ?_ ?_ rfl ?_ rfl).trans (if_neg ?_)
  all_goals decide +kernel

end Lsp

end Notebook

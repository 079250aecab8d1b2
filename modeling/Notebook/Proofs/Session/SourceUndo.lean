import Notebook.Proofs.CellList.InPlace
import Notebook.Proofs.Session.Restore
/-!
# Undo of a change of one source

Undo brings the former source back into the text, and the cells are read from that. The cell that was
changed is not found by its block then, so it comes back only if nothing that was removed before shows
what it showed.
-/
namespace Notebook

namespace CellList

/-- Reading what a cell showed before it was written mistakes it for nothing but a removed one. -/
theorem unmistaken_written {list : CellList} {above below : List Cell} {cell : Cell} {source : Text}
    (cells : list.cells = above ++ { cell with source } :: below) (differs : source ≠ cell.source)
    (before : ((above ++ cell :: below).map Cell.block).Nodup) (after : list.blocks.Nodup) :
    list.Unmistaken ((above ++ cell :: below).map Cell.block) ↔
      ∀ gone ∈ list.removed, gone.block ≠ cell.block := by
  have pairs : list.cells.zip ((above ++ cell :: below).map Cell.block) =
      above.map own ++ ({ cell with source }, cell.block) :: below.map own := by
    rw [cells, zip_amid]
  constructor
  · intro unmistaken gone member same
    -- What is read at the place of the written cell is not what it shows.
    have changed : ¬Still ({ cell with source }, cell.block) := by
      simp [Still, Cell.block, differs]
    refine changed (unmistaken.forgotten ({ cell with source }, cell.block) ?_ gone member same)
    rw [pairs]
    simp
  · intro forgotten
    have kinds : ((above ++ cell :: below).map Cell.block).map Block.kind =
        list.cells.map Cell.kind := by
      rw [cells, List.map_map, List.map_append, List.map_append]
      rfl
    rw [blocks, cells] at after
    refine ⟨kinds, ?_, ?_⟩
    · rw [pairs]
      exact pairwise_amid before after
    · rw [pairs]
      exact forgotten_amid forgotten

/-- The cells before one of them was written come back from what they showed exactly if no removed cell
shows what the written one showed. -/
theorem cells_reconcile_written_iff {list : CellList} (coherent : list.Coherent)
    {above below : List Cell} {cell : Cell} {source : Text}
    (cells : list.cells = above ++ { cell with source } :: below) (differs : source ≠ cell.source)
    (before : ((above ++ cell :: below).map Cell.block).Nodup) (after : list.blocks.Nodup) :
    (list.reconcile ((above ++ cell :: below).map Cell.block)).cells = above ++ cell :: below ↔
      ∀ gone ∈ list.removed, gone.block ≠ cell.block := by
  rw [← unmistaken_written cells differs before after]
  constructor
  · intro restored
    apply unmistaken_of_ids coherent
    · rw [cells, List.map_map, List.map_append, List.map_append]
      rfl
    · rw [restored, cells]
      simp
  · intro unmistaken
    rw [unmistaken.cells_reconcile, inPlace, cells, zip_amid, List.map_append, List.map_cons,
      map_rewritten_own, map_rewritten_own]
    rfl

end CellList

namespace Session

variable {settings : Settings} {before after : Session}

/-- When no two live cells show the same, neither before nor after the source of one of them was
changed, undo restores all cells as they were before the change, the changed one with its identity,
outputs, count, metadata and all else, exactly if no removed cell that is remembered shows what that
one showed. -/
theorem Reachable.undo_restores_source_iff (reachable : Reachable settings before)
    (plain : '\n' ∉ settings.tag) (clean : before.editorIsDirty = false)
    (apart : before.cells.blocks.Nodup) (index : Nat) (source : Text) {cell : Cell}
    (here : before.cells.get? index = some cell) (differs : source ≠ cell.source)
    (done : (Operation.setSource index source).perform before = (.ok (), after))
    (distinct : after.cells.blocks.Nodup) :
    ∃ undone, after.undo = (.ok true, undone) ∧ (undone.cells.cells = before.cells.cells ↔
      ∀ gone ∈ before.cells.removed, gone.block ≠ cell.block) := by
  obtain ⟨sound, rfl⟩ := reachable.sound plain
  have soundAfter : after.Sound := by
    have move := sound.perform (.setSource index source)
    rw [done] at move
    exact move.sound
  have written : before.replaceSource index (Text.lines source) = (.ok (), after) := by
    obtain ⟨⟨result, ok⟩, left⟩ := Operation.settle_eq_ok done
    rw [Session.setSource, flushed_of_clean clean] at ok left
    exact Prod.ext ok left
  rcases sound.replaceSource_cases index source with
    ⟨fault, refused⟩ | ⟨above, found, below, anchors, editor, cells, rfl, -, wrote⟩
  · cases refused.symm.trans written
  obtain rfl : found = cell := by
    have there := here
    rw [CellList.get?, cells] at there
    simpa using there
  obtain rfl : _ = after := congrArg Prod.snd (wrote.symm.trans written)
  -- The facade shows other cells, so its text is another one, and it took one splice to write it.
  have changed : (before.overwritten above below found { found with source } anchors
      .alone).facade.text ≠ before.facade.text := by
    intro same
    have blocks := (soundAfter.showsAs_of_text sound rfl same).blocks
    simp only [CellList.blocks, Session.overwritten, cells, List.map_append, List.map_cons,
      List.append_cancel_left_eq, List.cons.injEq, Cell.block, Block.mk.injEq] at blocks
    exact differs blocks.1.2
  have single : (before.overwritten above below found { found with source } anchors
      .alone).facade.revision ≤ before.facade.revision + 1 := by
    rcases before.facade.replaceLines_cases (Layout.depth above + 1)
      (Layout.depth above + 1 + found.lineCount) (Text.lines source) .alone with idle | ⟨a, b, c, eq, -⟩
    · simp [Session.overwritten, Cell.lines, idle]
    · simp [Session.overwritten, Cell.lines, eq, Buffer.replace, Buffer.apply]
  have change : (Operation.setSource above.length source).isChange = true := rfl
  -- So undo takes back this splice and no other, and the cells are read from the former text.
  obtain ⟨undone, -, undoes, -, read, -⟩ := sound.undo_redo clean change done changed
    (Nat.le_trans single (by omega))
  refine ⟨undone, undoes, ?_⟩
  rw [CellList.blocks, cells] at apart
  rw [read, CellList.blocks, cells]
  exact CellList.cells_reconcile_written_iff soundAfter.coherent rfl differs apart distinct

/-- So a cell comes back that was changed while another one lay removed. -/
theorem undo_restores_source_beside_removed : ∃ opened before after : Session,
    Session.ofCells [{ id := "a", kind := .code, source := "x" },
      { id := "b", kind := .code, source := "y", executionCount := some 2 }] {} = .ok opened ∧
    before = (Operation.perform opened (.deleteCell 0)).2 ∧
    (Operation.setSource 0 "x").perform before = (.ok (), after) ∧
    ∃ undone, after.undo = (.ok true, undone) ∧ undone.cells.cells = before.cells.cells := by
  have opened : Reachable {} _ := .cells (rfl :
    Session.ofCells [{ id := "a", kind := .code, source := "x" },
      { id := "b", kind := .code, source := "y", executionCount := some 2 }] {} = .ok _)
  have before := opened.step (.deleteCell 0)
  refine ⟨_, _, _, rfl, rfl, Prod.ext (by decide +kernel) rfl, ?_⟩
  obtain ⟨undone, undoes, restored⟩ := before.undo_restores_source_iff (by decide)
    (by decide +kernel) (by decide +kernel) 0 "x" rfl (by decide +kernel)
    (Prod.ext (by decide +kernel) rfl) (by decide +kernel)
  exact ⟨undone, undoes, restored.mpr (by decide +kernel)⟩

/-- But if the removed cell shows what the changed one showed before, it comes back in the place of
that one. And under a tag with a line feed no facade is read at all: the undo is refused, and the
change stays. -/
theorem undo_brings_back_removed :
    (∃ opened before after undone : Session,
      Session.ofCells [{ id := "a", kind := .code, source := "x" },
        { id := "b", kind := .code, source := "y", executionCount := some 2 }] {} = .ok opened ∧
      before = (Operation.perform (Operation.perform opened (.deleteCell 0)).2
        (.setSource 0 "x")).2 ∧
      before.editorIsDirty = false ∧
      before.cells.cells = [{ id := "b", kind := .code, source := "x", executionCount := some 2 }] ∧
      (Operation.setSource 0 "z").perform before = (.ok (), after) ∧
      after.undo = (.ok true, undone) ∧
      undone.cells.cells = [{ id := "a", kind := .code, source := "x" }]) ∧
    ∃ before after undone : Session,
      Session.ofCells [{ id := "a", kind := .code, source := "x" }] { tag := "\n" } = .ok before ∧
      before.editorIsDirty = false ∧
      (Operation.setSource 0 "y").perform before = (.ok (), after) ∧
      after.undo = (.error (.markup (.strayText 0)), undone) ∧
      undone.cells.cells = [{ id := "a", kind := .code, source := "y" }] := by
  constructor
  · exact ⟨_, _, _, _, rfl, rfl, by decide +kernel, by decide +kernel,
      Prod.ext (by decide +kernel) rfl, Prod.ext (by decide +kernel) rfl, by decide +kernel⟩
  · exact ⟨_, _, _, rfl, by decide +kernel, Prod.ext (by decide +kernel) rfl,
      Prod.ext (by decide +kernel) rfl, by decide +kernel⟩

end Session

end Notebook

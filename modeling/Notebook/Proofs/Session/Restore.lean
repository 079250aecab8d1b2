import Notebook.Proofs.CellList.Recovery
import Notebook.Proofs.Session.Undo
/-!
# Undo brings cells back as they were

Undo and redo restore texts, and the cells are read from them again. If no two live cells show the
same, an insertion, a removal or a move is one splice of the facade; reading the facade before it
recovers the very cells that were live then, and reading the facade after it those that it had left.
-/
namespace Notebook

/-- The operation adds, removes or moves one cell, and what it adds shows what no live cell shows. -/
def Operation.Rearranges (session : Session) : Operation → Prop
  | insertCell _ kind source => ⟨kind, source⟩ ∉ session.cells.blocks
  | deleteCell _ | moveCell _ _ => True
  | _ => False

namespace Session

variable {session before after : Session}

/-- A structural change that succeeds leaves the changed cells and takes one splice at most. -/
theorem Sound.restructured_ok {α : Type} (sound : before.Sound)
    (clean : before.editorIsDirty = false) {change : CellList → Except Fault (α × CellList)}
    (coherent : ∀ result cells, change before.cells = .ok (result, cells) → cells.Coherent)
    {result : α} (done : (before.restructured change).1 = .ok result)
    (left : (before.restructured change).2 = after) :
    change before.cells = .ok (result, after.cells) ∧
      after.facade.revision ≤ before.facade.revision + 1 := by
  rw [Session.restructured, flushed_of_clean clean] at done left
  split at done
  next => cases done
  next found cells changed =>
    cases done
    let next : Session := { before with cells }
    have plain : Text.IsLine next.settings.tag := sound.plain
    have distinct : (CellList.ids next.cells.cells).Nodup := (coherent _ cells changed).distinct_cells
    obtain ⟨facade, same, -⟩ := rerender_spec plain distinct .alone
    obtain rfl : next.rerender .alone = after := by
      rw [changed] at left
      exact left
    constructor
    · rw [same]
      exact changed
    · rw [facade, Layout.revision_place]
      rcases next.facade.setLines_cases next.renderedLines .alone with idle | ⟨a, b, inserted, eq, -⟩
      · rw [idle]
        exact Nat.le_succ _
      · rw [eq]
        exact Nat.le_refl _

theorem restores_of_rearranges (sound : before.Sound) (clean : before.editorIsDirty = false)
    (apart : before.cells.blocks.Nodup) {operation : Operation}
    (rearranges : operation.Rearranges before) (done : operation.perform before = (.ok (), after)) :
    operation.isChange = true ∧ after.facade.revision ≤ before.facade.revision + 1 ∧
      CellList.Restores before.cells after.cells := by
  cases operation with
  | insertCell index kind source =>
    obtain ⟨⟨id, ok⟩, left⟩ := Operation.settle_eq_ok done
    obtain ⟨inserted, single⟩ := sound.restructured_ok clean (fun id cells inserted => by
      split at inserted
      · cases inserted
      · exact sound.coherent.insert inserted) ok left
    -- The source was found to be fit before a cell was made of it.
    split at inserted
    · cases inserted
    · exact ⟨rfl, single, CellList.restores_insert apart inserted rearranges⟩
  | deleteCell index =>
    obtain ⟨⟨cell, ok⟩, left⟩ := Operation.settle_eq_ok done
    obtain ⟨taken, single⟩ := sound.restructured_ok clean
      (fun _ _ taken => sound.coherent.remove taken) ok left
    exact ⟨rfl, single, CellList.restores_remove apart taken⟩
  | moveCell source target =>
    obtain ⟨⟨result, ok⟩, left⟩ := Operation.settle_eq_ok done
    obtain ⟨moved, single⟩ := sound.restructured_ok clean
      (fun _ _ moved => sound.coherent.move (ok_of_map_unit moved)) ok left
    exact ⟨rfl, single, CellList.restores_move apart (ok_of_map_unit moved)⟩
  | _ => cases rearranges

/-- When no two live cells show the same, undo of an insertion, a removal or a move that changed the
facade restores the cells as they were, with identities, outputs, counts, progress, metadata and all
else, and redo restores the cells that it had left. It does not matter which cells are remembered, how
many they are, nor how many steps the history keeps. -/
theorem Reachable.undo_restores_cells {settings : Settings} (reachable : Reachable settings before)
    (plain : '\n' ∉ settings.tag) (clean : before.editorIsDirty = false)
    (apart : before.cells.blocks.Nodup) (operation : Operation)
    (rearranges : operation.Rearranges before) (done : operation.perform before = (.ok (), after))
    (changed : after.facade.text ≠ before.facade.text) :
    ∃ undone redone, after.undo = (.ok true, undone) ∧ undone.cells.cells = before.cells.cells ∧
      undone.redo = (.ok true, redone) ∧ redone.cells.cells = after.cells.cells := by
  obtain ⟨sound, -⟩ := reachable.sound plain
  obtain ⟨change, single, restores⟩ := restores_of_rearranges sound clean apart rearranges done
  -- Whatever the settings say, one step is kept.
  obtain ⟨undone, redone, undoes, -, back, redoes, -, forth⟩ :=
    sound.undo_redo clean change done changed (by omega)
  refine ⟨undone, redone, undoes, ?_, redoes, ?_⟩
  · rw [back]
    exact restores.back
  · rw [forth, back]
    exact restores.forth

/-- So it is when the cell that is removed shows the same as one that was removed before it. -/
theorem undo_restores_cells_among_equals : ∃ opened before after : Session,
    Session.ofCells [{ id := "a", kind := .code, source := "x" },
      { id := "b", kind := .code, source := "y" }] {} = .ok opened ∧
    before = (Operation.perform (Operation.perform opened (.deleteCell 0)).2
      (.insertCell 1 .code "x")).2 ∧
    CellList.ids before.cells.removed = ["a"] ∧ CellList.ids before.cells.cells = ["b", "00000000"] ∧
    Operation.perform before (.deleteCell 1) = (.ok (), after) ∧
    ∃ undone redone, after.undo = (.ok true, undone) ∧ undone.cells.cells = before.cells.cells ∧
      undone.redo = (.ok true, redone) ∧ redone.cells.cells = after.cells.cells := by
  have opened : Reachable {} _ := .cells (rfl :
    Session.ofCells [{ id := "a", kind := .code, source := "x" },
      { id := "b", kind := .code, source := "y" }] {} = .ok _)
  have before := (opened.step (.deleteCell 0)).step (.insertCell 1 .code "x")
  refine ⟨_, _, _, rfl, rfl, by decide +kernel, by decide +kernel,
    Prod.ext (by decide +kernel) rfl, ?_⟩
  exact before.undo_restores_cells (by decide) (by decide +kernel) (by decide +kernel)
    (.deleteCell 1) trivial (Prod.ext (by decide +kernel) rfl) (by decide +kernel)

end Session

end Notebook

import Notebook.Proofs.CellList.InPlace
import Notebook.Proofs.Session.Restore
/-!
# Undo of a change of kind

Undo brings the former kind back into the text, and the cells are read from that. A block takes over
the cell at its own place only if both have the same kind, so the cell that was changed is not found
again: a removed cell stands in for it, or a fresh one.
-/
namespace Notebook

namespace CellList

variable {pairs : List (Cell × Block)} {above below : List Cell} {cell other : Cell}

theorem kind_retyped (kind : Kind) (cell : Cell) : (retyped kind cell).kind = kind := by
  unfold retyped
  split <;> rfl

/-- Where a cell of another kind stands at the place of a block, the second pass takes over nothing. -/
theorem matchPosition_unlike (unlike : ∀ pair ∈ pairs, Still pair ∨ pair.1.kind ≠ pair.2.kind) :
    matchPosition (pairs.map ownSlot) (pairs.map ownCandidate) =
      (pairs.map ownSlot, pairs.map ownCandidate) := by
  induction pairs with
  | nil => rfl
  | cons pair more ih =>
    obtain ⟨here, others⟩ := List.forall_mem_cons.mp unlike
    simp only [List.map_cons, matchPosition, ih others]
    rcases here with still | kind
    · simp [ownSlot, still]
    · simp [ownSlot, ownCandidate, kind]

theorem fill_append (list : CellList) (front : List Cell) (slots : List Slot) :
    fill list (front.map (fun cell => ⟨cell.block, some cell⟩) ++ slots) =
      (front ++ (fill list slots).1, (fill list slots).2) := by
  induction front with
  | nil => rfl
  | cons cell more ih => simp [fill, ih]

/-- What is read at the place of a cell of another kind: the removed cell that shows it and was removed
last, or a fresh one. -/
def standIn (list : CellList) (block : Block) : Cell :=
  (list.removed.find? fun gone => gone.block = block).getD
    { id := list.freshId.1, kind := block.kind, source := block.source }

theorem block_standIn (list : CellList) (block : Block) : (list.standIn block).block = block := by
  unfold standIn
  cases found : list.removed.find? fun gone => gone.block = block with
  | none => rfl
  | some gone => simpa using List.find?_some found

theorem standIn_cases (list : CellList) (block : Block) :
    (list.removed.find? fun gone => gone.block = block) = some (list.standIn block) ∨
      (∀ gone ∈ list.removed, gone.block ≠ block) ∧ (list.standIn block).id ∉ list.issued ∧
        Blank (list.standIn block) := by
  unfold standIn
  cases found : list.removed.find? fun gone => gone.block = block with
  | none => exact .inr ⟨by simpa using found, list.freshId_not_issued, rfl⟩
  | some gone => exact .inl rfl

/-- No live cell stands in. -/
theorem Coherent.standIn_ne {list : CellList} (coherent : list.Coherent) (block : Block)
    (member : cell ∈ list.cells) : (list.standIn block).id ≠ cell.id := by
  have live : cell.id ∈ ids list.cells := List.mem_map_of_mem member
  unfold standIn
  intro same
  cases found : list.removed.find? fun gone => gone.block = block with
  | none =>
    have fresh : list.freshId.1 = cell.id := by rwa [found, Option.getD_none] at same
    exact list.freshId_not_issued (fresh ▸ coherent.issued _ (List.mem_append_left _ live))
  | some gone =>
    rw [found, Option.getD_some] at same
    have removed : gone.id ∈ ids list.removed :=
      List.mem_map_of_mem (List.mem_of_find?_eq_some found)
    exact (List.nodup_append.mp coherent.distinct).2.2 _ live _ removed same.symm

section Unlike

variable {list : CellList} (cells : list.cells = above ++ other :: below)
  (unlike : other.kind ≠ cell.kind) (before : ((above ++ cell :: below).map Cell.block).Nodup)
  (after : list.blocks.Nodup)

include cells unlike before after

/-- A removed cell comes back that shows what is read. -/
theorem cells_reconcile_revived {gone : Cell}
    (found : (list.removed.find? fun gone => gone.block = cell.block) = some gone) :
    (list.reconcile ((above ++ cell :: below).map Cell.block)).cells = above ++ gone :: below := by
  have shows : gone.block = cell.block := by simpa using List.find?_some found
  have changed : other.block ≠ cell.block := fun same => unlike (congrArg Block.kind same)
  have target : (above ++ gone :: below).map Cell.block = (above ++ cell :: below).map Cell.block := by
    simp [shows]
  rw [← target] at before ⊢
  apply cells_reconcile_offered before
  -- The others are found by what they show. What is read at the place of the one, no live cell shows.
  have alive (cell : Cell) (member : cell ∈ list.cells) : Offered list.cells list.removed cell :=
    offered_live (revive_of_mem after member)
  have missing : (revive gone.block list.cells).1 = none := by
    apply revive_of_not_mem
    rw [List.map_append, List.map_cons] at before
    obtain ⟨-, lower, upper⟩ := List.nodup_append.mp before
    rw [cells, List.map_append, List.map_cons, List.mem_append, List.mem_cons, not_or, not_or]
    refine ⟨fun member => ?_, shows ▸ changed.symm, (List.nodup_cons.mp lower).1⟩
    exact upper _ member _ List.mem_cons_self rfl
  rw [List.forall_mem_append, List.forall_mem_cons]
  refine ⟨fun cell member => alive cell ?_, ?_, fun cell member => alive cell ?_⟩
  · rw [cells]
    exact List.mem_append_left _ member
  · rw [Offered, missing, Option.none_or, shows]
    exact found
  · rw [cells]
    exact List.mem_append_right _ (List.mem_cons_of_mem _ member)

/-- A fresh cell is made if no removed one shows what is read. -/
theorem cells_reconcile_fresh (forgotten : ∀ gone ∈ list.removed, gone.block ≠ cell.block) :
    (list.reconcile ((above ++ cell :: below).map Cell.block)).cells =
      above ++ { id := list.freshId.1, kind := cell.kind, source := cell.source } :: below := by
  have pairs : list.cells.zip ((above ++ cell :: below).map Cell.block) =
      above.map own ++ (other, cell.block) :: below.map own := by
    rw [cells, zip_amid]
  have changed : ¬Still (other, cell.block) := fun same => unlike (congrArg Block.kind same)
  rw [blocks, cells] at after
  have equal := matchEqual_zip (by simp [cells]) (pairs ▸ pairwise_amid before after)
    (pairs ▸ forgotten_amid forgotten)
  rw [pairs] at equal
  -- The first pass finds nothing for the one block, and the second one refuses the cell at its place.
  have position := @matchPosition_unlike (above.map own ++ (other, cell.block) :: below.map own) <| by
    rw [List.forall_mem_append, List.forall_mem_cons, List.forall_mem_map, List.forall_mem_map]
    exact ⟨fun _ _ => .inl rfl, .inr unlike, fun _ _ => .inl rfl⟩
  have slots : (above.map own ++ (other, cell.block) :: below.map own).map ownSlot =
      above.map (fun cell => ⟨cell.block, some cell⟩) ++ ⟨cell.block, none⟩ ::
        below.map fun cell => ⟨cell.block, some cell⟩ := by
    rw [List.map_append, List.map_cons, List.map_map, List.map_map, ownSlot, if_neg changed,
      show ownSlot ∘ own = fun cell => ⟨cell.block, some cell⟩ from funext ownSlot_own]
  simp only [reconcile, equal, position]
  rw [slots, fill_append]
  simp only [fill, fill_filled]
  rfl

/-- When one cell has another kind than what is read at its place, and no two show the same, the others
come back as they are. -/
theorem cells_reconcile_unlike :
    (list.reconcile ((above ++ cell :: below).map Cell.block)).cells =
      above ++ list.standIn cell.block :: below := by
  unfold standIn
  cases found : list.removed.find? fun gone => gone.block = cell.block with
  | some gone => exact cells_reconcile_revived cells unlike before after found
  | none =>
    exact cells_reconcile_fresh cells unlike before after (by simpa [List.find?_eq_none] using found)

end Unlike

end CellList

namespace Session

variable {settings : Settings} {before after : Session}

/-- When no two live cells show the same, neither before nor after the kind of one of them was changed,
undo gives its place back the former kind and source, and leaves every other cell as it was. But the
cell that stands there is another one: the removed cell that shows the same and was removed last, as it
was when it was removed, and if there is none a fresh one, of which nothing else is known. -/
theorem Reachable.undo_setKind (reachable : Reachable settings before)
    (plain : '\n' ∉ settings.tag) (clean : before.editorIsDirty = false)
    (apart : before.cells.blocks.Nodup) (index : Nat) (kind : Kind) {cell : Cell}
    (here : before.cells.get? index = some cell) (differs : kind ≠ cell.kind)
    (done : (Operation.setKind index kind).perform before = (.ok (), after))
    (distinct : after.cells.blocks.Nodup) :
    ∃ undone other, after.undo = (.ok true, undone) ∧
      undone.cells.cells = before.cells.cells.set index other ∧
      other.block = cell.block ∧ other.id ≠ cell.id ∧
      ((before.cells.removed.find? fun gone => gone.block = cell.block) = some other ∨
        (∀ gone ∈ before.cells.removed, gone.block ≠ cell.block) ∧
          other.id ∉ before.cells.issued ∧ CellList.Blank other) := by
  obtain ⟨sound, rfl⟩ := reachable.sound plain
  obtain ⟨soundAfter, kept⟩ : Move before after := by
    have move := sound.perform (.setKind index kind)
    rwa [done] at move
  obtain ⟨⟨result, ok⟩, left⟩ := Operation.settle_eq_ok done
  obtain ⟨retyping, single⟩ := sound.restructured_ok clean
    (fun _ _ changed => sound.coherent.setKind (ok_of_map_unit changed)) ok left
  obtain ⟨above, below, cells, rfl⟩ := exists_around here
  have list : after.cells = { before.cells with
      cells := above ++ CellList.retyped kind cell :: below } := by
    rw [CellList.setKind_ok (ok_of_map_unit retyping), CellList.modifyAt, cells, modify_around]
  have unlike : (CellList.retyped kind cell).kind ≠ cell.kind := by
    rwa [CellList.kind_retyped]
  -- The facade shows another kind, so its text is another one, and it took one splice to write it.
  have changed : after.facade.text ≠ before.facade.text := by
    intro same
    have blocks := (soundAfter.showsAs_of_text sound kept same).blocks
    rw [CellList.blocks, CellList.blocks, list, cells, List.map_append, List.map_append,
      List.append_cancel_left_eq, List.map_cons, List.map_cons, List.cons.injEq] at blocks
    exact unlike (congrArg Block.kind blocks.1)
  have change : (Operation.setKind above.length kind).isChange = true := rfl
  -- So undo takes back this splice and no other, and the cells are read from the former text.
  obtain ⟨undone, -, undoes, -, read, -⟩ := sound.undo_redo clean change done changed (by omega)
  have member : cell ∈ before.cells.cells := cells ▸ List.mem_append_right _ List.mem_cons_self
  refine ⟨undone, before.cells.standIn cell.block, undoes, ?_, CellList.block_standIn _ _,
    sound.coherent.standIn_ne _ member, ?_⟩
  · rw [CellList.blocks, cells] at apart
    rw [read, CellList.blocks, cells, List.set_append_right _ _ (Nat.le_refl _), Nat.sub_self,
      List.set_cons_zero,
      CellList.cells_reconcile_unlike (congrArg CellList.cells list) unlike apart distinct, list]
    rfl
  · exact before.cells.standIn_cases cell.block

/-- So it is while another cell lies removed that shows the same. -/
theorem undo_setKind_beside_removed : ∃ opened before after : Session,
    Session.ofCells [{ id := "a", kind := .code, source := "x" },
      { id := "b", kind := .code, source := "y" }] {} = .ok opened ∧
    before = (Operation.perform (Operation.perform opened (.deleteCell 0)).2
      (.insertCell 1 .code "x")).2 ∧
    CellList.ids before.cells.cells = ["b", "00000000"] ∧
    (Operation.setKind 1 .markdown).perform before = (.ok (), after) ∧
    ∃ undone other, after.undo = (.ok true, undone) ∧
      undone.cells.cells = before.cells.cells.set 1 other ∧
      other.block = ⟨.code, "x"⟩ ∧ other.id ≠ "00000000" := by
  have opened : Reachable {} _ := .cells (rfl :
    Session.ofCells [{ id := "a", kind := .code, source := "x" },
      { id := "b", kind := .code, source := "y" }] {} = .ok _)
  have before := (opened.step (.deleteCell 0)).step (.insertCell 1 .code "x")
  refine ⟨_, _, _, rfl, rfl, by decide +kernel, Prod.ext (by decide +kernel) rfl, ?_⟩
  obtain ⟨undone, other, undoes, cells, shows, differs, -⟩ := before.undo_setKind (by decide)
    (by decide +kernel) (by decide +kernel) 1 .markdown rfl (by decide +kernel)
    (Prod.ext (by decide +kernel) rfl) (by decide +kernel)
  exact ⟨undone, other, undoes, cells, shows, differs⟩

/-- The cell that was changed is gone, and what it carried along with it. Under a tag with a line feed
no facade is read at all: the undo is refused, and the change stays. -/
theorem undo_setKind_makes_fresh :
    (∃ before after undone : Session,
      Session.ofCells
        [{ id := "a", kind := .code, source := "x", metadata := [("tags", .null)],
           extra := [("note", .null)] }] {} = .ok before ∧
      before.editorIsDirty = false ∧ before.cells.blocks.Nodup ∧
      (Operation.setKind 0 .markdown).perform before = (.ok (), after) ∧
      after.cells.blocks.Nodup ∧ after.undo = (.ok true, undone) ∧
      undone.cells.cells = [{ id := "00000000", kind := .code, source := "x" }]) ∧
    ∃ before after undone : Session,
      Session.ofCells [{ id := "a", kind := .code, source := "x" }] { tag := "\n" } = .ok before ∧
      before.editorIsDirty = false ∧ before.cells.blocks.Nodup ∧
      (Operation.setKind 0 .markdown).perform before = (.ok (), after) ∧
      after.cells.blocks.Nodup ∧ after.undo = (.error (.markup (.strayText 0)), undone) ∧
      undone.cells.cells = [{ id := "a", kind := .markdown, source := "x" }] := by
  constructor
  · exact ⟨_, _, _, rfl, by decide +kernel, by decide +kernel, Prod.ext (by decide +kernel) rfl,
      by decide +kernel, Prod.ext (by decide +kernel) rfl, by decide +kernel⟩
  · exact ⟨_, _, _, rfl, by decide +kernel, by decide +kernel, Prod.ext (by decide +kernel) rfl,
      by decide +kernel, Prod.ext (by decide +kernel) rfl, by decide +kernel⟩

end Session

end Notebook

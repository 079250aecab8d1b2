import Notebook.Proofs.CellList.Reconcile
/-!
# Which cells come back

For a block `reconcile` takes the first live cell that equals it and is not used, and else the
remembered one that was removed last. So a cell that is found first by its own block comes back as
it is. Among cells with different blocks each one is, and so is the cell that was removed last.
Therefore a list of such cells is restored after an insertion, a removal or a move, and made again
after that.
-/
namespace Notebook.CellList

/-! ## Taking cells by their blocks -/

/-- Claiming a live cell is taking it back from those that are not used. -/
theorem revive_unused (block : Block) (live : List Candidate) : revive block (unused live) =
    match claim block live with
    | some (cell, left) => (some cell, unused left)
    | none => (none, unused live) := by
  induction live with
  | nil => rfl
  | cons candidate rest ih =>
    rw [unused_cons, claim]
    cases free : candidate.used with
    | true =>
      -- A used candidate is passed over on both sides.
      simp only [Bool.not_true, Bool.false_eq_true, false_and, if_false, if_true, ih]
      cases claim block rest with
      | none => rfl
      | some result => simp only [Option.map_some, unused_cons, free, if_true]
    | false =>
      by_cases same : candidate.cell.block = block
      · simp [revive, same, unused_cons]
      · have later : revive block (candidate.cell :: unused rest) =
            ((revive block (unused rest)).1, candidate.cell :: (revive block (unused rest)).2) := by
          simp [revive, same]
        simp only [Bool.not_false, same, and_false, if_false, Bool.false_eq_true, later, ih]
        cases claim block rest with
        | none => rfl
        | some result => simp [unused_cons, free]

/-- Taking the cell of one block does not change which cell is taken for another. -/
theorem revive_revive_of_ne {block other : Block} (differs : block ≠ other) (cells : List Cell) :
    (revive block (revive other cells).2).1 = (revive block cells).1 := by
  induction cells with
  | nil => rfl
  | cons cell rest ih =>
    simp only [revive] at ih ⊢
    by_cases taken : cell.block = other
    · have kept : ¬cell.block = block := fun same => differs (same.symm.trans taken)
      rw [List.eraseP_cons_of_pos (by simpa using taken),
        List.find?_cons_of_neg (by simpa using kept)]
    · rw [List.eraseP_cons_of_neg (by simpa using taken)]
      by_cases found : cell.block = block
      · simp [found]
      · simpa [found] using ih

theorem revive_of_mem {cells : List Cell} (apart : (cells.map Cell.block).Nodup) {cell : Cell}
    (member : cell ∈ cells) : (revive cell.block cells).1 = some cell := by
  induction cells with
  | nil => cases member
  | cons first rest ih =>
    obtain ⟨new, apart⟩ := List.nodup_cons.mp apart
    rcases List.mem_cons.mp member with rfl | later
    · simp [revive]
    · have other : ¬first.block = cell.block := fun same => new (same ▸ List.mem_map_of_mem later)
      simpa [revive, other] using ih apart later

theorem revive_of_not_mem {cells : List Cell} {block : Block}
    (absent : block ∉ cells.map Cell.block) : (revive block cells).1 = none := by
  apply List.find?_eq_none.mpr
  intro cell member same
  exact absent (of_decide_eq_true same ▸ List.mem_map_of_mem member)

/-! ## Where the cells come from -/

theorem unused_matchEqual (blocks : List Block) (live : List Candidate) (removed : List Cell) :
    (unused (matchEqual blocks live removed).2.1).Sublist (unused live) := by
  induction blocks generalizing live removed with
  | nil => exact List.Sublist.refl _
  | cons block more ih =>
    have taking := revive_unused block live
    cases claimed : claim block live with
    | some result =>
      simp only [matchEqual, claimed] at taking ⊢
      refine (ih result.2 removed).trans ?_
      rw [← show (revive block (unused live)).2 = unused result.2 from congrArg Prod.snd taking]
      exact List.eraseP_sublist
    | none =>
      simp only [matchEqual, claimed]
      exact ih live _

/-- The second pass puts cells that no block has taken over into slots, under other sources. -/
theorem mem_taken_matchPosition {slots : List Slot} {live : List Candidate} {cell : Cell}
    (member : cell ∈ taken (matchPosition slots live).1) :
    cell ∈ taken slots ∨ ∃ old ∈ unused live, ∃ source, cell = { old with source } := by
  -- Down both lists at once, since a slot is matched with the cell at its own place.
  induction slots generalizing live with
  | nil =>
    cases live <;> exact .inl member
  | cons slot more ih =>
    cases live with
    | nil => exact .inl member
    | cons candidate rest =>
      rw [taken_cons, unused_cons, List.mem_append]
      -- Whatever happens at the head, a cell taken further down was there or is free there.
      have onward (later : cell ∈ taken (matchPosition more rest).1) :
          (cell ∈ slot.cell.toList ∨ cell ∈ taken more) ∨
            ∃ old ∈ if candidate.used then unused rest else candidate.cell :: unused rest,
              ∃ source, cell = { old with source } := by
        rcases ih later with before | ⟨old, free, same⟩
        · exact .inl (.inr before)
        · refine .inr ⟨old, ?_, same⟩
          split
          · exact free
          · exact List.mem_cons_of_mem _ free
      by_cases fits : slot.cell.isNone ∧ !candidate.used ∧ candidate.cell.kind = slot.block.kind
      · simp only [matchPosition, if_pos fits, taken_cons, Option.toList_some, List.singleton_append,
          List.mem_cons] at member
        rcases member with rfl | later
        · right
          simp [show candidate.used = false by simpa using fits.2.1]
        · exact onward later
      · simp only [matchPosition, if_neg fits, taken_cons, List.mem_append] at member
        rcases member with here | later
        · exact .inl (.inl here)
        · exact onward later

theorem unused_matchPosition (slots : List Slot) (live : List Candidate) :
    (unused (matchPosition slots live).2).Sublist (unused live) := by
  induction slots generalizing live with
  | nil => cases live <;> exact List.Sublist.refl _
  | cons slot more ih =>
    cases live with
    | nil => exact List.Sublist.refl _
    | cons candidate rest =>
      rw [unused_cons]
      by_cases fits : slot.cell.isNone ∧ !candidate.used ∧ candidate.cell.kind = slot.block.kind
      · simp only [matchPosition, if_pos fits]
        rw [unused_cons, if_pos rfl]
        split
        · exact ih rest
        · exact (ih rest).cons _
      · simp only [matchPosition, if_neg fits]
        rw [unused_cons]
        split
        · exact ih rest
        · exact (ih rest).cons_cons _

/-- Nothing is known of the cell but its identity, its kind and its source. -/
def Blank (cell : Cell) : Prop :=
  cell = { id := cell.id, kind := cell.kind, source := cell.source }

theorem mem_fill {list : CellList} {slots : List Slot} {cell : Cell}
    (member : cell ∈ (fill list slots).1) :
    cell ∈ taken slots ∨ cell.id ∈ newIds slots (fill list slots).1 ∧ Blank cell := by
  induction slots generalizing list with
  | nil => cases member
  | cons slot more ih =>
    rw [taken_cons]
    cases known : slot.cell with
    | some held =>
      simp only [fill, known, newIds, Option.isNone_some, Bool.false_eq_true, if_false,
        List.mem_cons] at member ⊢
      rcases member with rfl | later
      · simp
      · exact (ih later).imp_left (List.mem_cons_of_mem _)
    | none =>
      simp only [fill, known, newIds, Option.isNone_none, if_true, List.mem_cons] at member ⊢
      rcases member with rfl | later
      · exact .inr ⟨.inl rfl, rfl⟩
      · exact (ih later).imp_right (And.imp_left .inr)

section Passed

variable (list : CellList) (blocks : List Block)

/-- The first pass passes on live and remembered cells. -/
theorem mem_matchEqual {cell : Cell}
    (member : let equal := matchEqual blocks (list.cells.map fun cell => ⟨cell, false⟩) list.removed
      cell ∈ taken equal.1 ∨ cell ∈ unused equal.2.1 ∨ cell ∈ equal.2.2) :
    cell ∈ list.cells ∨ cell ∈ list.removed := by
  obtain ⟨-, -, passed⟩ :=
    matchEqual_spec blocks (list.cells.map fun cell => ⟨cell, false⟩) list.removed
  rw [unused_candidates] at passed
  refine List.mem_append.mp (passed.mem_iff.mpr ?_)
  simpa only [List.mem_append] using member

variable {list blocks}

/-- A cell that `reconcile` leaves is a live one, possibly with another source, a remembered one as it
was, or a fresh one. -/
theorem mem_reconcile {cell : Cell} (member : cell ∈ (list.reconcile blocks).cells) :
    (∃ old ∈ list.cells, ∃ source, cell = { old with source }) ∨ cell ∈ list.removed ∨
      cell.id ∈ list.freshIds blocks ∧ Blank cell := by
  rcases mem_fill member with held | new
  · rcases mem_taken_matchPosition held with equal | ⟨old, free, same⟩
    · rcases mem_matchEqual list blocks (.inl equal) with here | remembered
      · exact .inl ⟨cell, here, cell.source, rfl⟩
      · exact .inr (.inl remembered)
    · -- The second pass takes what the first one left of the live cells.
      have left := unused_matchEqual blocks (list.cells.map fun cell => ⟨cell, false⟩) list.removed
      rw [unused_candidates] at left
      exact .inl ⟨old, left.subset free, same⟩
  · exact .inr (.inr new)

/-- What `reconcile` remembers is a live cell or a remembered one, as it was. -/
theorem mem_removed_reconcile {cell : Cell} (member : cell ∈ (list.reconcile blocks).removed) :
    cell ∈ list.cells ∨ cell ∈ list.removed := by
  let equal := matchEqual blocks (list.cells.map fun cell => ⟨cell, false⟩) list.removed
  let position := matchPosition equal.1 equal.2.1
  have shows := (matchEqual_spec blocks (list.cells.map fun cell => ⟨cell, false⟩) list.removed).2.1
  have removed : (fill { list with removed := equal.2.2 } position.1).2.removed = equal.2.2 :=
    (fill_spec _ _ (matchPosition_spec equal.1 equal.2.1 shows).2.1).2.1
  have kept := (foldl_bury (unused position.2)
    (fill { list with removed := equal.2.2 } position.1).2).2.subset member
  rw [removed, List.mem_append, List.mem_reverse] at kept
  apply mem_matchEqual list blocks
  exact kept.elim (fun left => .inr (.inl ((unused_matchPosition _ _).subset left))) fun old =>
    .inr (.inr old)

end Passed

/-! ## Cells that are found by their own blocks -/

/-- The cell is what its own block takes, from the first list or else from the second. -/
def Offered (live removed : List Cell) (cell : Cell) : Prop :=
  (revive cell.block live).1.or (revive cell.block removed).1 = some cell

theorem offered_live {live removed : List Cell} {cell : Cell}
    (here : (revive cell.block live).1 = some cell) : Offered live removed cell := by
  rw [Offered, here, Option.some_or]

theorem offered_buried {live : List Cell} {cell : Cell}
    (absent : (revive cell.block live).1 = none) (list : CellList) :
    Offered live (list.bury cell).removed cell := by
  rw [Offered, absent, Option.none_or]
  simp [revive, bury, removedLimit]

/-- Cells with different blocks that are found by them go into their slots, and if they are all live,
the remembered ones stay. -/
theorem matchEqual_offered {target removed : List Cell} {live : List Candidate}
    (apart : (target.map Cell.block).Nodup)
    (offers : ∀ cell ∈ target, Offered (unused live) removed cell) :
    (matchEqual (target.map Cell.block) live removed).1 =
        target.map (fun cell => ⟨cell.block, some cell⟩) ∧
      ((∀ cell ∈ target, (revive cell.block (unused live)).1 = some cell) →
        (matchEqual (target.map Cell.block) live removed).2.2 = removed) := by
  induction target generalizing live removed with
  | nil => exact ⟨rfl, fun _ => rfl⟩
  | cons cell more ih =>
    obtain ⟨new, distinct⟩ := List.nodup_cons.mp apart
    obtain ⟨here, others⟩ := List.forall_mem_cons.mp offers
    have differs (other : Cell) (member : other ∈ more) : other.block ≠ cell.block := fun same =>
      new (same ▸ List.mem_map_of_mem member)
    have taking := revive_unused cell.block live
    rw [List.map_cons, List.map_cons]
    cases claimed : claim cell.block live with
    | some result =>
      obtain ⟨found, left⟩ := result
      rw [claimed] at taking
      rw [Offered, taking, Option.some_or, Option.some.injEq] at here
      subst here
      -- What is left of the live cells offers the others as before.
      have still (other : Cell) (member : other ∈ more) :
          (revive other.block (unused left)).1 = (revive other.block (unused live)).1 := by
        rw [← revive_revive_of_ne (differs other member) (unused live), taking]
      have offers (other : Cell) (member : other ∈ more) :
          Offered (unused left) removed other := by
        rw [Offered, still other member]
        exact others other member
      obtain ⟨slots, kept⟩ := ih distinct offers
      simp only [matchEqual, claimed, slots, true_and]
      intro alive
      apply kept
      intro other member
      rw [still other member]
      exact alive other (List.mem_cons_of_mem _ member)
    | none =>
      rw [claimed] at taking
      rw [Offered, taking, Option.none_or] at here
      have offers (other : Cell) (member : other ∈ more) :
          Offered (unused live) (revive cell.block removed).2 other := by
        rw [Offered, revive_revive_of_ne (differs other member) removed]
        exact others other member
      obtain ⟨slots, -⟩ := ih distinct offers
      simp only [matchEqual, claimed, slots, here, true_and]
      intro alive
      have lost := alive cell List.mem_cons_self
      rw [taking] at lost
      cases lost

theorem matchPosition_filled (target : List Cell) (live : List Candidate) :
    matchPosition (target.map fun cell => ⟨cell.block, some cell⟩) live =
      (target.map fun cell => ⟨cell.block, some cell⟩, live) := by
  induction target generalizing live with
  | nil => cases live <;> rfl
  | cons cell more ih =>
    cases live with
    | nil => rfl
    | cons candidate rest => simp [matchPosition, ih]

theorem fill_filled (target : List Cell) (list : CellList) :
    fill list (target.map fun cell => ⟨cell.block, some cell⟩) = (target, list) := by
  induction target with
  | nil => rfl
  | cons cell more ih => simp [fill, ih]

section Restore

variable {list : CellList} {target : List Cell} (apart : (target.map Cell.block).Nodup)

include apart

/-- Cells that are offered come back as they are, in their order. -/
theorem cells_reconcile_offered
    (offers : ∀ cell ∈ target, Offered list.cells list.removed cell) :
    (list.reconcile (target.map Cell.block)).cells = target := by
  let live : List Candidate := list.cells.map fun cell => ⟨cell, false⟩
  have offers : ∀ cell ∈ target, Offered (unused live) list.removed cell := by
    rwa [show unused live = list.cells from unused_candidates list.cells]
  have slots := (matchEqual_offered apart offers).1
  simp only [reconcile, live, slots, matchPosition_filled, fill_filled]

/-- When all but one of the live cells come back, that one is remembered. -/
theorem removed_reconcile_without {gone : Cell} (perm : list.cells.Perm (gone :: target))
    (alive : ∀ cell ∈ target, (revive cell.block list.cells).1 = some cell) :
    (list.reconcile (target.map Cell.block)).removed = (list.bury gone).removed := by
  let live : List Candidate := list.cells.map fun cell => ⟨cell, false⟩
  have all : unused live = list.cells := unused_candidates list.cells
  let equal := matchEqual (target.map Cell.block) live list.removed
  obtain ⟨slots, kept⟩ : equal.1 = _ ∧ (_ → equal.2.2 = list.removed) :=
    matchEqual_offered apart fun cell member => offered_live (by rw [all]; exact alive cell member)
  have kept := kept (by rwa [all])
  have passed : (unused live ++ list.removed).Perm (taken equal.1 ++
    (unused equal.2.1 ++ equal.2.2)) := (matchEqual_spec _ live list.removed).2.2
  -- What went into slots is the target, so what was left of the live cells is the one that goes.
  have left : unused equal.2.1 = [gone] := by
    have held : taken (target.map fun cell => (⟨cell.block, some cell⟩ : Slot)) = target := by
      simp [taken, List.filterMap_map]
    rw [slots, held, kept, all, ← List.append_assoc, List.perm_append_right_iff] at passed
    have rest := (List.perm_append_left_iff target).mp
      (passed.symm.trans (perm.trans (List.perm_append_singleton gone target).symm))
    exact List.perm_singleton.mp rest
  change (List.foldl bury (fill { list with removed := equal.2.2 }
    (matchPosition equal.1 equal.2.1).1).2 (unused (matchPosition equal.1 equal.2.1).2)).removed = _
  rw [slots, matchPosition_filled, fill_filled, kept, left]
  rfl

end Restore

/-! ## There and back -/

/-- Reconciling the later list with what the earlier one shows gives the cells of the earlier one, and
reconciling that with what the later one shows gives those of the later one. -/
structure Restores (before after : CellList) : Prop where
  back : (after.reconcile before.blocks).cells = before.cells
  forth : ((after.reconcile before.blocks).reconcile after.blocks).cells = after.cells

section Changes

variable {before after : CellList} (apart : before.blocks.Nodup)

include apart

/-- When the cells after a change are some of those before it, they are found among these. -/
theorem restores_of_subset (distinct : after.blocks.Nodup) (fewer : after.cells ⊆ before.cells)
    (back : (after.reconcile before.blocks).cells = before.cells) :
    Restores before after where
  back := back
  forth := by
    apply cells_reconcile_offered distinct
    intro cell member
    apply offered_live
    rw [back]
    exact revive_of_mem apart (fewer member)

theorem restores_move {source target : Nat} (moved : before.move source target = .ok after) :
    Restores before after := by
  have perm := (perm_move moved).1
  have distinct : after.blocks.Nodup := (perm.map Cell.block).nodup_iff.mpr apart
  apply restores_of_subset apart distinct perm.subset
  apply cells_reconcile_offered apart
  intro cell member
  exact offered_live (revive_of_mem distinct (perm.symm.subset member))

theorem restores_remove {index : Nat} {gone : Cell}
    (taken : before.remove index = .ok (gone, after)) : Restores before after := by
  obtain ⟨perm, removed, -⟩ := perm_remove taken
  obtain ⟨absent, distinct⟩ := List.nodup_cons.mp ((perm.map Cell.block).nodup_iff.mp apart)
  apply restores_of_subset apart distinct fun cell member =>
    perm.symm.subset (List.mem_cons_of_mem gone member)
  apply cells_reconcile_offered apart
  intro cell member
  rcases List.mem_cons.mp (perm.subset member) with rfl | stays
  · -- No live cell shows the block any more, and the cell that does was removed last.
    rw [removed]
    exact offered_buried (revive_of_not_mem absent) before
  · exact offered_live (revive_of_mem distinct stays)

theorem restores_insert {index : Nat} {kind : Kind} {source id : Text}
    (inserted : before.insert index kind source = .ok (id, after))
    (new : ⟨kind, source⟩ ∉ before.blocks) : Restores before after := by
  obtain ⟨perm, -⟩ := perm_insert inserted
  have distinct : after.blocks.Nodup :=
    (perm.map Cell.block).nodup_iff.mpr (List.nodup_cons.mpr ⟨new, apart⟩)
  have alive (cell : Cell) (member : cell ∈ before.cells) :
      (revive cell.block after.cells).1 = some cell :=
    revive_of_mem distinct (perm.symm.subset (List.mem_cons_of_mem _ member))
  have back : (after.reconcile before.blocks).cells = before.cells :=
    cells_reconcile_offered apart fun cell member => offered_live (alive cell member)
  have removed := removed_reconcile_without apart perm alive
  refine ⟨back, cells_reconcile_offered distinct fun cell member => ?_⟩
  rw [back]
  rcases List.mem_cons.mp (perm.subset member) with made | old
  · -- The cell that was made is not live any more, and it was removed last.
    have absent : (revive cell.block before.cells).1 = none := by
      rw [made]
      exact revive_of_not_mem new
    change Offered _ (after.reconcile (before.cells.map Cell.block)).removed _
    rw [removed, ← made]
    exact offered_buried absent after
  · exact offered_live (revive_of_mem apart old)

end Changes

end Notebook.CellList

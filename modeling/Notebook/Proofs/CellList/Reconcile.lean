import Notebook.Proofs.CellList.Identity
/-!
# Recovering identities

Reconciling with blocks makes cells that show exactly these blocks. Cells are only passed on: from
the live and the remembered ones into slots, from slots into the new list, and what was not taken
over is remembered. So identities stay distinct; a fresh one is handed out where nothing was taken.
-/
namespace Notebook.CellList

/-- The live cells that no block took over. -/
def unused (live : List Candidate) : List Cell :=
  (live.filter fun candidate => !candidate.used).map (·.cell)

def taken (slots : List Slot) : List Cell := slots.filterMap (·.cell)

/-- A slot's cell, if it has one, shows the slot's block. -/
def Slot.Shows (slot : Slot) : Prop := ∀ cell ∈ slot.cell, cell.block = slot.block

/-! ## Equal cells -/

theorem unused_cons (candidate : Candidate) (rest : List Candidate) :
    unused (candidate :: rest) =
      if candidate.used then unused rest else candidate.cell :: unused rest := by
  cases h : candidate.used <;> simp [unused, h]

theorem claim_spec {block : Block} {live after : List Candidate} {cell : Cell}
    (claimed : claim block live = some (cell, after)) :
    cell.block = block ∧ (unused live).Perm (cell :: unused after) := by
  induction live generalizing after with
  | nil => cases claimed
  | cons candidate rest ih =>
    rw [claim] at claimed
    split at claimed
    next fits =>
      cases claimed
      have free : candidate.used = false := by simpa using fits.1
      refine ⟨fits.2, ?_⟩
      rw [unused_cons, unused_cons, free]
      exact List.Perm.refl _
    -- A cell passed over keeps its place; the claim moves past it.
    next =>
      obtain ⟨⟨found, more⟩, here, eq⟩ := Option.map_eq_some_iff.mp claimed
      cases eq
      obtain ⟨shows, perm⟩ := ih here
      refine ⟨shows, ?_⟩
      rw [unused_cons, unused_cons]
      split
      · exact perm
      · exact (perm.cons _).trans (List.Perm.swap ..)

theorem revive_spec (block : Block) (removed : List Cell) :
    (∀ cell ∈ (revive block removed).1, cell.block = block) ∧
      removed.Perm ((revive block removed).1.toList ++ (revive block removed).2) := by
  simp only [revive]
  induction removed with
  | nil => simp
  | cons cell rest ih =>
    by_cases same : cell.block = block
    · simp [same]
    · obtain ⟨shows, perm⟩ := ih
      rw [List.find?_cons_of_neg (by simpa using same),
        List.eraseP_cons_of_neg (by simpa using same)]
      exact ⟨shows, (perm.cons cell).trans List.perm_middle.symm⟩

theorem taken_cons (slot : Slot) (slots : List Slot) :
    taken (slot :: slots) = slot.cell.toList ++ taken slots := by
  cases known : slot.cell <;> simp [taken, known]

/-- The first pass passes cells on into slots, and each slot shows its block. -/
theorem matchEqual_spec (blocks : List Block) (live : List Candidate) (removed : List Cell) :
    (matchEqual blocks live removed).1.map (·.block) = blocks ∧
      (∀ slot ∈ (matchEqual blocks live removed).1, slot.Shows) ∧
      (unused live ++ removed).Perm (taken (matchEqual blocks live removed).1 ++
        (unused (matchEqual blocks live removed).2.1 ++ (matchEqual blocks live removed).2.2)) := by
  induction blocks generalizing live removed with
  | nil => exact ⟨rfl, by simp [matchEqual], List.Perm.refl _⟩
  | cons block more ih =>
    cases claimed : claim block live with
    | some result =>
      obtain ⟨cell, left⟩ := result
      obtain ⟨shows, perm⟩ := claim_spec claimed
      obtain ⟨blocks, all, rest⟩ := ih left removed
      simp only [matchEqual, claimed]
      refine ⟨by simp [blocks], List.forall_mem_cons.mpr ⟨?_, all⟩, ?_⟩
      · rintro _ ⟨⟩
        exact shows
      · exact (perm.append_right removed).trans (rest.cons cell)
    | none =>
      obtain ⟨shows, perm⟩ := revive_spec block removed
      obtain ⟨blocks, all, rest⟩ := ih live (revive block removed).2
      simp only [matchEqual, claimed]
      refine ⟨by simp [blocks], List.forall_mem_cons.mpr ⟨shows, all⟩, ?_⟩
      -- A remembered cell, if one fits, goes from the remembered ones into the slot.
      have front : (unused live ++ removed).Perm ((revive block removed).1.toList ++
          (unused live ++ (revive block removed).2)) := by
        refine (perm.append_left (unused live)).trans ?_
        rw [← List.append_assoc, ← List.append_assoc]
        exact List.perm_append_comm.append_right _
      rw [taken_cons, List.append_assoc]
      exact front.trans (rest.append_left _)

/-! ## Cells at the same position -/

/-- The second pass passes cells on under another source. -/
theorem matchPosition_spec (slots : List Slot) (live : List Candidate)
    (shows : ∀ slot ∈ slots, slot.Shows) :
    (matchPosition slots live).1.map (·.block) = slots.map (·.block) ∧
      (∀ slot ∈ (matchPosition slots live).1, slot.Shows) ∧
      (ids (taken slots) ++ ids (unused live)).Perm
        (ids (taken (matchPosition slots live).1) ++ ids (unused (matchPosition slots live).2)) := by
  induction slots generalizing live with
  | nil => cases live <;> exact ⟨rfl, shows, List.Perm.refl _⟩
  | cons slot more ih =>
    cases live with
    | nil => exact ⟨rfl, shows, List.Perm.refl _⟩
    | cons candidate rest =>
      obtain ⟨here, others⟩ := List.forall_mem_cons.mp shows
      obtain ⟨blocks, all, perm⟩ := ih rest others
      -- Slots and candidates are paired by position. Either the candidate moves into the
      -- slot, or both stay as they are.
      by_cases fits : slot.cell.isNone ∧ !candidate.used ∧ candidate.cell.kind = slot.block.kind
      · simp only [matchPosition, if_pos fits]
        obtain ⟨empty, free, kind⟩ := fits
        have free : candidate.used = false := by simpa using free
        refine ⟨by simp [blocks], List.forall_mem_cons.mpr ⟨?_, all⟩, ?_⟩
        · rintro _ ⟨⟩
          rw [Cell.block, kind]
        · rw [taken_cons, taken_cons, Option.isNone_iff_eq_none.mp empty, unused_cons, unused_cons,
            free]
          exact List.perm_middle.trans (perm.cons candidate.cell.id)
      · simp only [matchPosition, if_neg fits]
        refine ⟨by simp [blocks], List.forall_mem_cons.mpr ⟨here, all⟩, ?_⟩
        rw [taken_cons, taken_cons, ids_append, ids_append, List.append_assoc, List.append_assoc,
          unused_cons, unused_cons]
        refine List.Perm.append_left _ ?_
        split
        · exact perm
        · exact List.perm_middle.trans ((perm.cons _).trans List.perm_middle.symm)

/-! ## Fresh cells -/

/-- Identities of the cells that stand where a slot had none. -/
def newIds : List Slot → List Cell → List Text
  | slot :: slots, cell :: cells =>
    if slot.cell.isNone then cell.id :: newIds slots cells else newIds slots cells
  | _, _ => []

/-- The last pass completes the cells of the slots by fresh ones. -/
theorem fill_spec (list : CellList) (slots : List Slot) (shows : ∀ slot ∈ slots, slot.Shows) :
    (fill list slots).1.map Cell.block = slots.map (·.block) ∧
      (fill list slots).2.removed = list.removed ∧
      (ids (fill list slots).1).Perm (ids (taken slots) ++ newIds slots (fill list slots).1) ∧
      (newIds slots (fill list slots).1).Nodup ∧ [] ∉ newIds slots (fill list slots).1 ∧
      (∀ id ∈ newIds slots (fill list slots).1, id ∉ list.issued) ∧
      ∀ id, id ∈ (fill list slots).2.issued ↔
        id ∈ newIds slots (fill list slots).1 ∨ id ∈ list.issued := by
  induction slots generalizing list with
  | nil => simp [fill, taken, newIds]
  | cons slot more ih =>
    obtain ⟨here, others⟩ := List.forall_mem_cons.mp shows
    rw [taken_cons]
    cases known : slot.cell with
    | some cell =>
      obtain ⟨blocks, removed, perm, facts⟩ := ih list others
      simp only [fill, known, newIds, Option.isNone_some, Bool.false_eq_true, if_false]
      refine ⟨?_, removed, perm.cons cell.id, facts⟩
      rw [List.map_cons, List.map_cons, blocks, here cell known]
    -- The fresh identity is issued before the rest is filled, so no later one repeats it.
    | none =>
      obtain ⟨blocks, removed, perm, distinct, named, unseen, issued⟩ :=
        ih list.freshId.2 others
      simp only [fill, known, newIds, Option.isNone_none, if_true]
      refine ⟨?_, removed, ?_, ?_, ?_, ?_, ?_⟩
      · rw [List.map_cons, List.map_cons, blocks]
        rfl
      · exact (perm.cons _).trans List.perm_middle.symm
      · refine List.nodup_cons.mpr ⟨fun member => unseen _ member ?_, distinct⟩
        exact List.mem_cons_self
      · exact fun member => (List.mem_cons.mp member).elim
          (fun empty => list.freshId_ne_nil empty.symm) named
      · intro id member
        rcases List.mem_cons.mp member with rfl | later
        · exact list.freshId_not_issued
        · exact fun old => unseen id later (List.mem_cons_of_mem _ old)
      · intro id
        rw [issued id, List.mem_cons]
        change _ ∨ id ∈ list.freshId.1 :: list.issued ↔ _
        rw [List.mem_cons]
        tauto

/-! ## The whole -/

theorem foldl_bury (cells : List Cell) (list : CellList) :
    (cells.foldl bury list).issued = list.issued ∧
      (cells.foldl bury list).removed.Sublist (cells.reverse ++ list.removed) := by
  induction cells generalizing list with
  | nil => exact ⟨rfl, List.Sublist.refl _⟩
  | cons cell rest ih =>
    obtain ⟨issued, removed⟩ := ih (list.bury cell)
    refine ⟨issued, removed.trans ?_⟩
    rw [List.reverse_cons, List.append_assoc]
    exact (List.Sublist.refl _).append (List.take_sublist _ _)

theorem unused_candidates (cells : List Cell) :
    unused (cells.map fun cell => ⟨cell, false⟩) = cells := by
  induction cells with
  | nil => rfl
  | cons cell rest ih => rw [List.map_cons, unused_cons, ih, if_neg Bool.false_ne_true]

/-- Blocks and the cells that they take over. -/
def slotsFor (list : CellList) (blocks : List Block) : List Slot :=
  let equal := matchEqual blocks (list.cells.map fun cell => ⟨cell, false⟩) list.removed
  (matchPosition equal.1 equal.2.1).1

/-- The live cells that no block takes over. -/
def spared (list : CellList) (blocks : List Block) : List Cell :=
  let equal := matchEqual blocks (list.cells.map fun cell => ⟨cell, false⟩) list.removed
  unused (matchPosition equal.1 equal.2.1).2

/-- The remembered cells that no block takes back. -/
def dormant (list : CellList) (blocks : List Block) : List Cell :=
  (matchEqual blocks (list.cells.map fun cell => ⟨cell, false⟩) list.removed).2.2

/-- Identities of the cells that `reconcile` makes for blocks that take over none. -/
def freshIds (list : CellList) (blocks : List Block) : List Text :=
  newIds (list.slotsFor blocks) (list.reconcile blocks).cells

/-- The passes of `reconcile`, taken together. -/
theorem reconcile_spec (list : CellList) (blocks : List Block) :
    (list.reconcile blocks).blocks = blocks ∧ (list.freshIds blocks).Nodup ∧
      [] ∉ list.freshIds blocks ∧ (∀ id ∈ list.freshIds blocks, id ∉ list.issued) ∧
      (∀ id, id ∈ (list.reconcile blocks).issued ↔
        id ∈ list.freshIds blocks ∨ id ∈ list.issued) ∧
      (list.reconcile blocks).removed.Sublist
        ((list.spared blocks).reverse ++ list.dormant blocks) ∧
      (ids (list.reconcile blocks).cells ++
        ids ((list.spared blocks).reverse ++ list.dormant blocks)).Perm
          (list.freshIds blocks ++ (ids list.cells ++ ids list.removed)) := by
  let live : List Candidate := list.cells.map fun cell => ⟨cell, false⟩
  have all : unused live = list.cells := unused_candidates list.cells
  -- The three passes in turn, each with its own account of the identities.
  obtain ⟨blocksEq, showsEq, permEq⟩ := matchEqual_spec blocks live list.removed
  let equal := matchEqual blocks live list.removed
  obtain ⟨blocksPos, showsPos, permPos⟩ := matchPosition_spec equal.1 equal.2.1 showsEq
  let position := matchPosition equal.1 equal.2.1
  obtain ⟨blocksFill, removedFill, permFill, distinct, named, unseen, issuedFill⟩ :=
    fill_spec { list with removed := equal.2.2 } position.1 showsPos
  let filled := fill { list with removed := equal.2.2 } position.1
  obtain ⟨issuedBury, removedBury⟩ := foldl_bury (unused position.2) filled.2
  refine ⟨?_, distinct, named, unseen, ?_, ?_, ?_⟩
  · exact blocksFill.trans (blocksPos.trans blocksEq)
  · intro id
    change id ∈ (List.foldl bury filled.2 (unused position.2)).issued ↔ _
    rw [issuedBury]
    exact issuedFill id
  · rw [removedFill] at removedBury
    exact removedBury
  · change (ids filled.1 ++ ids ((unused position.2).reverse ++ equal.2.2)).Perm
      (newIds position.1 filled.1 ++ _)
    rw [ids_append]
    have back : (ids (unused position.2).reverse).Perm (ids (unused position.2)) :=
      ids_perm (List.reverse_perm _)
    let fresh := newIds position.1 filled.1
    calc ids filled.1 ++ (ids (unused position.2).reverse ++ ids equal.2.2)
      _ |>.Perm ((ids (taken position.1) ++ fresh) ++ (ids (unused position.2) ++ ids equal.2.2)) :=
        permFill.append (back.append_right _)
      _ |>.Perm (fresh ++ (ids (taken position.1) ++ (ids (unused position.2) ++ ids equal.2.2))) := by
        rw [← List.append_assoc fresh]
        exact List.perm_append_comm.append_right _
      _ |>.Perm (fresh ++ (ids (taken equal.1) ++ (ids (unused equal.2.1) ++ ids equal.2.2))) := by
        refine List.Perm.append_left _ ?_
        rw [← List.append_assoc, ← List.append_assoc]
        exact permPos.symm.append_right _
      _ |>.Perm (fresh ++ (ids list.cells ++ ids list.removed)) := by
        refine List.Perm.append_left _ ?_
        have start := ids_perm permEq.symm
        rwa [ids_append, ids_append, ids_append, all] at start

theorem blocks_reconcile (list : CellList) (blocks : List Block) :
    (list.reconcile blocks).blocks = blocks :=
  (list.reconcile_spec blocks).1

/-- The cells that blocks took over and the others, live and remembered, are kept apart. -/
theorem Coherent.distinct_reconcile {list : CellList} (coherent : list.Coherent)
    (blocks : List Block) : (ids (list.reconcile blocks).cells ++
      ids ((list.spared blocks).reverse ++ list.dormant blocks)).Nodup := by
  obtain ⟨-, distinct, -, unseen, -, -, perm⟩ := list.reconcile_spec blocks
  rw [perm.nodup_iff, List.nodup_append]
  refine ⟨distinct, coherent.distinct, ?_⟩
  -- Fresh identities were never issued, and those in use were, so the two do not meet.
  rintro id here _ there rfl
  exact unseen id here (coherent.issued id there)

theorem Coherent.reconcile {list : CellList} (coherent : list.Coherent) (blocks : List Block) :
    (list.reconcile blocks).Coherent := by
  obtain ⟨-, -, named, -, issued, sublist, perm⟩ := list.reconcile_spec blocks
  have fewer : (ids (list.reconcile blocks).cells ++ ids (list.reconcile blocks).removed).Sublist
      (ids (list.reconcile blocks).cells ++
        ids ((list.spared blocks).reverse ++ list.dormant blocks)) :=
    (List.Sublist.refl _).append (sublist.map _)
  refine ⟨(coherent.distinct_reconcile blocks).sublist fewer, ?_, ?_⟩
  · intro id member
    rcases List.mem_append.mp (perm.mem_iff.mp (fewer.subset member)) with new | old
    · exact (issued id).mpr (.inl new)
    · exact (issued id).mpr (.inr (coherent.issued id old))
  · exact fun member => ((issued []).mp member).elim named coherent.named

end Notebook.CellList

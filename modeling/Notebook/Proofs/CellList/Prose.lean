import Notebook.Proofs.CellList.InPlace
/-!
# Cells that are not code

Blocks that are read take over equal cells one after the other, and a block that is not code takes over
none that is. So whether the cells that are not code come through is decided by the blocks that are not
code alone: they have to hold those of the cells, in their order, however many are added behind each of
them that shows the same.
-/
namespace Notebook

/-- The block is markdown or raw. -/
def Block.isProse (block : Block) : Bool := !block.kind.isCode

namespace CellList

/-- Identities, kinds and sources of the markdown and raw cells, in their order. -/
def prose (list : CellList) : List (Text × Block) :=
  (list.cells.filter fun cell => cell.block.isProse).map fun cell => (cell.id, cell.block)

/-! ## The cells that blocks take over -/

/-- The live cells that are taken over by equal blocks, in the order of the blocks. -/
def claims : List Block → List Cell → List Cell
  | [], _ => []
  | block :: more, live => (revive block live).1.toList ++ claims more (revive block live).2

theorem claims_sublist_taken (blocks : List Block) (live : List Candidate) (removed : List Cell) :
    (claims blocks (unused live)).Sublist (taken (matchEqual blocks live removed).1) := by
  induction blocks generalizing live removed with
  | nil => exact List.nil_sublist _
  | cons block more ih =>
    have taking := revive_unused block live
    rw [claims]
    cases claimed : claim block live with
    | some result =>
      rw [claimed] at taking
      simp only [matchEqual, claimed, taking, taken_cons]
      exact (ih result.2 removed).append_left _
    | none =>
      rw [claimed] at taking
      simp only [matchEqual, claimed, taking, taken_cons]
      exact (ih live _).trans (List.sublist_append_right ..)

theorem taken_sublist_matchPosition (slots : List Slot) (live : List Candidate) :
    (taken slots).Sublist (taken (matchPosition slots live).1) := by
  induction slots generalizing live with
  | nil => exact List.nil_sublist _
  | cons slot more ih =>
    cases live with
    | nil => exact List.Sublist.refl _
    | cons candidate rest =>
      rw [matchPosition, taken_cons]
      dsimp only
      split
      next fits =>
        rw [taken_cons, Option.isNone_iff_eq_none.mp fits.1]
        exact (ih rest).cons _
      next =>
        rw [taken_cons]
        exact (ih rest).append_left _

theorem taken_sublist_fill (list : CellList) (slots : List Slot) :
    (taken slots).Sublist (fill list slots).1 := by
  induction slots generalizing list with
  | nil => exact List.nil_sublist _
  | cons slot more ih =>
    rw [taken_cons, fill]
    cases slot.cell with
    | some cell => exact (ih list).cons_cons cell
    | none => exact (ih _).cons _

theorem claims_sublist_reconcile (list : CellList) (blocks : List Block) :
    (claims blocks list.cells).Sublist (list.reconcile blocks).cells := by
  let live : List Candidate := list.cells.map fun cell => ⟨cell, false⟩
  have claimed := claims_sublist_taken blocks live list.removed
  rw [show unused live = list.cells from unused_candidates list.cells] at claimed
  exact (claimed.trans (taken_sublist_matchPosition _ _)).trans (taken_sublist_fill _ _)

/-- Of each block as many are taken over as there are on both sides. -/
theorem map_block_claims (blocks : List Block) (live : List Cell) :
    (claims blocks live).map Cell.block = blocks.bagInter (live.map Cell.block) := by
  induction blocks generalizing live with
  | nil => rw [claims, List.map_nil, List.nil_bagInter]
  | cons block more ih =>
    rw [claims, List.map_append, ih]
    -- Of equal cells the first is taken over, as of equal blocks the first is erased.
    have left : (revive block live).2.map Cell.block = (live.map Cell.block).erase block := by
      have same : (fun cell : Cell => decide (cell.block = block)) =
          (fun other => block == other) ∘ Cell.block := by
        funext cell
        exact decide_eq_decide.mpr eq_comm
      rw [List.erase_eq_eraseP, List.eraseP_map, revive, same]
    by_cases member : block ∈ live.map Cell.block
    · rw [List.cons_bagInter_of_mem _ member, left]
      obtain ⟨cell, there, same⟩ := List.mem_map.mp member
      cases found : (revive block live).1 with
      | none => exact absurd same (by simpa using List.find?_eq_none.mp found cell there)
      | some cell =>
        rw [Option.toList_some, List.map_singleton, (revive_spec block live).1 cell found]
        rfl
    · rw [List.cons_bagInter_of_not_mem _ member, left, List.erase_of_not_mem member,
        revive_of_not_mem member]
      rfl

theorem claims_subperm (blocks : List Block) (live : List Cell) :
    (claims blocks live).Subperm live := by
  induction blocks generalizing live with
  | nil => exact List.nil_subperm
  | cons block more ih =>
    have split := (revive_spec block live).2
    exact ((List.subperm_append_left _).mpr (ih _)).trans split.symm.subperm

/-- Blocks that take over as many cells as there are, in their order, take over the cells themselves. -/
theorem claims_eq_self {blocks : List Block} {live : List Cell}
    (same : (claims blocks live).map Cell.block = live.map Cell.block) : claims blocks live = live := by
  induction blocks generalizing live with
  | nil => exact (List.map_eq_nil_iff.mp same.symm).symm
  | cons block more ih =>
    rw [claims] at same ⊢
    cases found : (revive block live).1 with
    | none =>
      have left := (revive_eq_none found).2
      rw [found, left, Option.toList_none, List.nil_append] at same
      rw [left, Option.toList_none, List.nil_append]
      exact ih same
    | some cell =>
      rw [found, Option.toList_some, List.singleton_append, List.map_cons] at same
      cases live with
      | nil => cases same
      | cons first rest =>
        obtain ⟨here, later⟩ := List.cons.inj same
        -- The first cell shows the block, so it is the one that the block finds.
        have shows : first.block = block := here.symm.trans ((revive_spec block _).1 cell found)
        have takes : revive block (first :: rest) = (some first, rest) := by simp [revive, shows]
        rw [takes] at found later
        cases found
        rw [takes, Option.toList_some, List.singleton_append, ih later]

section Filter

variable {holds : Block → Bool} {block : Block} (live : List Cell)

theorem revive_filter (fits : holds block = true) :
    revive block (live.filter fun cell => holds cell.block) =
      ((revive block live).1, (revive block live).2.filter fun cell => holds cell.block) := by
  induction live with
  | nil => rfl
  | cons first rest ih =>
    by_cases same : first.block = block
    · simp [revive, same, fits]
    · by_cases kept : holds first.block = true
      · simpa [revive, same, kept] using ih
      · simpa [revive, same, kept] using ih

theorem filter_revive (other : holds block = false) :
    ((revive block live).1.toList.filter fun cell => holds cell.block) = [] ∧
      ((revive block live).2.filter fun cell => holds cell.block) =
        live.filter fun cell => holds cell.block := by
  induction live with
  | nil => exact ⟨rfl, rfl⟩
  | cons first rest ih =>
    by_cases same : first.block = block
    · simp [revive, same, other]
    · by_cases kept : holds first.block = true
      · simpa [revive, same, kept] using ih
      · simpa [revive, same, kept] using ih

/-- What holds of a block holds of the cell that it takes over, so others make no difference. -/
theorem filter_claims (holds : Block → Bool) (blocks : List Block) (live : List Cell) :
    (claims blocks live).filter (fun cell => holds cell.block) =
      claims (blocks.filter holds) (live.filter fun cell => holds cell.block) := by
  induction blocks generalizing live with
  | nil => rfl
  | cons block more ih =>
    rw [claims, List.filter_append, ih]
    cases fits : holds block with
    | false =>
      obtain ⟨none, kept⟩ := filter_revive live fits
      rw [none, kept, List.nil_append, List.filter_cons_of_neg (by simp [fits])]
    | true =>
      rw [List.filter_cons_of_pos fits, claims, revive_filter live fits]
      congr 1
      refine List.filter_eq_self.mpr fun cell member => ?_
      rw [(revive_spec block live).1 cell (Option.mem_toList.mp member), fits]

end Filter

/-! ## Prose -/

/-- Of a list without repetitions a sublist is picked by its members. -/
theorem filter_mem_of_sublist {α : Type} [DecidableEq α] {row picked : List α} (distinct : row.Nodup)
    (sublist : picked.Sublist row) : (row.filter fun entry => entry ∈ picked) = picked := by
  induction sublist with
  | slnil => rfl
  | cons entry inner ih =>
    obtain ⟨new, distinct⟩ := List.nodup_cons.mp distinct
    rw [List.filter_cons_of_neg (by simpa using fun member => new (inner.subset member)), ih distinct]
  | cons_cons entry inner ih =>
    obtain ⟨new, distinct⟩ := List.nodup_cons.mp distinct
    rw [List.filter_cons_of_pos (by simp)]
    refine congrArg (entry :: ·) ((List.filter_congr fun other member => ?_).trans (ih distinct))
    have differs : other ≠ entry := fun same => new (same ▸ member)
    simp [differs]

variable {list : CellList} {blocks : List Block}

theorem map_snd_prose (list : CellList) :
    list.prose.map Prod.snd = list.blocks.filter Block.isProse := by
  rw [prose, List.map_map, CellList.blocks, List.filter_map]
  rfl

/-- The markdown and raw cells that blocks take over stand in the new list in the order of the blocks. -/
theorem claims_sublist_prose (list : CellList) (blocks : List Block) :
    ((claims (blocks.filter Block.isProse) (list.cells.filter fun cell => cell.block.isProse)).map
      fun cell => (cell.id, cell.block)).Sublist (list.reconcile blocks).prose := by
  have held := (claims_sublist_reconcile list blocks).filter fun cell => cell.block.isProse
  rw [filter_claims] at held
  exact held.map _

/-- All markdown and raw cells come through, as they were and in their order, exactly if the blocks of
these kinds, each counted as often as it was there, are theirs in their order. -/
theorem prose_reconcile_iff (coherent : list.Coherent) :
    list.prose.Sublist (list.reconcile blocks).prose ↔
      (blocks.filter Block.isProse).bagInter (list.blocks.filter Block.isProse) =
        list.blocks.filter Block.isProse := by
  let old := list.cells.filter fun cell => cell.block.isProse
  let entry (cell : Cell) : Text × Block := (cell.id, cell.block)
  have former : old.map Cell.block = list.blocks.filter Block.isProse := by
    rw [CellList.blocks, List.filter_map]
    rfl
  have shown := map_block_claims (blocks.filter Block.isProse) old
  have claimed := claims_sublist_prose list blocks
  rw [← former, ← shown]
  constructor
  · intro kept
    -- There are enough blocks for all cells to be taken over, so it is these that come through.
    have read : (list.reconcile blocks).prose.map Prod.snd = blocks.filter Block.isProse := by
      rw [map_snd_prose, blocks_reconcile]
    have enough : (old.map Cell.block).Sublist (blocks.filter Block.isProse) := by
      have blocks := kept.map Prod.snd
      rwa [read, map_snd_prose, ← former] at blocks
    have all : (claims (blocks.filter Block.isProse) old).Perm old := by
      have count : ((claims (blocks.filter Block.isProse) old).map Cell.block).Perm
          (old.map Cell.block) := by
        rw [shown, List.perm_iff_count]
        intro block
        rw [List.count_bagInter, Nat.min_eq_right (enough.count_le block)]
      refine (claims_subperm _ old).perm_of_length_le ?_
      simpa using count.length_eq.ge
    -- Identities are distinct, so there is one order for them.
    have distinct : (list.reconcile blocks).prose.Nodup := by
      have ids : ((list.reconcile blocks).prose.map Prod.fst).Nodup := by
        rw [prose, List.map_map]
        exact (coherent.reconcile blocks).distinct_cells.sublist (List.filter_sublist.map _)
      exact ids.of_map _
    have same : (claims (blocks.filter Block.isProse) old).map entry = old.map entry := by
      change _ = list.prose
      rw [← filter_mem_of_sublist distinct claimed, ← filter_mem_of_sublist distinct kept]
      apply List.filter_congr
      intro other _
      exact decide_eq_decide.mpr (all.map entry).mem_iff
    have second := congrArg (List.map Prod.snd) same
    rwa [List.map_map, List.map_map] at second
  · intro same
    rw [claims_eq_self same] at claimed
    exact claimed

/-- Nothing is added to markdown and raw cells by blocks that hold theirs and no others. -/
theorem prose_reconcile (coherent : list.Coherent)
    (same : blocks.filter Block.isProse = list.blocks.filter Block.isProse) :
    (list.reconcile blocks).prose = list.prose := by
  have all : (blocks.filter Block.isProse).bagInter (list.blocks.filter Block.isProse) =
      list.blocks.filter Block.isProse := by
    rw [same]
    generalize list.blocks.filter Block.isProse = row
    induction row with
    | nil => rfl
    | cons block more ih =>
      rw [List.cons_bagInter_of_mem _ List.mem_cons_self, List.erase_cons_head, ih]
  refine (((prose_reconcile_iff coherent).mpr all).eq_of_length ?_).symm
  have length := congrArg List.length ((map_snd_prose list).trans same.symm)
  have read := congrArg List.length (map_snd_prose (list.reconcile blocks))
  rw [blocks_reconcile] at read
  simpa using length.trans read.symm

end CellList

end Notebook

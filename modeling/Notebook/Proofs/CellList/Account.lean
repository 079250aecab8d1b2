import Notebook.Proofs.CellList.InPlace
import Notebook.Proofs.CellList.Origin
/-!
# What becomes of each cell

Reconciling accounts for every cell, place by place. A block has a cell that shows it already, live or
remembered, or the cell at its own place with another source, or a fresh one. What no block has is
remembered, the live cells before those that were remembered already, as many as the limit allows. So
no cell is used twice, and none is lost that is not among the oldest of those beyond the limit.
-/
namespace Notebook.CellList

variable {list : CellList} {blocks : List Block} {block : Block} {live : List Candidate}
  {removed : List Cell} {slots : List Slot} {place : Nat}

/-! ## The passes, place by place -/

theorem claim_cells {cell : Cell} {after : List Candidate}
    (claimed : claim block live = some (cell, after)) : after.map (·.cell) = live.map (·.cell) := by
  induction live generalizing after with
  | nil => cases claimed
  | cons candidate rest ih =>
    rw [claim] at claimed
    split at claimed
    next =>
      cases claimed
      rfl
    next =>
      obtain ⟨⟨found, more⟩, here, eq⟩ := Option.map_eq_some_iff.mp claimed
      cases eq
      rw [List.map_cons, List.map_cons, ih here]

/-- The first pass leaves the candidates in their places. -/
theorem cells_matchEqual (blocks : List Block) (live : List Candidate) (removed : List Cell) :
    (matchEqual blocks live removed).2.1.map (·.cell) = live.map (·.cell) := by
  induction blocks generalizing live removed with
  | nil => rfl
  | cons block more ih =>
    cases claimed : claim block live with
    | some result =>
      simp only [matchEqual, claimed]
      exact (ih result.2 removed).trans (claim_cells claimed)
    | none =>
      simp only [matchEqual, claimed]
      exact ih live _

theorem removed_matchEqual (blocks : List Block) (live : List Candidate) (removed : List Cell) :
    (matchEqual blocks live removed).2.2.Sublist removed := by
  induction blocks generalizing live removed with
  | nil => exact List.Sublist.refl _
  | cons block more ih =>
    cases claimed : claim block live with
    | some result =>
      simp only [matchEqual, claimed]
      exact ih result.2 removed
    | none =>
      simp only [matchEqual, claimed]
      exact (ih live _).trans List.eraseP_sublist

/-- A block for which the first pass finds nothing is shown by no cell that the pass leaves over. -/
theorem unmatched_matchEqual {slot : Slot} (member : slot ∈ (matchEqual blocks live removed).1)
    (empty : slot.cell = none) :
    ∀ cell, cell ∈ unused (matchEqual blocks live removed).2.1 ∨
      cell ∈ (matchEqual blocks live removed).2.2 → cell.block ≠ slot.block := by
  induction blocks generalizing live removed with
  | nil => cases member
  | cons block more ih =>
    cases claimed : claim block live with
    | some result =>
      simp only [matchEqual, claimed, List.mem_cons] at member ⊢
      rcases member with rfl | later
      · cases empty
      · exact ih later
    | none =>
      have absent := revive_unused block live
      simp only [matchEqual, claimed, List.mem_cons] at member absent ⊢
      rcases member with rfl | later
      · -- Neither among the candidates nor among the remembered cells one shows the block.
        have free := (revive_eq_none (congrArg Prod.fst absent)).1
        obtain ⟨gone, same⟩ := revive_eq_none empty
        rw [same]
        rintro cell (left | left)
        · exact free cell ((unused_matchEqual more live removed).subset left)
        · exact gone cell ((removed_matchEqual more live removed).subset left)
      · exact ih later

/-- A candidate may go into the slot at its place. -/
def Fits (slot : Slot) (candidate : Candidate) : Prop :=
  slot.cell = none ∧ candidate.used = false ∧ candidate.cell.kind = slot.block.kind

/-- The second pass leaves a slot as it is, or puts the candidate at its place into it. -/
theorem matchPosition_at {slot : Slot} (here : (matchPosition slots live).1[place]? = some slot) :
    ∃ before, slots[place]? = some before ∧ slot.block = before.block ∧
      (slot = before ∧ (∀ candidate, live[place]? = some candidate → ¬Fits before candidate) ∨
        ∃ candidate, live[place]? = some candidate ∧ Fits before candidate ∧
          slot.cell = some { candidate.cell with source := before.block.source }) := by
  -- Slots and candidates are gone through side by side, so what is said of a place is said of the first
  -- one, or of the place before in the rest.
  induction slots generalizing live place with
  | nil => cases live <;> cases here
  | cons first more ih =>
    cases live with
    | nil => exact ⟨slot, here, rfl, .inl ⟨rfl, nofun⟩⟩
    | cons candidate rest =>
      by_cases fits : first.cell.isNone ∧ !candidate.used ∧ candidate.cell.kind = first.block.kind
      · simp only [matchPosition, if_pos fits] at here
        have fits : Fits first candidate := by simpa [Fits] using fits
        cases place with
        | zero =>
          obtain rfl := Option.some.inj here
          exact ⟨first, rfl, rfl, .inr ⟨candidate, rfl, fits, rfl⟩⟩
        | succ place => exact ih here
      · simp only [matchPosition, if_neg fits] at here
        have stays : ¬Fits first candidate := by simpa [Fits] using fits
        cases place with
        | zero =>
          obtain rfl := Option.some.inj here
          refine ⟨first, rfl, rfl, .inl ⟨rfl, ?_⟩⟩
          rintro _ ⟨⟩
          exact stays
        | succ place => exact ih here

/-- The last pass leaves the cells of the slots, and makes a fresh one for a slot without. -/
theorem fill_at {cell : Cell} (here : (fill list slots).1[place]? = some cell) :
    ∃ slot, slots[place]? = some slot ∧ (slot.cell = some cell ∨ slot.cell = none ∧
      cell = { id := cell.id, kind := slot.block.kind, source := slot.block.source } ∧
      cell.id ∈ newIds slots (fill list slots).1) := by
  -- On the slots: an empty one takes a fresh cell, so the list changes on the way down.
  induction slots generalizing list place with
  | nil => cases here
  | cons slot more ih =>
    rw [fill] at here
    cases known : slot.cell with
    | some held =>
      simp only [known, fill, newIds, Option.isNone_some, Bool.false_eq_true, if_false] at here ⊢
      cases place with
      | zero => exact ⟨slot, rfl, .inl (known.trans here)⟩
      | succ place => exact ih here
    | none =>
      simp only [known, fill, newIds, Option.isNone_none, if_true] at here ⊢
      cases place with
      | zero =>
        obtain rfl := Option.some.inj here
        exact ⟨slot, rfl, .inr ⟨known, rfl, List.mem_cons_self⟩⟩
      | succ place =>
        obtain ⟨other, there, held | ⟨empty, made, fresh⟩⟩ := ih here
        · exact ⟨other, there, .inl held⟩
        · exact ⟨other, there, .inr ⟨empty, made, List.mem_cons_of_mem _ fresh⟩⟩

/-! ## What no block takes over -/

/-- Cells that are left of a row of distinct ones are those that a test keeps, if the test tells which
are left. -/
theorem eq_filter_of_sublist {few all : List Cell} (fewer : few.Sublist all)
    (distinct : (ids all).Nodup) {keep : Cell → Bool}
    (left : ∀ cell ∈ all, keep cell = true ↔ cell.id ∈ ids few) : few = all.filter keep := by
  -- As the cells are distinct, an identity that is left tells which of them it is.
  induction fewer with
  | slnil => rfl
  | @cons few rest cell fewer ih =>
    obtain ⟨new, distinct⟩ := List.nodup_cons.mp distinct
    obtain ⟨here, left⟩ := List.forall_mem_cons.mp left
    have gone : ¬keep cell = true := fun kept => new ((fewer.map Cell.id).subset (here.mp kept))
    rw [List.filter_cons_of_neg gone]
    exact ih distinct left
  | @cons_cons few rest cell fewer ih =>
    obtain ⟨new, distinct⟩ := List.nodup_cons.mp distinct
    obtain ⟨here, left⟩ := List.forall_mem_cons.mp left
    rw [List.filter_cons_of_pos (here.mpr List.mem_cons_self), ← ih distinct]
    intro other member
    have apart : other.id ≠ cell.id := by
      intro same
      have there : other.id ∈ ids rest := List.mem_map_of_mem member
      rw [same] at there
      exact new there
    rw [left other member, ids_cons, List.mem_cons, or_iff_right apart]

/-- Cells are remembered in front of those that were remembered before, as many as the limit allows. -/
theorem removed_foldl_bury (cells : List Cell) (short : list.removed.length ≤ removedLimit) :
    (cells.foldl bury list).removed = (cells.reverse ++ list.removed).take removedLimit := by
  -- Cutting off after every cell cuts off no more than cutting off once in the end.
  induction cells generalizing list with
  | nil => exact (List.take_of_length_le short).symm
  | cons cell rest ih =>
    have limit : removedLimit - rest.reverse.length ≤ removedLimit := Nat.sub_le ..
    rw [List.foldl_cons, ih (List.length_take_le ..), List.reverse_cons, List.append_assoc,
      List.singleton_append, List.take_append, List.take_append, bury, List.take_take,
      Nat.min_eq_left limit]

theorem sublist_spared (list : CellList) (blocks : List Block) :
    (list.spared blocks).Sublist list.cells := by
  have left := unused_matchEqual blocks (list.cells.map fun cell => ⟨cell, false⟩) list.removed
  rw [unused_candidates] at left
  exact (unused_matchPosition _ _).trans left

theorem sublist_dormant (list : CellList) (blocks : List Block) :
    (list.dormant blocks).Sublist list.removed :=
  removed_matchEqual blocks _ list.removed

theorem shows_slotsFor (list : CellList) (blocks : List Block) :
    ∀ slot ∈ list.slotsFor blocks, slot.Shows := by
  have shows := (matchEqual_spec blocks (list.cells.map fun cell => ⟨cell, false⟩) list.removed).2.1
  exact (matchPosition_spec _ _ shows).2.1

/-- A cell that was in use is live after reconciling, or no block took it over. -/
theorem mem_ids_reconcile (blocks : List Block) {cell : Cell} (member : cell ∈ list.held) :
    cell.id ∈ ids (list.reconcile blocks).cells ∨ cell.id ∈ ids (list.spared blocks) ∨
      cell.id ∈ ids (list.dormant blocks) := by
  obtain ⟨-, -, -, -, -, -, perm⟩ := list.reconcile_spec blocks
  have known : cell.id ∈ list.freshIds blocks ++ (ids list.cells ++ ids list.removed) := by
    rw [← ids_append]
    exact List.mem_append_right _ (List.mem_map_of_mem member)
  simpa [ids] using perm.mem_iff.mpr known

section Left

variable (coherent : list.Coherent) (blocks : List Block)

include coherent

theorem Coherent.spared_iff {cell : Cell} (live : cell ∈ list.cells) :
    cell.id ∈ ids (list.spared blocks) ↔ cell.id ∉ ids (list.reconcile blocks).cells := by
  constructor
  · intro left used
    refine List.disjoint_of_nodup_append (coherent.distinct_reconcile blocks) used ?_
    rw [ids_append, List.mem_append]
    exact .inl ((ids_perm (List.reverse_perm _)).mem_iff.mpr left)
  · intro unused
    rcases mem_ids_reconcile blocks (mem_held.mpr (.inl live)) with used | left | remembered
    · exact absurd used unused
    · exact left
    · -- A live cell is not a remembered one.
      have there := ((list.sublist_dormant blocks).map Cell.id).subset remembered
      exact absurd there (List.disjoint_of_nodup_append coherent.distinct (List.mem_map_of_mem live))

theorem Coherent.dormant_iff {cell : Cell} (remembered : cell ∈ list.removed) :
    cell.id ∈ ids (list.dormant blocks) ↔ cell.id ∉ ids (list.reconcile blocks).cells := by
  constructor
  · intro left used
    refine List.disjoint_of_nodup_append (coherent.distinct_reconcile blocks) used ?_
    rw [ids_append, List.mem_append]
    exact .inr left
  · intro unused
    rcases mem_ids_reconcile blocks (mem_held.mpr (.inr remembered)) with used | live | left
    · exact absurd used unused
    · have there := ((list.sublist_spared blocks).map Cell.id).subset live
      exact absurd (List.mem_map_of_mem remembered)
        (List.disjoint_of_nodup_append coherent.distinct there)
    · exact left

/-- What is remembered after reconciling: the live cells that no block took over, the last one first,
then those that were remembered and not taken back, as many as the limit allows. -/
theorem Coherent.removed_reconcile (short : list.removed.length ≤ removedLimit) :
    let unused := fun cell : Cell => decide (cell.id ∉ ids (list.reconcile blocks).cells)
    (list.reconcile blocks).removed =
      ((list.cells.filter unused).reverse ++ list.removed.filter unused).take removedLimit := by
  intro unused
  -- A live cell that no block took is buried; a remembered one stays, unless a block revived it.
  have spared : list.spared blocks = list.cells.filter unused := by
    apply eq_filter_of_sublist (list.sublist_spared blocks) coherent.distinct_cells
    intro cell live
    rw [coherent.spared_iff blocks live, decide_eq_true_iff]
  have dormant : list.dormant blocks = list.removed.filter unused := by
    apply eq_filter_of_sublist (list.sublist_dormant blocks)
    · exact (List.nodup_append.mp coherent.distinct).2.1
    · intro cell remembered
      rw [coherent.dormant_iff blocks remembered, decide_eq_true_iff]
  let before : CellList := { list with removed := list.dormant blocks }
  have kept : (fill before (list.slotsFor blocks)).2.removed = list.dormant blocks :=
    (fill_spec before (list.slotsFor blocks) (list.shows_slotsFor blocks)).2.1
  have fewer := (list.sublist_dormant blocks).length_le.trans short
  rw [← spared, ← dormant, ← kept]
  exact removed_foldl_bury (list.spared blocks) (kept ▸ fewer)

end Left

/-! ## The cell of each block -/

/-- How the cell of a block came about when a list was reconciled. The cells afterwards are `after`, and
`known` are the identities that were seen before. -/
inductive Provenance (list : CellList) (known : List Text) (after : List Cell) (place : Nat)
    (block : Block) : Cell → Prop
  /-- It is a live cell that shows the block, as it was. -/
  | live {cell : Cell} : cell ∈ list.cells → cell.block = block →
      Provenance list known after place block cell
  /-- It is a remembered cell that shows the block, as it was. -/
  | remembered {cell : Cell} : cell ∈ list.removed → cell.block = block →
      Provenance list known after place block cell
  /-- It is the cell at the same place with the source of the block. Whatever cells showed the block,
  other blocks have them. -/
  | rewritten {old : Cell} : list.cells[place]? = some old → old.kind = block.kind →
      (∀ other ∈ list.held, other.block = block → other ∈ after) →
      Provenance list known after place block { old with source := block.source }
  /-- It is new. Nor was the cell at the same place left, unless it is of another kind. -/
  | fresh {id : Text} : id ∉ known →
      (∀ other ∈ list.held, other.block = block → other ∈ after) →
      (∀ old, list.cells[place]? = some old → old.kind = block.kind → old.id ∈ ids after) →
      Provenance list known after place block { id, kind := block.kind, source := block.source }

/-- A candidate that a block took over is not among those that are left. -/
theorem not_mem_unused {candidate : Candidate} (distinct : (ids (live.map (·.cell))).Nodup)
    (member : candidate ∈ live) (used : candidate.used = true) :
    candidate.cell.id ∉ ids (unused live) := by
  intro left
  obtain ⟨cell, there, same⟩ := List.mem_map.mp left
  obtain ⟨other, free, rfl⟩ := List.mem_map.mp there
  rw [ids, List.map_map] at distinct
  obtain ⟨other_mem, unused⟩ := List.mem_filter.mp free
  obtain rfl := List.inj_on_of_nodup_map distinct other_mem member same
  simp [used] at unused

theorem cells_firstPass (list : CellList) (blocks : List Block) :
    (list.firstPass blocks).2.1.map (·.cell) = list.cells := by
  rw [firstPass, cells_matchEqual, List.map_map]
  exact List.map_id list.cells

theorem firstPass_spec (list : CellList) (blocks : List Block) :
    (list.firstPass blocks).1.map (·.block) = blocks ∧
      (∀ slot ∈ (list.firstPass blocks).1, slot.Shows) ∧
      list.held.Perm (taken (list.firstPass blocks).1 ++
        (unused (list.firstPass blocks).2.1 ++ (list.firstPass blocks).2.2)) := by
  have spec := matchEqual_spec blocks (list.cells.map fun cell => ⟨cell, false⟩) list.removed
  rwa [unused_candidates] at spec

/-- If the first pass finds nothing for a block, then all cells that show the block are used for others. -/
theorem used_of_unmatched {slot : Slot} (member : slot ∈ (list.firstPass blocks).1)
    (empty : slot.cell = none) :
    ∀ other ∈ list.held, other.block = slot.block → other ∈ (list.reconcile blocks).cells := by
  obtain ⟨-, -, passed⟩ := list.firstPass_spec blocks
  intro other held shows
  rcases List.mem_append.mp (passed.mem_iff.mp held) with taken | left
  · obtain ⟨taker, there, holds⟩ := List.mem_filterMap.mp taken
    obtain ⟨index, there⟩ := List.mem_iff_getElem?.mp there
    exact List.mem_of_getElem? (getElem?_reconcile there holds)
  · exact absurd shows (unmatched_matchEqual member empty other (List.mem_append.mp left))

/-- A candidate that the first pass used is live after reconciling. -/
theorem Coherent.live_of_used (coherent : list.Coherent) {candidate : Candidate}
    (member : candidate ∈ (list.firstPass blocks).2.1) (used : candidate.used = true) :
    candidate.cell.id ∈ ids (list.reconcile blocks).cells := by
  have cells := list.cells_firstPass blocks
  have live : candidate.cell ∈ list.cells := cells ▸ List.mem_map_of_mem member
  have distinct : (ids ((list.firstPass blocks).2.1.map (·.cell))).Nodup :=
    cells ▸ coherent.distinct_cells
  by_contra lost
  have left := (coherent.spared_iff blocks live).mpr lost
  have fewer := unused_matchPosition (list.firstPass blocks).1 (list.firstPass blocks).2.1
  exact not_mem_unused distinct member used ((fewer.map Cell.id).subset left)

theorem Coherent.provenance (coherent : list.Coherent) {known : List Text}
    (seen : ∀ id ∈ known, id = [] ∨ id ∈ list.issued) {cell : Cell}
    (here : (list.reconcile blocks).cells[place]? = some cell)
    (read : blocks[place]? = some block) :
    list.Provenance known (list.reconcile blocks).cells place block cell := by
  obtain ⟨shown, shows, -⟩ := list.firstPass_spec blocks
  have cells := list.cells_firstPass blocks
  -- The cell goes back from the last pass through the second one to the first.
  obtain ⟨slot, there, filled⟩ := fill_at here
  change (matchPosition (list.firstPass blocks).1 (list.firstPass blocks).2.1).1[place]? = _ at there
  obtain ⟨before, first, -, moved⟩ := matchPosition_at there
  obtain rfl : before.block = block := by
    rw [← shown, List.getElem?_map, first] at read
    exact Option.some.inj read
  have member : before ∈ (list.firstPass blocks).1 := List.mem_of_getElem? first
  rcases moved with ⟨rfl, unfit⟩ | ⟨candidate, pick, ⟨empty, -, kind⟩, holds⟩
  · rcases filled with holds | ⟨empty, made, fresh⟩
    · have block := shows slot member cell holds
      rcases mem_matchEqual list blocks (.inl (List.mem_filterMap.mpr ⟨slot, member, holds⟩)) with
        live | remembered
      · exact .live live block
      · exact .remembered remembered block
    · obtain ⟨-, -, named, unseen, -⟩ := list.reconcile_spec blocks
      have new : cell.id ∉ known := fun old =>
        (seen _ old).elim (fun nameless => named (nameless ▸ fresh)) (unseen _ fresh)
      rw [made]
      refine .fresh new (used_of_unmatched member empty) fun old there kind => ?_
      -- The cell at the place was used already, or the second pass would have put it here.
      rw [← cells, List.getElem?_map] at there
      obtain ⟨candidate, pick, rfl⟩ := Option.map_eq_some_iff.mp there
      have used : candidate.used = true := by
        by_contra free
        exact unfit candidate pick ⟨empty, by simpa using free, kind⟩
      exact coherent.live_of_used (List.mem_of_getElem? pick) used
  · rcases filled with filled | ⟨missing, -⟩
    · obtain rfl := Option.some.inj (filled.symm.trans holds)
      have there : list.cells[place]? = some candidate.cell := by
        rw [← cells, List.getElem?_map, pick]
        rfl
      exact .rewritten there kind (used_of_unmatched member empty)
    · cases missing.symm.trans holds

/-! ## Chronicles -/

/-- However many cells are removed, no more are remembered than the limit allows. -/
theorem short_perform (short : list.removed.length ≤ removedLimit) (coherent : list.Coherent)
    (action : Action) : (action.perform list).2.removed.length ≤ removedLimit := by
  cases action with
  | insert index kind source =>
    simp only [Action.perform]
    split
    next inserted => rwa [(perm_insert inserted).2.1]
    next => exact short
  | remove index =>
    simp only [Action.perform]
    split
    next taken =>
      rw [(perm_remove taken).2.1]
      exact List.length_take_le ..
    next => exact short
  | move source target =>
    simp only [Action.perform]
    split
    next moved => rwa [(perm_move moved).2.1]
    next => exact short
  | setKind index kind =>
    simp only [Action.perform]
    split
    next changed => rwa [setKind_ok changed]
    next => exact short
  | setSource index source =>
    simp only [Action.perform]
    split
    next changed =>
      unfold CellList.setSource at changed
      split at changed
      · cases changed
      · cases changed
        exact short
    next => exact short
  | reconcile blocks =>
    simp only [Action.perform]
    rw [coherent.removed_reconcile blocks short]
    exact List.length_take_le ..
  | freshId => exact short

theorem Chronicle.short (cells : List Cell) (actions : List Action) :
    (of cells actions).list.removed.length ≤ removedLimit := by
  induction actions using List.reverseRecOn with
  | nil =>
    change (ofCells cells).removed.length ≤ _
    rw [removed_ofCells]
    exact Nat.zero_le _
  | append_singleton actions action ih =>
    have step : of cells (actions ++ [action]) = (of cells actions).continued action := by
      simp [of]
    rw [step]
    exact short_perform ih (complete_of cells actions).coherent action

/-- However cells were loaded and whatever was done to them since: after reconciling them with blocks
they show exactly these blocks, in order. Each cell is a live or a remembered one that showed its block
already, the one at its place with another source, or a fresh one. No identity is used twice, and none
is both live and remembered. Remembered are the live cells that are used no more, the last one first,
before those that were remembered already; and only those are lost that do not fit within the limit. -/
theorem Chronicle.reconcile_accounts (cells : List Cell) (actions : List Action)
    (blocks : List Block) :
    let chronicle := of cells actions
    let list := chronicle.list
    let after := list.reconcile blocks
    let unused := fun cell : Cell => decide (cell.id ∉ ids after.cells)
    after.blocks = blocks ∧
    (∀ place cell block, after.cells[place]? = some cell → blocks[place]? = some block →
      list.Provenance chronicle.known after.cells place block cell) ∧
    (ids after.cells ++ ids after.removed).Nodup ∧
    after.removed = ((list.cells.filter unused).reverse ++ list.removed.filter unused).take
      removedLimit ∧
    ∀ cell ∈ list.held, cell.id ∉ ids after.cells → cell ∉ after.removed →
      after.removed.length = removedLimit := by
  intro chronicle list after unused
  have complete : chronicle.Complete := complete_of cells actions
  have coherent : list.Coherent := complete.coherent
  have removed := coherent.removed_reconcile blocks (short cells actions)
  refine ⟨list.blocks_reconcile blocks, ?_, (coherent.reconcile blocks).distinct, removed, ?_⟩
  · intro place cell block here read
    exact coherent.provenance complete.issued here read
  · intro cell held gone lost
    have keeps : unused cell = true := decide_eq_true gone
    rw [removed] at lost ⊢
    have member : cell ∈ (list.cells.filter unused).reverse ++ list.removed.filter unused := by
      rw [List.mem_append, List.mem_reverse]
      rcases mem_held.mp held with live | remembered
      · exact .inl (List.mem_filter.mpr ⟨live, keeps⟩)
      · exact .inr (List.mem_filter.mpr ⟨remembered, keeps⟩)
    -- Nothing is lost from a row that fits within the limit.
    rw [List.length_take, Nat.min_eq_left]
    by_contra few
    rw [List.take_of_length_le (Nat.le_of_not_le few)] at lost
    exact lost member

end Notebook.CellList

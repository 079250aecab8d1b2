import Notebook.Proofs.CellList.Recovery
/-!
# Cells that stay in their places

When sources were changed in the text alone, every cell should keep its place. But `reconcile` looks
for equal cells first, among the live ones from the top and then among the remembered ones, and only
then at the place of a block. So a cell stays where it is exactly if nothing can be mistaken for it.
-/
namespace Notebook.CellList

/-- What was read at the place of a cell is what the cell shows. -/
def Still (pair : Cell × Block) : Prop := pair.1.block = pair.2

instance : DecidablePred Still := fun pair => inferInstanceAs (Decidable (pair.1.block = pair.2))

/-- The cell with the source that was read at its place. -/
def rewritten (pair : Cell × Block) : Cell := { pair.1 with source := pair.2.source }

/-- Every cell with the source that was read at its place. -/
def inPlace (list : CellList) (blocks : List Block) : List Cell :=
  (list.cells.zip blocks).map rewritten

/-- Of two cells, the upper one keeps its source if either is shown at the place of the other. -/
def Apart (upper lower : Cell × Block) : Prop :=
  upper.1.block = lower.2 ∨ lower.1.block = upper.2 → Still upper

instance : DecidableRel Apart := fun upper lower =>
  inferInstanceAs (Decidable (upper.1.block = lower.2 ∨ lower.1.block = upper.2 → Still upper))

/-- The blocks are read as the cells at their places, and not as any others. -/
structure Unmistaken (list : CellList) (blocks : List Block) : Prop where
  kinds : blocks.map Block.kind = list.cells.map Cell.kind
  apart : (list.cells.zip blocks).Pairwise Apart
  forgotten : ∀ pair ∈ list.cells.zip blocks, ∀ gone ∈ list.removed, gone.block = pair.2 → Still pair

variable {done rest : List Candidate} {pairs : List (Cell × Block)} {removed : List Cell}

/-! ## The first pass -/

theorem claim_append {block : Block}
    (other : ∀ candidate ∈ done, candidate.used = false → candidate.cell.block ≠ block)
    (live : List Candidate) :
    claim block (done ++ live) = (claim block live).map fun result => (result.1, done ++ result.2) := by
  induction done with
  | nil => simp
  | cons candidate more ih =>
    obtain ⟨here, others⟩ := List.forall_mem_cons.mp other
    have passed : ¬((!candidate.used) = true ∧ candidate.cell.block = block) := by
      simpa using here
    simp only [List.cons_append, claim, if_neg passed, ih others, Option.map_map]
    rfl

theorem claim_eq_none {block : Block} {live : List Candidate} (missing : claim block live = none) :
    ∀ candidate ∈ live, candidate.used = false → candidate.cell.block ≠ block := by
  induction live with
  | nil => exact List.forall_mem_nil _
  | cons candidate more ih =>
    rw [claim] at missing
    split at missing
    next => cases missing
    next differs =>
      refine List.forall_mem_cons.mpr ⟨fun free same => differs ⟨by simp [free], same⟩, ih ?_⟩
      exact Option.map_eq_none_iff.mp missing

theorem claim_eq_none_of {block : Block} {live : List Candidate}
    (other : ∀ candidate ∈ live, candidate.used = false → candidate.cell.block ≠ block) :
    claim block live = none := by
  have none := claim_append other []
  simpa [claim] using none

/-- The slot of a block, and the cell at its place, after a first pass that mistook nothing. -/
def ownSlot (pair : Cell × Block) : Slot := ⟨pair.2, if Still pair then some pair.1 else none⟩

def ownCandidate (pair : Cell × Block) : Candidate := ⟨pair.1, decide (Still pair)⟩

theorem matchEqual_own (apart : pairs.Pairwise Apart)
    (past : ∀ candidate ∈ done, candidate.used = false →
      ∀ pair ∈ pairs, candidate.cell.block ≠ pair.2)
    (forgotten : ∀ pair ∈ pairs, ∀ gone ∈ removed, gone.block = pair.2 → Still pair) :
    matchEqual (pairs.map (·.2)) (done ++ pairs.map fun pair => ⟨pair.1, false⟩) removed =
      (pairs.map ownSlot, done ++ pairs.map ownCandidate, removed) := by
  -- The cells above are through: those that are not used show none of the blocks to come.
  induction pairs generalizing done with
  | nil => simp [matchEqual]
  | cons pair more ih =>
    obtain ⟨below, apart⟩ := List.pairwise_cons.mp apart
    obtain ⟨lost, others⟩ := List.forall_mem_cons.mp forgotten
    have above (candidate : Candidate) (member : candidate ∈ done) (free : candidate.used = false) :=
      past candidate member free pair List.mem_cons_self
    have onward := @ih (done ++ [ownCandidate pair]) apart ?_ others
    · rw [List.append_assoc, List.append_assoc, List.singleton_append] at onward
      rw [List.map_cons, List.map_cons, matchEqual, claim_append above]
      -- A block that is still shown finds its own cell first, any other one finds none at all.
      by_cases still : Still pair
      · have kept : (⟨pair.1, true⟩ : Candidate) = ownCandidate pair := by simp [ownCandidate, still]
        have taken : claim pair.2 (⟨pair.1, false⟩ :: more.map fun pair => ⟨pair.1, false⟩) =
            some (pair.1, ownCandidate pair :: more.map fun pair => ⟨pair.1, false⟩) := by
          rw [claim, if_pos ⟨rfl, still⟩, ← kept]
        simp only [taken, Option.map_some, onward, List.map_cons, ownSlot, if_pos still]
        rfl
      · have left : (⟨pair.1, false⟩ : Candidate) = ownCandidate pair := by
          simp [ownCandidate, still]
        have missing : claim pair.2 (⟨pair.1, false⟩ :: more.map fun pair => ⟨pair.1, false⟩) =
            none := by
          apply claim_eq_none_of
          refine List.forall_mem_cons.mpr ⟨fun _ => still, ?_⟩
          intro candidate member _ same
          obtain ⟨lower, there, rfl⟩ := List.mem_map.mp member
          exact still (below lower there (.inr same))
        have nobody : revive pair.2 removed = (none, removed) := by
          have absent (gone : Cell) (member : gone ∈ removed) : ¬gone.block = pair.2 :=
            fun same => still (lost gone member same)
          rw [revive, List.find?_eq_none.mpr (by simpa using absent),
            List.eraseP_of_forall_not (by simpa using absent)]
        simp only [missing, Option.map_none, nobody]
        rw [left, onward, List.map_cons, ownSlot, if_neg still]
        rfl
    · intro candidate member free lower there
      rcases List.mem_append.mp member with before | here
      · exact past candidate before free lower (List.mem_cons_of_mem _ there)
      · obtain rfl := List.mem_singleton.mp here
        have changed : ¬Still pair := by simpa [ownCandidate] using free
        exact fun same => changed (below lower there (.inl same))

/-! ## The other passes -/

theorem matchPosition_own (kinds : ∀ pair ∈ pairs, pair.2.kind = pair.1.kind) :
    (matchPosition (pairs.map ownSlot) (pairs.map ownCandidate)).1 =
      (pairs.map rewritten).map fun cell => ⟨cell.block, some cell⟩ := by
  induction pairs with
  | nil => rfl
  | cons pair more ih =>
    obtain ⟨kind, others⟩ := List.forall_mem_cons.mp kinds
    have block : (rewritten pair).block = pair.2 := by rw [Cell.block, rewritten, ← kind]
    simp only [List.map_cons, matchPosition, ih others, block]
    by_cases still : Still pair
    · have same : rewritten pair = pair.1 := by
        rw [rewritten, ← still]
        rfl
      simp [ownSlot, ownCandidate, still, same]
    · simp [ownSlot, ownCandidate, still, kind, rewritten]

theorem map_zip_left {list : CellList} {blocks : List Block}
    (kinds : blocks.map Block.kind = list.cells.map Cell.kind) :
    (list.cells.zip blocks).map Prod.fst = list.cells ∧
      (list.cells.zip blocks).map Prod.snd = blocks ∧
      ∀ pair ∈ list.cells.zip blocks, pair.2.kind = pair.1.kind := by
  have length : blocks.length = list.cells.length := by simpa using congrArg List.length kinds
  refine ⟨List.map_fst_zip length.ge, List.map_snd_zip length.le, ?_⟩
  intro pair member
  obtain ⟨index, bound, rfl⟩ := List.mem_iff_getElem.mp member
  rw [List.getElem_zip]
  rw [List.length_zip] at bound
  have here := congrArg (fun row : List Kind => row[index]?) kinds
  simpa [show index < blocks.length by omega, show index < list.cells.length by omega] using here

theorem map_candidate_zip {list : CellList} {blocks : List Block}
    (length : blocks.length = list.cells.length) :
    (list.cells.zip blocks).map (fun pair => (⟨pair.1, false⟩ : Candidate)) =
      list.cells.map fun cell => ⟨cell, false⟩ := by
  rw [← congrArg (List.map fun cell => (⟨cell, false⟩ : Candidate)) (List.map_fst_zip length.ge),
    List.map_map]
  rfl

/-- The first pass over a list, when every block stands at the place of a cell. -/
theorem matchEqual_zip {list : CellList} {blocks : List Block}
    (length : blocks.length = list.cells.length) (apart : (list.cells.zip blocks).Pairwise Apart)
    (forgotten : ∀ pair ∈ list.cells.zip blocks, ∀ gone ∈ list.removed,
      gone.block = pair.2 → Still pair) :
    matchEqual blocks (list.cells.map fun cell => ⟨cell, false⟩) list.removed =
      ((list.cells.zip blocks).map ownSlot, (list.cells.zip blocks).map ownCandidate,
        list.removed) := by
  have equal := @matchEqual_own [] _ _ apart (by simp) forgotten
  rwa [List.nil_append, List.nil_append, map_candidate_zip length, List.map_snd_zip length.le] at equal

theorem Unmistaken.cells_reconcile {list : CellList} {blocks : List Block}
    (unmistaken : list.Unmistaken blocks) : (list.reconcile blocks).cells = list.inPlace blocks := by
  obtain ⟨-, -, kinds⟩ := map_zip_left unmistaken.kinds
  have length : blocks.length = list.cells.length := by simpa using congrArg List.length unmistaken.kinds
  simp only [reconcile, matchEqual_zip length unmistaken.apart unmistaken.forgotten,
    matchPosition_own kinds, fill_filled]
  rfl

/-! ## Only then -/

/-- A cell that was taken from its own place was the first one to be found. -/
theorem claim_own {block : Block} {own cell : Cell} {after : List Candidate}
    (above : own.id ∉ ids (done.map (·.cell))) (below : own.id ∉ ids (rest.map (·.cell)))
    (claimed : claim block (done ++ ⟨own, false⟩ :: rest) = some (cell, after))
    (same : cell.id = own.id) :
    (∀ candidate ∈ done, candidate.used = false → candidate.cell.block ≠ block) ∧
      own.block = block ∧ after = done ++ ⟨own, true⟩ :: rest := by
  induction done generalizing after with
  | nil =>
    rw [List.nil_append, claim] at claimed
    split at claimed
    next fits =>
      cases claimed
      exact ⟨List.forall_mem_nil _, fits.2, rfl⟩
    next =>
      obtain ⟨⟨found, left⟩, there, eq⟩ := Option.map_eq_some_iff.mp claimed
      cases eq
      -- The cell was found further down, where its identity does not stand.
      refine absurd ?_ below
      obtain ⟨-, perm⟩ := claim_spec there
      have member : cell ∈ unused rest := perm.symm.subset List.mem_cons_self
      obtain ⟨candidate, free, rfl⟩ := List.mem_map.mp member
      rw [← same, ids, List.map_map]
      exact List.mem_map_of_mem (List.mem_of_mem_filter free)
  | cons candidate more ih =>
    rw [List.map_cons, ids_cons, List.mem_cons, not_or] at above
    rw [List.cons_append, claim] at claimed
    split at claimed
    next =>
      cases claimed
      exact absurd same.symm above.1
    next differs =>
      obtain ⟨⟨found, left⟩, there, eq⟩ := Option.map_eq_some_iff.mp claimed
      cases eq
      obtain ⟨others, shows, rfl⟩ := ih above.2 there
      refine ⟨List.forall_mem_cons.mpr ⟨fun free equal => differs ⟨by simp [free], equal⟩, others⟩,
        shows, rfl⟩

theorem revive_eq_none {block : Block} (missing : (revive block removed).1 = none) :
    (∀ gone ∈ removed, gone.block ≠ block) ∧ revive block removed = (none, removed) := by
  have absent : ∀ gone ∈ removed, gone.block ≠ block := by
    simpa [revive, List.find?_eq_none] using missing
  refine ⟨absent, Prod.ext missing ?_⟩
  exact List.eraseP_of_forall_not (by simpa using absent)

/-- If the first pass puts no cell into the place of another one, then nothing could be mistaken. -/
theorem apart_of_matchEqual
    (distinct : (ids (done.map (·.cell) ++ pairs.map Prod.fst ++ removed)).Nodup)
    (own : ∀ (index : Nat) (pair : Cell × Block) (slot : Slot) (cell : Cell), pairs[index]? = some pair →
      (matchEqual (pairs.map (·.2)) (done ++ pairs.map fun pair => ⟨pair.1, false⟩) removed).1[index]? =
        some slot → slot.cell = some cell → cell.id = pair.1.id) :
    (∀ candidate ∈ done, candidate.used = false → ∀ pair ∈ pairs, candidate.cell.block ≠ pair.2) ∧
      pairs.Pairwise Apart ∧
      ∀ pair ∈ pairs, ∀ gone ∈ removed, gone.block = pair.2 → Still pair := by
  induction pairs generalizing done with
  | nil => simp
  | cons pair more ih =>
    let fresh (pair : Cell × Block) : Candidate := ⟨pair.1, false⟩
    have above : pair.1.id ∉ ids (done.map (·.cell)) := by
      intro member
      simp only [ids_append, List.map_cons, ids_cons, List.append_assoc, List.cons_append] at distinct
      exact (List.disjoint_of_nodup_append distinct) member List.mem_cons_self
    have below : pair.1.id ∉ ids ((more.map fresh).map (·.cell)) ∧ pair.1.id ∉ ids removed := by
      simp only [ids_append, List.map_cons, ids_cons, List.append_assoc, List.cons_append] at distinct
      have alone := (List.nodup_cons.mp (List.nodup_append.mp distinct).2.1).1
      rw [List.mem_append, not_or] at alone
      rwa [List.map_map]
    have onward (flag : Bool) := @ih (done ++ [⟨pair.1, flag⟩]) (by simpa using distinct)
    simp only [List.append_assoc, List.singleton_append, List.forall_mem_append,
      List.forall_mem_cons] at onward
    simp only [List.map_cons] at own
    cases claimed : claim pair.2 (done ++ fresh pair :: more.map fresh) with
    | some result =>
      obtain ⟨cell, after⟩ := result
      simp only [matchEqual, fresh, claimed] at own
      -- The block found a cell, and that has to be the one at its place.
      obtain ⟨others, still, rfl⟩ := claim_own above below.1 claimed (own 0 pair _ cell rfl rfl rfl)
      obtain ⟨⟨past, -⟩, apart, lost⟩ := onward true fun index => own (index + 1)
      refine ⟨fun candidate member free => List.forall_mem_cons.mpr
          ⟨others candidate member free, past candidate member free⟩,
        List.pairwise_cons.mpr ⟨fun _ _ _ => still, apart⟩,
        List.forall_mem_cons.mpr ⟨fun _ _ _ => still, lost⟩⟩
    | none =>
      have others := claim_eq_none claimed
      simp only [List.forall_mem_append, List.forall_mem_cons, List.forall_mem_map] at others
      obtain ⟨before, here, later⟩ := others
      simp only [matchEqual, fresh, claimed] at own
      -- A removed cell would bring in an identity that does not belong there.
      have nobody : (revive pair.2 removed).1 = none := by
        cases taken : (revive pair.2 removed).1 with
        | none => rfl
        | some gone =>
          have same := own 0 pair _ gone rfl rfl taken
          have member : gone ∈ removed := List.mem_of_find?_eq_some taken
          exact absurd (same ▸ List.mem_map_of_mem member) below.2
      obtain ⟨absent, kept⟩ := revive_eq_none nobody
      rw [kept] at own
      obtain ⟨⟨past, own, -⟩, apart, lost⟩ := onward false fun index => own (index + 1)
      refine ⟨fun candidate member free => List.forall_mem_cons.mpr
          ⟨before candidate member free, past candidate member free⟩,
        List.pairwise_cons.mpr ⟨?_, apart⟩,
        List.forall_mem_cons.mpr ⟨fun gone member same => absurd same (absent gone member), lost⟩⟩
      rintro lower member (same | same)
      · exact absurd same (own rfl lower member)
      · exact absurd same (later lower member rfl)

theorem getElem?_matchPosition {slots : List Slot} {live : List Candidate} {index : Nat} {slot : Slot}
    {cell : Cell} (here : slots[index]? = some slot) (held : slot.cell = some cell) :
    (matchPosition slots live).1[index]? = some slot := by
  induction slots generalizing live index with
  | nil => cases here
  | cons first more ih =>
    cases live with
    | nil => exact here
    | cons candidate rest =>
      rw [matchPosition]
      cases index with
      | zero =>
        obtain rfl : first = slot := by simpa using here
        simp [held]
      | succ index =>
        have later := @ih rest index (by simpa using here)
        dsimp only
        split <;> simpa using later

theorem getElem?_fill {list : CellList} {slots : List Slot} {index : Nat} {slot : Slot}
    {cell : Cell} (here : slots[index]? = some slot) (held : slot.cell = some cell) :
    (fill list slots).1[index]? = some cell := by
  induction slots generalizing list index with
  | nil => cases here
  | cons first more ih =>
    rw [fill]
    cases index with
    | zero =>
      obtain rfl : first = slot := by simpa using here
      simp [held]
    | succ index =>
      have here : more[index]? = some slot := by simpa using here
      split
      · exact ih here
      · exact ih here

/-- The first pass over a list, in which blocks take over equal cells. -/
def firstPass (list : CellList) (blocks : List Block) : List Slot × List Candidate × List Cell :=
  matchEqual blocks (list.cells.map fun cell => ⟨cell, false⟩) list.removed

/-- What the first pass puts into a slot is what stands there in the end. -/
theorem getElem?_reconcile {list : CellList} {blocks : List Block} {index : Nat} {slot : Slot}
    {cell : Cell} (here : (list.firstPass blocks).1[index]? = some slot)
    (held : slot.cell = some cell) : (list.reconcile blocks).cells[index]? = some cell :=
  getElem?_fill (getElem?_matchPosition here held) held

theorem unmistaken_of_ids {list : CellList} {blocks : List Block} (coherent : list.Coherent)
    (kinds : blocks.map Block.kind = list.cells.map Cell.kind)
    (same : ids (list.reconcile blocks).cells = ids list.cells) : list.Unmistaken blocks := by
  obtain ⟨cells, read, -⟩ := map_zip_left kinds
  have length : blocks.length = list.cells.length := by simpa using congrArg List.length kinds
  have distinct : (ids ([] ++ (list.cells.zip blocks).map Prod.fst ++ list.removed)).Nodup := by
    rw [List.nil_append, cells, ids_append]
    exact coherent.distinct
  obtain ⟨-, apart, forgotten⟩ := @apart_of_matchEqual [] _ _ distinct
    fun index pair slot cell here there held => by
      rw [List.nil_append, map_candidate_zip length, read] at there
      have last := getElem?_reconcile there held
      have first : list.cells[index]? = some pair.1 := by
        rw [← cells, List.getElem?_map, here]
        rfl
      have id := congrArg (fun row : List Text => row[index]?) same
      simpa [ids, last, first] using id
  exact ⟨kinds, apart, forgotten⟩

/-! ## Cells that show what was read -/

def own (cell : Cell) : Cell × Block := (cell, cell.block)

@[simp] theorem still_own (cell : Cell) : Still (own cell) := rfl

@[simp] theorem ownSlot_own (cell : Cell) : ownSlot (own cell) = ⟨cell.block, some cell⟩ := by
  rw [ownSlot, if_pos (still_own cell)]
  rfl

@[simp] theorem ownCandidate_own (cell : Cell) : ownCandidate (own cell) = ⟨cell, true⟩ := by
  rw [ownCandidate, decide_eq_true (still_own cell)]
  rfl

theorem zip_blocks (row : List Cell) : row.zip (row.map Cell.block) = row.map own := by
  induction row with
  | nil => rfl
  | cons first rest ih => exact congrArg (own first :: ·) ih

theorem map_rewritten_own (row : List Cell) : (row.map own).map rewritten = row := by
  rw [List.map_map]
  exact List.map_id row

theorem unmistaken_blocks (list : CellList) : list.Unmistaken list.blocks := by
  refine ⟨?_, ?_, ?_⟩
  · rw [blocks, List.map_map]
    rfl
  · rw [blocks, zip_blocks]
    exact List.pairwise_map.mpr (List.pairwise_of_forall fun upper _ _ => still_own upper)
  · rw [blocks, zip_blocks]
    exact List.forall_mem_map.mpr fun cell _ _ _ _ => still_own cell

section Amid

variable {above below : List Cell} {cell other : Cell}

/-- A cell stands in the place of another one, amid cells that show what is read. -/
theorem zip_amid : (above ++ other :: below).zip ((above ++ cell :: below).map Cell.block) =
    above.map own ++ (other, cell.block) :: below.map own := by
  rw [List.map_append, List.map_cons, List.zip_append (by simp), List.zip_cons_cons, zip_blocks,
    zip_blocks]

theorem pairwise_amid (before : ((above ++ cell :: below).map Cell.block).Nodup)
    (after : ((above ++ other :: below).map Cell.block).Nodup) :
    (above.map own ++ (other, cell.block) :: below.map own).Pairwise Apart := by
  rw [List.map_append, List.map_cons] at before after
  rw [List.pairwise_append, List.pairwise_cons]
  refine ⟨List.pairwise_of_forall_mem_list ?_, ⟨?_, List.pairwise_of_forall_mem_list ?_⟩, ?_⟩
  · simp [Apart, Still, own]
  · -- Below the cell nothing shows what it shows, nor what is read in its place.
    have new := (List.nodup_cons.mp (List.nodup_append.mp after).2.1).1
    have old := (List.nodup_cons.mp (List.nodup_append.mp before).2.1).1
    rintro _ member (same | same)
    · obtain ⟨lower, there, rfl⟩ := List.mem_map.mp member
      exact absurd (List.mem_map.mpr ⟨lower, there, same.symm⟩) new
    · obtain ⟨lower, there, rfl⟩ := List.mem_map.mp member
      exact absurd (List.mem_map.mpr ⟨lower, there, same⟩) old
  · simp [Apart, Still, own]
  · simp [Apart, Still, own]

theorem forgotten_amid (forgotten : ∀ gone ∈ removed, gone.block ≠ cell.block) :
    ∀ pair ∈ above.map own ++ (other, cell.block) :: below.map own,
      ∀ gone ∈ removed, gone.block = pair.2 → Still pair := by
  intro pair member gone there same
  rcases List.mem_append.mp member with inside | inside
  · obtain ⟨cell, -, rfl⟩ := List.mem_map.mp inside
    rfl
  · rcases List.mem_cons.mp inside with rfl | inside
    · exact absurd same (forgotten gone there)
    · obtain ⟨cell, -, rfl⟩ := List.mem_map.mp inside
      rfl

end Amid

/-- A list that is reconciled with what it shows stays as it is, also where cells show the same and
where remembered ones do. -/
theorem reconcile_blocks (list : CellList) : list.reconcile list.blocks = list := by
  have unmistaken := list.unmistaken_blocks
  have equal := @matchEqual_zip list list.blocks (List.length_map _) unmistaken.apart
    unmistaken.forgotten
  -- Every block finds the cell at its place, so none is left for the other passes.
  have slots : (list.cells.map own).map ownSlot =
      list.cells.map fun cell => ⟨cell.block, some cell⟩ := by
    simp
  have used : (list.cells.map own).map ownCandidate = list.cells.map fun cell => ⟨cell, true⟩ := by
    simp
  rw [show list.cells.zip list.blocks = list.cells.map own from zip_blocks list.cells, slots,
    used] at equal
  have idle : (list.cells.map fun cell => (⟨cell, true⟩ : Candidate)).filter (fun candidate =>
      !candidate.used) = [] := by
    simp
  simp only [reconcile, equal, matchPosition_filled, fill_filled, idle, List.map_nil, List.foldl_nil]

end Notebook.CellList

import Mathlib
import Notebook.CellList
/-!
# Identities are handed out once

Numbers have different hexadecimal texts, so among more candidates than there are issued identities
one was never issued. Live cells and remembered ones therefore keep identities of their own, through
every change of the list that takes no cells from elsewhere.
-/
namespace Notebook

/-! ## Hexadecimal texts -/

def hexDigitValue (c : Char) : Nat := if c.toNat < 0x3A then c.toNat - 0x30 else c.toNat - 0x57

def hexValue (text : Text) : Nat := text.foldl (fun n c => 16 * n + hexDigitValue c) 0

theorem hexDigitValue_digitChar {n : Nat} (digit : n < 16) : hexDigitValue n.digitChar = n := by
  interval_cases n <;> decide

theorem hexValue_append_singleton (text : Text) (c : Char) :
    hexValue (text ++ [c]) = 16 * hexValue text + hexDigitValue c := by
  simp [hexValue]

theorem hexValue_zeros (k : Nat) (text : Text) :
    hexValue (List.replicate k '0' ++ text) = hexValue text := by
  induction k with
  | zero => rfl
  | succ k ih =>
    rw [List.replicate_succ, List.cons_append, hexValue, List.foldl_cons]
    exact ih

theorem hexValue_toDigits (n : Nat) : hexValue (Nat.toDigits 16 n) = n := by
  induction n using Nat.strongRecOn with
  | _ n ih =>
    rcases Nat.lt_or_ge n 16 with small | large
    · rw [Nat.toDigits_of_lt_base small]
      simp [hexValue, hexDigitValue_digitChar small]
    · have less : n / 16 < n := Nat.div_lt_self (by omega) (by decide)
      rw [Nat.toDigits_of_base_le (by decide) large, hexValue_append_singleton, ih _ less,
        hexDigitValue_digitChar (Nat.mod_lt n (by decide))]
      omega

theorem hexValue_hexId (n : Nat) : hexValue (hexId n) = n := by
  rw [hexId, hexValue_zeros, hexValue_toDigits]

theorem hexId_injective : Function.Injective hexId :=
  Function.LeftInverse.injective hexValue_hexId

theorem hexId_ne_nil (n : Nat) : hexId n ≠ [] := by
  simp [hexId, Nat.toDigits_ne_nil]

namespace CellList

def ids (cells : List Cell) : List Text := cells.map (·.id)

@[simp] theorem ids_nil : ids [] = [] := rfl

@[simp] theorem ids_cons (cell : Cell) (rest : List Cell) : ids (cell :: rest) = cell.id :: ids rest :=
  rfl

@[simp] theorem ids_append (front back : List Cell) : ids (front ++ back) = ids front ++ ids back :=
  List.map_append

theorem ids_perm {front back : List Cell} (perm : front.Perm back) : (ids front).Perm (ids back) :=
  perm.map _

theorem freshId_not_issued (list : CellList) : list.freshId.1 ∉ list.issued := by
  let candidates := List.range' list.nextId (list.issued.length + 1)
  -- There are more candidates than issued identities, and their texts are different.
  have found : ∃ n ∈ candidates, hexId n ∉ list.issued := by
    by_contra none
    push Not at none
    have subset : candidates.map hexId ⊆ list.issued := by
      intro id member
      obtain ⟨n, among, rfl⟩ := List.mem_map.mp member
      exact none n among
    have distinct : (candidates.map hexId).Nodup := (List.nodup_range').map hexId_injective
    have bound := (distinct.subperm subset).length_le
    simp [candidates] at bound
  have known : (candidates.find? fun n => decide (hexId n ∉ list.issued)).isSome := by
    simpa using found
  obtain ⟨n, here⟩ := Option.isSome_iff_exists.mp known
  have fresh : hexId n ∉ list.issued := by simpa using List.find?_some here
  change hexId ((candidates.find? fun n => decide (hexId n ∉ list.issued)).getD list.nextId) ∉ _
  rw [here]
  exact fresh

theorem freshId_ne_nil (list : CellList) : list.freshId.1 ≠ [] := hexId_ne_nil _

/-- Identities of live and remembered cells are distinct and were issued, and no empty one was. -/
structure Coherent (list : CellList) : Prop where
  /-- No two cells share an identity, be they live or remembered. -/
  distinct : (ids list.cells ++ ids list.removed).Nodup
  issued : ∀ id ∈ ids list.cells ++ ids list.removed, id ∈ list.issued
  named : [] ∉ list.issued

theorem Coherent.distinct_cells {list : CellList} (coherent : list.Coherent) :
    (ids list.cells).Nodup :=
  (List.nodup_append.mp coherent.distinct).1

/-- A list stays coherent when cells are rearranged between live and remembered ones. -/
theorem Coherent.of_perm {list other : CellList} (coherent : list.Coherent)
    (perm : (ids other.cells ++ ids other.removed).Perm (ids list.cells ++ ids list.removed))
    (issued : other.issued = list.issued) : other.Coherent where
  distinct := perm.nodup_iff.mpr coherent.distinct
  issued id member := issued ▸ coherent.issued id (perm.mem_iff.mp member)
  named := issued ▸ coherent.named

/-- Forgetting remembered cells keeps a list coherent. -/
theorem Coherent.of_sublist {list other : CellList} (coherent : list.Coherent)
    (cells : other.cells = list.cells) (removed : other.removed.Sublist list.removed)
    (issued : other.issued = list.issued) : other.Coherent := by
  have fewer : (ids other.cells ++ ids other.removed).Sublist
      (ids list.cells ++ ids list.removed) := by
    rw [cells]
    exact (List.Sublist.refl _).append (removed.map _)
  exact ⟨coherent.distinct.sublist fewer,
    fun id member => issued ▸ coherent.issued id (fewer.subset member), issued ▸ coherent.named⟩

/-- A cell with a fresh identity may join the list. -/
theorem Coherent.fresh {list : CellList} (coherent : list.Coherent) {cells : List Cell}
    (perm : (ids cells).Perm (list.freshId.1 :: ids list.cells)) :
    Coherent { list.freshId.2 with cells } := by
  have joined : (ids cells ++ ids list.removed).Perm
      (list.freshId.1 :: (ids list.cells ++ ids list.removed)) :=
    perm.append_right _
  -- What was never issued is not in use.
  have unseen : list.freshId.1 ∉ ids list.cells ++ ids list.removed := fun member =>
    list.freshId_not_issued (coherent.issued _ member)
  refine ⟨joined.nodup_iff.mpr (List.nodup_cons.mpr ⟨unseen, coherent.distinct⟩), ?_, ?_⟩
  · intro id member
    rcases List.mem_cons.mp (joined.mem_iff.mp member) with rfl | old
    · exact List.mem_cons_self
    · exact List.mem_cons_of_mem _ (coherent.issued id old)
  · exact fun member => (List.mem_cons.mp member).elim
      (fun empty => list.freshId_ne_nil empty.symm) coherent.named

/-! ## Single changes -/

theorem coherent_empty : Coherent {} := ⟨by simp, by simp, by simp⟩

theorem Coherent.load {list : CellList} (coherent : list.Coherent) (cell : Cell) :
    (list.load cell).Coherent := by
  unfold CellList.load
  split
  · refine coherent.fresh ?_
    rw [ids_append]
    exact List.perm_append_singleton _ _
  next fine =>
    obtain ⟨nonempty, unseen⟩ := not_or.mp fine
    have perm : (ids (list.cells ++ [cell]) ++ ids list.removed).Perm
        (cell.id :: (ids list.cells ++ ids list.removed)) := by
      rw [ids_append]
      exact (List.perm_append_singleton _ _).append_right _
    have apart : cell.id ∉ ids list.cells ++ ids list.removed := fun member =>
      unseen (coherent.issued _ member)
    refine ⟨perm.nodup_iff.mpr (List.nodup_cons.mpr ⟨apart, coherent.distinct⟩), ?_, ?_⟩
    · intro id member
      rcases List.mem_cons.mp (perm.mem_iff.mp member) with rfl | old
      · exact List.mem_cons_self
      · exact List.mem_cons_of_mem _ (coherent.issued id old)
    · exact fun member => (List.mem_cons.mp member).elim (fun empty => nonempty empty.symm)
        coherent.named

theorem coherent_ofCells (cells : List Cell) : (ofCells cells).Coherent := by
  have loaded (list : CellList) (coherent : list.Coherent) :
      (cells.foldl CellList.load list).Coherent := by
    induction cells generalizing list with
    | nil => exact coherent
    | cons cell rest ih => exact ih (list.load cell) (coherent.load cell)
  exact loaded {} coherent_empty

theorem Coherent.insert {list after : CellList} (coherent : list.Coherent) {index : Nat}
    {kind : Kind} {source id : Text} (inserted : list.insert index kind source = .ok (id, after)) :
    after.Coherent := by
  unfold CellList.insert at inserted
  split at inserted
  · cases inserted
  next within =>
    cases inserted
    refine coherent.fresh ?_
    exact ids_perm (List.perm_insertIdx { id := list.freshId.1, kind, source } list.cells
      (Nat.le_of_not_lt within))

theorem Coherent.bury {list : CellList} {cell : Cell}
    (coherent : Coherent { list with removed := cell :: list.removed }) :
    (list.bury cell).Coherent :=
  coherent.of_sublist rfl (List.take_sublist _ _) rfl

theorem Coherent.remove {list after : CellList} (coherent : list.Coherent) {index : Nat}
    {cell : Cell} (taken : list.remove index = .ok (cell, after)) : after.Coherent := by
  unfold CellList.remove at taken
  split at taken
  · cases taken
  next found here =>
    cases taken
    refine Coherent.bury (coherent.of_perm ?_ rfl)
    have perm : (cell :: list.cells.eraseIdx index).Perm list.cells := by
      obtain ⟨bound, rfl⟩ := List.getElem?_eq_some_iff.mp here
      exact List.getElem_cons_eraseIdx_perm bound
    have joined := (ids_perm perm).append_right (ids list.removed)
    exact List.perm_middle.trans joined

/-- Inserting adds a cell with a fresh identity. -/
theorem perm_insert {list after : CellList} {index : Nat} {kind : Kind} {source id : Text}
    (inserted : list.insert index kind source = .ok (id, after)) :
    after.cells.Perm ({ id, kind, source } :: list.cells) ∧ after.removed = list.removed ∧
      id = list.freshId.1 ∧ after.issued = id :: list.issued := by
  unfold CellList.insert at inserted
  split at inserted
  · cases inserted
  next within =>
    cases inserted
    exact ⟨List.perm_insertIdx _ list.cells (Nat.le_of_not_lt within), rfl, rfl, rfl⟩

/-- Removing takes a cell away, and remembers it. -/
theorem perm_remove {list after : CellList} {index : Nat} {cell : Cell}
    (taken : list.remove index = .ok (cell, after)) :
    list.cells.Perm (cell :: after.cells) ∧
      after.removed = (cell :: list.removed).take removedLimit ∧ after.issued = list.issued := by
  unfold CellList.remove at taken
  split at taken
  · cases taken
  next found here =>
    cases taken
    obtain ⟨bound, rfl⟩ := List.getElem?_eq_some_iff.mp here
    exact ⟨(List.getElem_cons_eraseIdx_perm bound).symm, rfl, rfl⟩

theorem checkIndex_ok {list : CellList} {index : Nat} :
    list.checkIndex index = .ok () ↔ index < list.length := by
  unfold checkIndex
  split <;> simp_all

/-- Moving a cell rearranges the cells. -/
theorem perm_move {list after : CellList} {source target : Nat}
    (moved : list.move source target = .ok after) :
    after.cells.Perm list.cells ∧ after.removed = list.removed ∧ after.issued = list.issued := by
  simp only [CellList.move, bind, Except.bind] at moved
  split at moved
  · cases moved
  split at moved
  · cases moved
  next _ targetOk =>
    split at moved
    · cases moved
    next cell here =>
      cases moved
      refine ⟨?_, rfl, rfl⟩
      obtain ⟨bound, rfl⟩ := List.getElem?_eq_some_iff.mp here
      have within : target ≤ (list.cells.eraseIdx source).length := by
        have := checkIndex_ok.mp targetOk
        rw [List.length_eraseIdx_of_lt bound]
        exact Nat.le_sub_one_of_lt this
      exact (List.perm_insertIdx _ _ within).trans (List.getElem_cons_eraseIdx_perm bound)

theorem Coherent.move {list after : CellList} (coherent : list.Coherent) {source target : Nat}
    (moved : list.move source target = .ok after) : after.Coherent := by
  obtain ⟨perm, removed, issued⟩ := perm_move moved
  exact coherent.of_perm (removed ▸ (ids_perm perm).append_right _) issued

/-- What a change of one element keeps of every element, it keeps of the list. -/
theorem map_modify {α β : Type} (view : α → β) {change : α → α}
    (keeps : ∀ a, view (change a) = view a) (row : List α) (index : Nat) :
    (row.modify index change).map view = row.map view := by
  apply List.ext_getElem?
  intro k
  rw [List.getElem?_map, List.getElem?_map, List.getElem?_modify]
  split
  · cases row[k]? with
    | none => rfl
    | some a => exact congrArg some (keeps a)
  · cases row[k]? <;> rfl

/-- Changing a cell keeps the list coherent as long as the identity stays. -/
theorem Coherent.modifyAt {list : CellList} (coherent : list.Coherent) (index : Nat)
    {change : Cell → Cell} (keeps : ∀ cell, (change cell).id = cell.id) :
    (list.modifyAt index change).Coherent := by
  have same : ids (list.cells.modify index change) = ids list.cells :=
    map_modify Cell.id keeps list.cells index
  exact coherent.of_perm (by rw [CellList.modifyAt, same]) rfl

theorem setKind_ok {list after : CellList} {index : Nat} {kind : Kind}
    (changed : list.setKind index kind = .ok after) : after = list.modifyAt index (retyped kind) := by
  simp only [CellList.setKind, bind, Except.bind] at changed
  split at changed
  · cases changed
  · cases changed
    rfl

@[simp] theorem id_retyped (kind : Kind) (cell : Cell) : (retyped kind cell).id = cell.id := by
  unfold retyped
  split <;> rfl

@[simp] theorem source_retyped (kind : Kind) (cell : Cell) :
    (retyped kind cell).source = cell.source := by
  unfold retyped
  split <;> rfl

theorem Coherent.setKind {list after : CellList} (coherent : list.Coherent) {index : Nat}
    {kind : Kind} (changed : list.setKind index kind = .ok after) : after.Coherent := by
  rw [setKind_ok changed]
  exact coherent.modifyAt index (id_retyped kind)

/-! ## Looking up cells -/

theorem indexOf?_eq {list : CellList} {above below : List Cell} {cell : Cell}
    (distinct : (ids list.cells).Nodup) (cells : list.cells = above ++ cell :: below) :
    list.indexOf? cell.id = some above.length := by
  rw [cells, ids, List.map_append, List.map_cons, List.nodup_append] at distinct
  obtain ⟨-, -, apart⟩ := distinct
  rw [indexOf?, cells, List.findIdx?_eq_some_iff_getElem]
  refine ⟨by simp, by simp, fun k earlier => ?_⟩
  rw [List.getElem_append_left earlier]
  -- A cell further up has another identity.
  have other := apart _ (List.mem_map_of_mem (List.getElem_mem earlier)) cell.id List.mem_cons_self
  simpa using other

theorem get?_eq {list : CellList} {above below : List Cell} {cell : Cell}
    (cells : list.cells = above ++ cell :: below) : list.get? above.length = some cell := by
  rw [get?, cells, List.getElem?_append_right (Nat.le_refl _), Nat.sub_self,
    List.getElem?_cons_zero]

theorem find?_eq {list : CellList} {above below : List Cell} {cell : Cell}
    (distinct : (ids list.cells).Nodup) (cells : list.cells = above ++ cell :: below) :
    list.find? cell.id = some cell := by
  have index := indexOf?_eq distinct cells
  obtain ⟨_, _, earlier⟩ := List.findIdx?_eq_some_iff_getElem.mp index
  rw [find?, cells, List.find?_append, List.find?_eq_none.mpr, Option.none_or]
  · simp
  · intro other member
    obtain ⟨k, bound, rfl⟩ := List.getElem_of_mem member
    have before := earlier k bound
    simp only [cells, List.getElem_append_left bound] at before
    exact before

/-- Changing the cell of an identity is changing every cell that has it. -/
theorem modifyCell_eq {list : CellList} (distinct : (ids list.cells).Nodup) (id : Text)
    (change : Cell → Cell) : list.modifyCell id change = { list with
      cells := list.cells.map fun cell => if cell.id = id then change cell else cell } := by
  suffices cells : (list.modifyCell id change).cells =
      list.cells.map fun cell => if cell.id = id then change cell else cell by
    rw [← cells]
    unfold modifyCell
    split <;> rfl
  unfold modifyCell
  cases found : list.indexOf? id with
  | none =>
    have none : ∀ cell ∈ list.cells, ¬cell.id = id := by
      simpa [indexOf?, List.findIdx?_eq_none_iff] using found
    symm
    rw [List.map_congr_left fun cell member => if_neg (none cell member), List.map_id']
  | some index =>
    obtain ⟨bound, here, -⟩ := List.findIdx?_eq_some_iff_getElem.mp found
    have here : list.cells[index].id = id := by simpa using here
    refine List.ext_getElem? fun k => ?_
    simp only [modifyAt, List.getElem?_modify, List.getElem?_map]
    cases known : list.cells[k]? with
    | none => rfl
    | some cell =>
      obtain ⟨within, rfl⟩ := List.getElem?_eq_some_iff.mp known
      -- No two places hold the identity.
      have place : index = k ↔ list.cells[k].id = id := by
        refine ⟨fun same => by simpa only [same] using here, fun same => ?_⟩
        have first : index < (ids list.cells).length := by simpa [ids] using bound
        have second : k < (ids list.cells).length := by simpa [ids] using within
        have equal : (ids list.cells)[index] = (ids list.cells)[k] := by simp [ids, here, same]
        exact (List.Nodup.getElem_inj_iff distinct).mp equal
      simp only [place, Option.map_some]
      split <;> rfl

end CellList

end Notebook

import Notebook.Proofs.CellList.Identity
/-!
# What loading keeps of the cells

Cells are loaded one after another. A cell keeps its identity unless that is empty or some cell above
it got the same one: because it was loaded with it, or as a fresh one. Fresh identities are chosen
without looking at the cells further down, so they can take away that of a later cell.
-/
namespace Notebook.CellList

variable {list : CellList} {cell : Cell}

/-! ## One cell -/

/-- The identity that a cell gets when it is loaded, which is issued by that. -/
def loadedId (list : CellList) (cell : Cell) : Text := (list.load cell).issued.headD []

theorem loadedId_cases (list : CellList) (cell : Cell) :
    (cell.id = [] ∨ cell.id ∈ list.issued) ∧ list.loadedId cell = list.freshId.1 ∨
      (cell.id ≠ [] ∧ cell.id ∉ list.issued) ∧ list.loadedId cell = cell.id := by
  unfold loadedId load
  split
  next used => exact .inl ⟨used, rfl⟩
  next unused => exact .inr ⟨not_or.mp unused, rfl⟩

theorem cells_load (list : CellList) (cell : Cell) :
    (list.load cell).cells = list.cells ++ [{ cell with id := list.loadedId cell }] := by
  unfold loadedId load
  split <;> rfl

theorem issued_load (list : CellList) (cell : Cell) :
    (list.load cell).issued = list.loadedId cell :: list.issued := by
  unfold loadedId load
  split <;> rfl

theorem loadedId_eq_iff (list : CellList) (cell : Cell) :
    list.loadedId cell = cell.id ↔ cell.id ≠ [] ∧ cell.id ∉ list.issued := by
  rcases list.loadedId_cases cell with ⟨used, got⟩ | ⟨unused, got⟩
  · -- A fresh identity is not empty and was not issued, so it is not the one that was loaded.
    refine iff_of_false (fun same => ?_) fun kept => used.elim kept.1 kept.2
    rw [got] at same
    rcases used with empty | issued
    · exact list.freshId_ne_nil (same.trans empty)
    · exact list.freshId_not_issued (same ▸ issued)
  · exact iff_of_true got unused

theorem loadedId_of_ne (replaced : list.loadedId cell ≠ cell.id) :
    list.loadedId cell = hexId list.freshNumber := by
  rcases list.loadedId_cases cell with ⟨-, got⟩ | ⟨-, got⟩
  · exact got
  · exact absurd got replaced

/-! ## All cells -/

theorem ofCells_concat (front : List Cell) (cell : Cell) :
    ofCells (front ++ [cell]) = (ofCells front).load cell := by
  rw [ofCells, List.foldl_append]
  rfl

/-- The identities that were issued are those of the cells that were loaded. -/
theorem issued_ofCells (cells : List Cell) :
    (ofCells cells).issued = (ids (ofCells cells).cells).reverse := by
  -- By induction from the end, because the last cell is loaded on top of the others.
  induction cells using List.reverseRecOn with
  | nil => rfl
  | append_singleton front cell ih =>
    rw [ofCells_concat, issued_load, cells_load, ids_append, List.reverse_append, ih]
    rfl

/-- A list that was just loaded remembers nothing. -/
theorem removed_ofCells (cells : List Cell) : (ofCells cells).removed = [] := by
  induction cells using List.reverseRecOn with
  | nil => rfl
  | append_singleton front cell ih =>
    rw [ofCells_concat, load]
    split <;> exact ih

/-- What is loaded later leaves the cells above as they are. -/
theorem cells_ofCells_append (front back : List Cell) :
    ∃ later, (ofCells (front ++ back)).cells = (ofCells front).cells ++ later := by
  induction back using List.reverseRecOn with
  | nil => exact ⟨[], by rw [List.append_nil, List.append_nil]⟩
  | append_singleton back cell ih =>
    obtain ⟨later, grown⟩ := ih
    rw [← List.append_assoc, ofCells_concat, cells_load, grown, List.append_assoc]
    exact ⟨_, rfl⟩

theorem length_ofCells (cells : List Cell) : (ofCells cells).cells.length = cells.length := by
  induction cells using List.reverseRecOn with
  | nil => rfl
  | append_singleton front cell ih =>
    rw [ofCells_concat, cells_load, List.length_append, List.length_append, ih]
    rfl

/-- Every place holds the cell that was loaded there, with the identity that it got. -/
theorem getElem?_ofCells {cells : List Cell} {index : Nat} (here : cells[index]? = some cell) :
    (ofCells cells).cells[index]? =
        some { cell with id := (ofCells (cells.take index)).loadedId cell } ∧
      (ofCells cells).cells.take index = (ofCells (cells.take index)).cells := by
  obtain ⟨bound, rfl⟩ := List.getElem?_eq_some_iff.mp here
  have within : (ofCells (cells.take index)).cells.length = index := by
    rw [length_ofCells, List.length_take, Nat.min_eq_left (Nat.le_of_lt bound)]
  -- Up to its place the cell is the last one to be loaded, and what is below is only added.
  obtain ⟨later, grown⟩ := cells_ofCells_append (cells.take (index + 1)) (cells.drop (index + 1))
  rw [List.take_append_drop, ← List.take_append_getElem bound, ofCells_concat, cells_load,
    List.append_assoc] at grown
  rw [grown]
  constructor
  · rw [List.getElem?_append_right (Nat.le_of_eq within), within, Nat.sub_self]
    rfl
  · rw [List.take_append_of_le_length (Nat.le_of_eq within.symm), List.take_of_length_le]
    exact Nat.le_of_eq within

/-- A cell keeps an identity that is not empty, or some cell above it has that. -/
theorem mem_issued_ofCells {cells : List Cell} {id : Text} (proper : id ≠ [])
    (loaded : id ∈ ids cells) : id ∈ (ofCells cells).issued := by
  induction cells using List.reverseRecOn with
  | nil => cases loaded
  | append_singleton front cell ih =>
    rw [ofCells_concat, issued_load]
    rw [ids_append, List.mem_append] at loaded
    rcases loaded with above | here
    · exact List.mem_cons_of_mem _ (ih above)
    · obtain rfl := List.mem_singleton.mp here
      by_cases used : cell.id ∈ (ofCells front).issued
      · exact List.mem_cons_of_mem _ used
      · rw [(loadedId_eq_iff _ _).mpr ⟨proper, used⟩]
        exact List.mem_cons_self

/-- A cell got an identity that was loaded, or the text of a number. -/
theorem mem_ids_ofCells {cells : List Cell} {id : Text} (member : id ∈ ids (ofCells cells).cells) :
    id ∈ ids cells ∨ ∃ n, id = hexId n := by
  induction cells using List.reverseRecOn with
  | nil => cases member
  | append_singleton front cell ih =>
    rw [ofCells_concat, cells_load, ids_append, List.mem_append] at member
    rw [ids_append, List.mem_append]
    rcases member with above | here
    · exact (ih above).imp_left .inl
    · obtain rfl := List.mem_singleton.mp here
      by_cases kept : (ofCells front).loadedId cell = cell.id
      · rw [kept]
        exact .inl (.inr List.mem_cons_self)
      · exact .inr ⟨_, loadedId_of_ne kept⟩

theorem forall₂_ofCells (cells : List Cell) :
    List.Forall₂ (fun cell loaded => loaded = { cell with id := loaded.id }) cells
      (ofCells cells).cells := by
  induction cells using List.reverseRecOn with
  | nil => exact .nil
  | append_singleton front cell ih =>
    rw [ofCells_concat, cells_load]
    exact List.rel_append ih (.cons rfl .nil)

/-- Cells that have distinct identities are loaded as they are. -/
theorem cells_ofCells {cells : List Cell} (distinct : (ids cells).Nodup) (named : [] ∉ ids cells) :
    (ofCells cells).cells = cells := by
  induction cells using List.reverseRecOn with
  | nil => rfl
  | append_singleton front cell ih =>
    rw [ids_append] at distinct named
    obtain ⟨distinct, -, apart⟩ := List.nodup_append.mp distinct
    obtain ⟨named, proper⟩ := not_or.mp (mt List.mem_append.mpr named)
    have above := ih distinct named
    have kept : (ofCells front).loadedId cell = cell.id := by
      refine (loadedId_eq_iff _ _).mpr ⟨fun empty => proper (by simp [empty]), fun used => ?_⟩
      rw [issued_ofCells, above, List.mem_reverse] at used
      exact apart _ used _ List.mem_cons_self rfl
    rw [ofCells_concat, cells_load, above, kept]

/-- Loaded cells keep their order and everything but their identities. Those are distinct and not empty
afterwards. A cell keeps the one that it was loaded with exactly if that is not empty, no cell above was
loaded with it, and no cell above got it as a fresh one; otherwise it gets the text of a number. So a
cell whose identity is not such a text keeps it, unless a cell above was loaded with it. -/
theorem keeps_loaded (cells : List Cell) :
    List.Forall₂ (fun cell loaded => loaded = { cell with id := loaded.id }) cells
      (ofCells cells).cells ∧
    (ids (ofCells cells).cells).Nodup ∧ [] ∉ ids (ofCells cells).cells ∧
    ∀ index cell loaded, cells[index]? = some cell → (ofCells cells).cells[index]? = some loaded →
      (loaded.id = cell.id ↔ cell.id ≠ [] ∧ cell.id ∉ ids (cells.take index) ∧
        cell.id ∉ ids ((ofCells cells).cells.take index)) ∧
      (loaded.id ≠ cell.id → ∃ n, loaded.id = hexId n) ∧
      (cell.id ≠ [] → cell.id ∉ ids (cells.take index) → (∀ n, cell.id ≠ hexId n) →
        loaded.id = cell.id) := by
  have coherent := coherent_ofCells cells
  refine ⟨forall₂_ofCells cells, coherent.distinct_cells, fun empty => ?_, ?_⟩
  · exact coherent.named (coherent.issued _ (List.mem_append_left _ empty))
  intro index cell loaded here there
  obtain ⟨place, above⟩ := getElem?_ofCells here
  obtain rfl := Option.some.inj (there.symm.trans place)
  have issued : cell.id ∈ (ofCells (cells.take index)).issued ↔
      cell.id ∈ ids ((ofCells cells).cells.take index) := by
    rw [issued_ofCells, List.mem_reverse, above]
  have kept := loadedId_eq_iff (ofCells (cells.take index)) cell
  refine ⟨?_, fun replaced => ⟨_, loadedId_of_ne replaced⟩, fun proper apart other => ?_⟩
  · rw [← issued]
    refine kept.trans (and_congr_right fun proper => ?_)
    exact ⟨fun unused => ⟨fun loaded => unused (mem_issued_ofCells proper loaded), unused⟩, And.right⟩
  · refine kept.mpr ⟨proper, fun used => ?_⟩
    rw [issued, above] at used
    -- Above, the identity was loaded or handed out, and it is neither loaded there nor such a text.
    rcases mem_ids_ofCells used with loaded | ⟨n, same⟩
    · exact apart loaded
    · exact other n same

/-- The fresh identity of the first cell is the one that the second cell was loaded with. -/
example : ids (ofCells [{ id := "", kind := .code, source := "a" },
    { id := "00000000", kind := .code, source := "b" }]).cells = ["00000000", "00000001"] := by
  decide +kernel

end Notebook.CellList

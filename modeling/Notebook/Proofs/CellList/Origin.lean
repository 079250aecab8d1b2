import Notebook.Proofs.CellList.Chronicle
/-!
# Where cells come from

Whatever is done to a list of cells, a cell that it holds or remembers afterwards was held or remembered
before, up to its source and its kind, or it is fresh. So a cell that comes back after its removal goes
on where it was, and what it carries along was carried along before.
-/
namespace Notebook.CellList

/-- Actions lead from one list of cells to another. -/
inductive Leads (before : CellList) : CellList → Prop
  | still : Leads before before
  | step {after : CellList} : Leads before after → (action : Action) →
      Leads before (action.perform after).2

variable {before middle after list : CellList}

theorem Leads.trans (there : before.Leads middle) (onward : middle.Leads after) :
    before.Leads after := by
  induction onward with
  | still => exact there
  | step _ action ih => exact ih.step action

theorem Leads.one (list : CellList) (action : Action) : list.Leads (action.perform list).2 :=
  Leads.still.step action

theorem Leads.coherent (leads : before.Leads after) (coherent : before.Coherent) : after.Coherent := by
  induction leads with
  | still => exact coherent
  | step _ action ih => exact (ih.succeeds action).coherent

/-- Giving a cell another source is an action, or there is no such cell. -/
theorem leads_modifyAt (list : CellList) (index : Nat) (source : Text) :
    list.Leads (list.modifyAt index fun cell => { cell with source }) := by
  cases here : list.get? index with
  | none =>
    have outside : list.cells.length ≤ index := List.getElem?_eq_none_iff.mp here
    have same : list.modifyAt index (fun cell => { cell with source }) = list := by
      rw [modifyAt, List.modify_eq_self outside]
    rw [same]
    exact .still
  | some cell =>
    have step := Leads.one list (.setSource index source)
    simpa only [Action.perform, CellList.setSource, here] using step

/-! ## One action -/

/-- Cells that are live or remembered. -/
def held (list : CellList) : List Cell := list.cells ++ list.removed

theorem mem_held {cell : Cell} : cell ∈ list.held ↔ cell ∈ list.cells ∨ cell ∈ list.removed :=
  List.mem_append

/-- How a cell came about that was not in a list, or not like that. -/
inductive Descends (list : CellList) (cell : Cell) : Prop
  | blank : Blank cell → Descends list cell
  | rewritten {old : Cell} (source : Text) : old ∈ list.held → cell = { old with source } →
      Descends list cell
  | retyped {old : Cell} (kind : Kind) : old ∈ list.held → cell = retyped kind old →
      Descends list cell

theorem descends_of_mem {cell : Cell} (member : cell ∈ list.held) : list.Descends cell :=
  .rewritten cell.source member rfl

/-- Changing a cell in its place leaves the others, and changes one that was there. -/
theorem mem_held_modifyAt {index : Nat} {change : Cell → Cell} {cell : Cell}
    (member : cell ∈ (list.modifyAt index change).held) :
    cell ∈ list.held ∨ ∃ old ∈ list.held, cell = change old := by
  rcases mem_held.mp member with live | remembered
  · obtain ⟨k, bound, rfl⟩ := List.mem_iff_getElem.mp live
    simp only [modifyAt, List.length_modify] at bound
    have there : list.cells[k] ∈ list.held := List.mem_append_left _ (List.getElem_mem bound)
    simp only [modifyAt, List.getElem_modify]
    split
    · exact .inr ⟨_, there, rfl⟩
    · exact .inl there
  · exact .inl (List.mem_append_right _ remembered)

/-- Every cell after an action was there before, up to its source and its kind, or it is fresh. -/
theorem descends_perform (list : CellList) (action : Action) :
    ∀ cell ∈ (action.perform list).2.held, list.Descends cell := by
  have still : ∀ cell ∈ list.held, list.Descends cell := fun _ => descends_of_mem
  cases action with
  | insert index kind source =>
    simp only [Action.perform]
    split
    next id after inserted =>
      obtain ⟨perm, removed, -⟩ := perm_insert inserted
      intro cell member
      rw [mem_held, perm.mem_iff, List.mem_cons, removed, or_assoc] at member
      rcases member with rfl | old
      · exact .blank rfl
      · exact descends_of_mem (mem_held.mpr old)
    next => exact still
  | remove index =>
    simp only [Action.perform]
    split
    next gone after taken =>
      obtain ⟨perm, removed, -⟩ := perm_remove taken
      intro cell member
      apply descends_of_mem
      rw [mem_held, perm.mem_iff, List.mem_cons]
      rcases mem_held.mp member with live | remembered
      · exact .inl (.inr live)
      · rw [removed] at remembered
        exact (List.mem_cons.mp (List.mem_of_mem_take remembered)).imp_left .inl
    next => exact still
  | move source target =>
    simp only [Action.perform]
    split
    next after moved =>
      obtain ⟨perm, removed, -⟩ := perm_move moved
      intro cell member
      rw [mem_held, perm.mem_iff, removed] at member
      exact descends_of_mem (mem_held.mpr member)
    next => exact still
  | setKind index kind =>
    simp only [Action.perform]
    split
    next after changed =>
      rw [setKind_ok changed]
      intro cell member
      rcases mem_held_modifyAt member with same | ⟨old, there, rfl⟩
      · exact descends_of_mem same
      · exact .retyped kind there rfl
    next => exact still
  | setSource index source =>
    simp only [Action.perform]
    split
    next former after changed =>
      unfold CellList.setSource at changed
      split at changed
      · cases changed
      · cases changed
        intro cell member
        rcases mem_held_modifyAt member with same | ⟨old, there, rfl⟩
        · exact descends_of_mem same
        · exact .rewritten source there rfl
    next => exact still
  | reconcile blocks =>
    intro cell member
    rcases mem_held.mp member with live | remembered
    · rcases mem_reconcile live with ⟨old, here, source, rfl⟩ | remembered | ⟨-, fresh⟩
      · exact .rewritten source (mem_held.mpr (.inl here)) rfl
      · exact descends_of_mem (mem_held.mpr (.inr remembered))
      · exact .blank fresh
    · exact descends_of_mem (mem_held.mpr (mem_removed_reconcile remembered))
  | freshId => exact still

/-! ## Progress is carried over -/

/-- The cell was live or remembered in a list, with the same progress, or it is idle. -/
def Carried (list : CellList) (cell : Cell) : Prop :=
  cell.progress = .idle ∨ ∃ old ∈ list.held, old.id = cell.id ∧ old.progress = cell.progress

theorem carried_of_mem {cell : Cell} (member : cell ∈ list.held) : list.Carried cell :=
  .inr ⟨cell, member, rfl, rfl⟩

theorem Carried.trans {cell : Cell} (carried : middle.Carried cell)
    (before : ∀ cell ∈ middle.held, list.Carried cell) : list.Carried cell := by
  rcases carried with idle | ⟨old, member, id, progress⟩
  · exact .inl idle
  · rcases before old member with idle | ⟨first, known, same, still⟩
    · exact .inl (progress ▸ idle)
    · exact .inr ⟨first, known, same.trans id, still.trans progress⟩

theorem progress_retyped (kind : Kind) (cell : Cell) : (retyped kind cell).progress = cell.progress := by
  unfold retyped
  split <;> rfl

/-- Each action carries over what it does not make afresh. -/
theorem carried_perform (list : CellList) (action : Action) :
    ∀ cell ∈ (action.perform list).2.held, list.Carried cell := by
  intro cell member
  cases list.descends_perform action cell member with
  | blank fresh => exact .inl (congrArg Cell.progress fresh)
  | rewritten source there same => exact .inr ⟨_, there, same ▸ rfl, same ▸ rfl⟩
  | retyped kind there same =>
    exact .inr ⟨_, there, same ▸ (id_retyped kind _).symm, same ▸ (progress_retyped kind _).symm⟩

theorem Leads.carried (leads : before.Leads after) : ∀ cell ∈ after.held, before.Carried cell := by
  induction leads with
  | still => exact fun _ => carried_of_mem
  | step _ action ih => exact fun cell member => (carried_perform _ action cell member).trans ih

end Notebook.CellList

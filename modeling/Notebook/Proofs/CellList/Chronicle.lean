import Notebook.Proofs.CellList.Loading
import Notebook.Proofs.CellList.Recovery
/-!
# No identity is used twice

A chronicle follows a list of cells from loading on and keeps every identity that was loaded, live,
remembered or handed out so far. All of these were issued, and an identity that is handed out never
was. So a cell that was not live before an action either has an identity that nobody has seen, or it
is the remembered cell of that identity.
-/
namespace Notebook.CellList

/-- What a caller can do to a list of cells, named like the functions that do it. -/
inductive Action where
  | insert (index : Nat) (kind : Kind) (source : Text)
  | remove (index : Nat)
  | move (source target : Nat)
  | setKind (index : Nat) (kind : Kind)
  | setSource (index : Nat) (source : Text)
  | reconcile (blocks : List Block)
  | freshId

/-- The identities that an action hands out, and the list after it. A refused action leaves the list
as it is. -/
def Action.perform (list : CellList) : Action → List Text × CellList
  | insert index kind source => match list.insert index kind source with
    | .ok (id, after) => ([id], after)
    | .error _ => ([], list)
  | remove index => match list.remove index with
    | .ok (_, after) => ([], after)
    | .error _ => ([], list)
  | move source target => match list.move source target with
    | .ok after => ([], after)
    | .error _ => ([], list)
  | setKind index kind => match list.setKind index kind with
    | .ok after => ([], after)
    | .error _ => ([], list)
  | setSource index source => match list.setSource index source with
    | .ok (_, after) => ([], after)
    | .error _ => ([], list)
  | reconcile blocks => (list.freshIds blocks, list.reconcile blocks)
  | freshId => ([list.freshId.1], list.freshId.2)

/-! ## One action -/

/-- A list of cells became another, and identities were handed out on the way. -/
structure Succeeds (before after : CellList) (handed : List Text) : Prop where
  coherent : after.Coherent
  distinct : handed.Nodup
  unseen : ∀ id ∈ handed, id ≠ [] ∧ id ∉ before.issued
  issued : ∀ id, id ∈ after.issued ↔ id ∈ handed ∨ id ∈ before.issued
  origin : ∀ cell ∈ after.cells,
    cell.id ∈ ids before.cells ∨ cell ∈ before.removed ∨ cell.id ∈ handed

section Actions

variable {list after : CellList}

/-- An action that hands out nothing and keeps the identities of the live cells. -/
theorem Succeeds.of_ids (coherent : after.Coherent) (issued : after.issued = list.issued)
    (fewer : ∀ id ∈ ids after.cells, id ∈ ids list.cells) : Succeeds list after [] where
  coherent := coherent
  distinct := List.nodup_nil
  unseen := by simp
  issued := by simp [issued]
  origin cell member := .inl (fewer cell.id (List.mem_map_of_mem member))

/-- An action that hands out the next fresh identity. -/
theorem Succeeds.of_fresh (coherent : after.Coherent)
    (issued : after.issued = list.freshId.1 :: list.issued)
    (more : ∀ id ∈ ids after.cells, id = list.freshId.1 ∨ id ∈ ids list.cells) :
    Succeeds list after [list.freshId.1] where
  coherent := coherent
  distinct := List.nodup_singleton _
  unseen := by simpa using ⟨list.freshId_ne_nil, list.freshId_not_issued⟩
  issued := by simp [issued]
  origin cell member := by
    rcases more cell.id (List.mem_map_of_mem member) with new | old
    · exact .inr (.inr (by simp [new]))
    · exact .inl old

theorem Coherent.succeeds_modifyAt (coherent : list.Coherent) (index : Nat) {change : Cell → Cell}
    (keeps : ∀ cell, (change cell).id = cell.id) :
    Succeeds list (list.modifyAt index change) [] := by
  have same : ids (list.modifyAt index change).cells = ids list.cells :=
    map_modify Cell.id keeps list.cells index
  exact .of_ids (coherent.modifyAt index keeps) rfl fun id member => same ▸ member

theorem Coherent.freshId (coherent : list.Coherent) : list.freshId.2.Coherent where
  distinct := coherent.distinct
  issued id member := List.mem_cons_of_mem _ (coherent.issued id member)
  named member := (List.mem_cons.mp member).elim
    (fun empty => list.freshId_ne_nil empty.symm) coherent.named

theorem Coherent.succeeds (coherent : list.Coherent) (action : Action) :
    Succeeds list (action.perform list).2 (action.perform list).1 := by
  have idle : Succeeds list list [] := .of_ids coherent rfl fun _ member => member
  cases action with
  | insert index kind source =>
    simp only [Action.perform]
    split
    next id after inserted =>
      obtain ⟨perm, -, rfl, issued⟩ := perm_insert inserted
      apply Succeeds.of_fresh (coherent.insert inserted) issued
      intro id member
      simpa using (ids_perm perm).mem_iff.mp member
    next => exact idle
  | remove index =>
    simp only [Action.perform]
    split
    next cell after taken =>
      obtain ⟨perm, -, issued⟩ := perm_remove taken
      apply Succeeds.of_ids (coherent.remove taken) issued
      intro id member
      exact (ids_perm perm).mem_iff.mpr (List.mem_cons_of_mem _ member)
    next => exact idle
  | move source target =>
    simp only [Action.perform]
    split
    next after moved =>
      obtain ⟨perm, -, issued⟩ := perm_move moved
      exact .of_ids (coherent.move moved) issued fun id => (ids_perm perm).mem_iff.mp
    next => exact idle
  | setKind index kind =>
    simp only [Action.perform]
    split
    next after changed =>
      rw [setKind_ok changed]
      exact coherent.succeeds_modifyAt index (id_retyped kind)
    next => exact idle
  | setSource index source =>
    simp only [Action.perform]
    split
    next former after changed =>
      unfold CellList.setSource at changed
      split at changed
      · cases changed
      · cases changed
        apply coherent.succeeds_modifyAt index
        intro cell
        rfl
    next => exact idle
  | reconcile blocks =>
    obtain ⟨-, distinct, named, unseen, issued, -⟩ := list.reconcile_spec blocks
    refine ⟨coherent.reconcile blocks, distinct, fun id member => ⟨?_, unseen id member⟩, issued,
      fun cell member => ?_⟩
    · rintro rfl
      exact named member
    · rcases mem_reconcile member with ⟨old, here, source, rfl⟩ | remembered | fresh
      · have known : old.id ∈ ids list.cells := List.mem_map_of_mem here
        exact .inl known
      · exact .inr (.inl remembered)
      · exact .inr (.inr fresh.1)
  | freshId =>
    exact .of_fresh coherent.freshId rfl fun _ => .inr

end Actions

/-! ## Runs -/

/-- Identities of live and of remembered cells. -/
def inUse (list : CellList) : List Text := ids list.cells ++ ids list.removed

/-- A list of cells and every identity that was loaded, in use or handed out so far. -/
structure Chronicle where
  list : CellList
  known : List Text

namespace Chronicle

def opened (cells : List Cell) : Chronicle :=
  ⟨ofCells cells, ids cells ++ (ofCells cells).inUse⟩

/-- The chronicle after one more action. -/
def continued (chronicle : Chronicle) (action : Action) : Chronicle :=
  let (handed, after) := action.perform chronicle.list
  ⟨after, chronicle.known ++ handed ++ after.inUse⟩

/-- The chronicle of loading cells and of actions, one after the other. -/
def of (cells : List Cell) (actions : List Action) : Chronicle :=
  actions.foldl continued (opened cells)

/-- What is known was issued, and what is in use is known. -/
structure Complete (chronicle : Chronicle) : Prop where
  coherent : chronicle.list.Coherent
  issued : ∀ id ∈ chronicle.known, id = [] ∨ id ∈ chronicle.list.issued
  inUse : ∀ id ∈ chronicle.list.inUse, id ∈ chronicle.known

theorem complete_opened (cells : List Cell) : (opened cells).Complete := by
  have coherent := coherent_ofCells cells
  refine ⟨coherent, fun id member => ?_, fun id => List.mem_append_right _⟩
  rcases List.mem_append.mp member with loaded | used
  · rcases eq_or_ne id [] with empty | proper
    · exact .inl empty
    · exact .inr (mem_issued_ofCells proper loaded)
  · exact .inr (coherent.issued id used)

/-- What one more action hands out is not known yet, and everything known stays issued. -/
theorem Complete.continued {chronicle : Chronicle} (complete : chronicle.Complete)
    (action : Action) : (chronicle.continued action).Complete := by
  have step := complete.coherent.succeeds action
  refine ⟨step.coherent, fun id member => ?_, fun id => List.mem_append_right _⟩
  rcases List.mem_append.mp member with before | used
  · rcases List.mem_append.mp before with old | handed
    · exact (complete.issued id old).imp_right fun old => (step.issued id).mpr (.inr old)
    · exact .inr ((step.issued id).mpr (.inl handed))
  · exact .inr (step.coherent.issued id used)

theorem complete_of (cells : List Cell) (actions : List Action) : (of cells actions).Complete := by
  have onward (chronicle : Chronicle) (complete : chronicle.Complete) :
      (actions.foldl continued chronicle).Complete := by
    induction actions generalizing chronicle with
    | nil => exact complete
    | cons action rest ih => exact ih _ (complete.continued action)
  exact onward _ (complete_opened cells)

/-- However cells were loaded and whatever was done to them since: live cells have distinct identities,
none is empty, and none is that of a remembered cell. What the next action hands out differs from every
identity that was loaded, live, remembered or handed out before, and within the action too. A cell
that the action brings to life under an identity that is known is the remembered cell of that
identity, and under one that is not known it got the identity handed out. -/
theorem identities_once (cells : List Cell) (actions : List Action) (action : Action) :
    let chronicle := of cells actions
    let list := chronicle.list
    let handed := (action.perform list).1
    let after := (action.perform list).2
    (ids list.cells).Nodup ∧ [] ∉ ids list.cells ∧ (∀ id ∈ ids list.cells, id ∉ ids list.removed) ∧
      handed.Nodup ∧ (∀ id ∈ handed, id ∉ chronicle.known) ∧
      ∀ cell ∈ after.cells, cell.id ∉ ids list.cells →
        (cell.id ∈ chronicle.known → cell ∈ list.removed) ∧
        (cell.id ∉ chronicle.known → cell.id ∈ handed) := by
  intro chronicle list handed after
  have complete : chronicle.Complete := complete_of cells actions
  have step : Succeeds list after handed := complete.coherent.succeeds action
  obtain ⟨live, -, apart⟩ := List.nodup_append.mp complete.coherent.distinct
  have new (id : Text) (member : id ∈ handed) : id ∉ chronicle.known := by
    intro old
    obtain ⟨nonempty, unseen⟩ := step.unseen id member
    exact (complete.issued id old).elim nonempty unseen
  refine ⟨live, ?_, fun id here there => apart id here id there rfl, step.distinct, new, ?_⟩
  · intro empty
    exact complete.coherent.named (complete.coherent.issued [] (List.mem_append_left _ empty))
  · intro cell member other
    rcases step.origin cell member with here | remembered | fresh
    · exact absurd here other
    · have old : cell.id ∈ chronicle.known :=
        complete.inUse _ (List.mem_append_right _ (List.mem_map_of_mem remembered))
      exact ⟨fun _ => remembered, fun unknown => absurd old unknown⟩
    · exact ⟨fun old => absurd old (new _ fresh), fun _ => fresh⟩

/-- An identity that was loaded twice is kept once. The cell that has it comes back with it after its
removal, and a block that nothing equals gets an identity that is new. -/
example : ids (of [{ id := "a", kind := .code, source := "x" }, { id := "a", kind := .raw, source := "y" }]
    [.remove 0, .freshId, .reconcile [⟨.code, "x"⟩, ⟨.markdown, "z"⟩]]).list.cells =
      ["a", "00000002"] := by
  decide +kernel

end Chronicle

end Notebook.CellList

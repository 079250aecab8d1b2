import Notebook.Proofs.Buffer.Splice
/-!
# Undoing a batch of splices

Splices that are recorded one after the other in one new group lie on top of the undo stack, whatever
lay there before, as long as they are no more than the stack keeps. Undo takes back exactly these, and
redo makes them again. Every group in use has a smaller number than the next new one, so a new group
never runs into an older one.
-/
namespace Notebook

open Splice

/-! ## Groups -/

namespace History

/-- Every group in use has a smaller number than the next new one. -/
structure Numbered (history : History) : Prop where
  undoable : ∀ step ∈ history.undoable, step.group < history.nextGroup
  redoable : ∀ step ∈ history.redoable, step.group < history.nextGroup
  opened : ∀ group ∈ history.openGroup, group < history.nextGroup

theorem numbered_empty (limit : Nat) : (empty limit).Numbered :=
  ⟨by simp [empty], by simp [empty], by simp [empty]⟩

theorem Numbered.endGroup {history : History} (numbered : history.Numbered) :
    history.endGroup.Numbered :=
  ⟨numbered.undoable, numbered.redoable, by simp [History.endGroup]⟩

theorem trimmed_prefix (history : History) : history.trimmed <+: history.undoable := by
  unfold trimmed
  split
  · exact List.dropLast_prefix _
  · exact List.prefix_rfl

theorem Numbered.joined {history : History} (numbered : history.Numbered) (grouping : Grouping) :
    ∀ group ∈ history.joined grouping, group < history.nextGroup := by
  intro group member
  cases grouping with
  | alone => cases member
  | burst => exact numbered.opened group member
  | amend =>
    obtain ⟨step, newest, rfl⟩ := Option.map_eq_some_iff.mp member
    exact numbered.undoable step (history.trimmed_prefix.subset (List.mem_of_head? newest))

theorem Numbered.record {history : History} (numbered : history.Numbered) (splice : Splice)
    (grouping : Grouping) : (history.record splice grouping).Numbered := by
  have older := numbered.joined grouping
  have kept : ∀ step ∈ history.trimmed, step.group < history.nextGroup := fun step member =>
    numbered.undoable step (history.trimmed_prefix.subset member)
  -- The group of the step is an older one, or the next new one, which is then counted.
  obtain ⟨here, later⟩ : (history.joined grouping).getD history.nextGroup <
        (history.record splice grouping).nextGroup ∧
      history.nextGroup ≤ (history.record splice grouping).nextGroup := by
    unfold History.record
    cases joined : history.joined grouping with
    | none => simp
    | some group => simp [older group joined]
  refine ⟨List.forall_mem_cons.mpr ⟨here, fun step member => ?_⟩, by simp [History.record], ?_⟩
  · exact Nat.lt_of_lt_of_le (kept step member) later
  · intro group opened
    cases grouping with
    | alone => cases opened
    | burst =>
      cases opened
      exact here
    | amend =>
      simp only [History.record, openAfter] at opened
      split at opened
      · cases opened
        exact here
      · cases opened

end History

theorem newestGroup_sublist (stack : List Step) : (newestGroup stack).Sublist stack := by
  cases stack with
  | nil => exact List.Sublist.refl _
  | cons step rest => exact (List.takeWhile_sublist _).cons_cons step

theorem belowNewest_sublist (stack : List Step) : (belowNewest stack).Sublist stack := by
  cases stack with
  | nil => exact List.Sublist.refl _
  | cons step rest => exact (List.dropWhile_sublist _).cons step

/-- Steps of one group on top of steps of other groups are the newest group. -/
theorem newestGroup_append {front older : List Step} {group : Nat} (nonempty : front ≠ [])
    (same : ∀ step ∈ front, step.group = group) (apart : ∀ step ∈ older, step.group ≠ group) :
    newestGroup (front ++ older) = front ∧ belowNewest (front ++ older) = older := by
  cases front with
  | nil => exact absurd rfl nonempty
  | cons step rest =>
    obtain ⟨here, same⟩ := List.forall_mem_cons.mp same
    have all : ∀ other ∈ rest, decide (other.group = step.group) = true := fun other member => by
      rw [decide_eq_true_eq, same other member, here]
    -- The older steps begin with one of another group, so the newest group ends before them.
    have none : older.takeWhile (fun other => decide (other.group = step.group)) = [] ∧
        older.dropWhile (fun other => decide (other.group = step.group)) = older := by
      cases older with
      | nil => exact ⟨rfl, rfl⟩
      | cons other more =>
        have different : other.group ≠ step.group := by
          rw [here]
          exact apart other List.mem_cons_self
        simp [different]
    constructor
    · rw [List.cons_append, newestGroup, List.takeWhile_append_of_pos all, none.1, List.append_nil]
    · rw [List.cons_append, belowNewest, List.dropWhile_append_of_pos all, none.2]

namespace History

theorem Numbered.afterUndo {history : History} (numbered : history.Numbered) :
    history.afterUndo.Numbered where
  undoable step member := numbered.undoable step ((belowNewest_sublist _).subset member)
  redoable step member := by
    rcases List.mem_append.mp member with undone | old
    · exact numbered.undoable step ((newestGroup_sublist _).subset (List.mem_reverse.mp undone))
    · exact numbered.redoable step old
  opened := by simp [History.afterUndo]

theorem Numbered.afterRedo {history : History} (numbered : history.Numbered) :
    history.afterRedo.Numbered where
  undoable step member := by
    rcases List.mem_append.mp member with redone | old
    · exact numbered.redoable step ((newestGroup_sublist _).subset (List.mem_reverse.mp redone))
    · exact numbered.undoable step old
  redoable step member := numbered.redoable step ((belowNewest_sublist _).subset member)
  opened := by simp [History.afterRedo]

/-! ## One group on top -/

/-- Steps of splices that were recorded in one group, oldest first. -/
def steps (group : Nat) (splices : List Splice) : List Step := splices.map (Step.mk group)

/-- Splices were recorded in one new group, unless there are none. -/
structure Extends (before after : History) (splices : List Splice) : Prop where
  limit : after.limit = before.limit
  fresh : splices = [] → after.nextGroup = before.nextGroup
  /-- The group lies on top of what is left of the older steps. -/
  undoable : splices.length ≤ before.limit → ∃ older, older <+: before.undoable ∧
    after.undoable = (steps before.nextGroup splices).reverse ++ older
  redoable : splices ≠ [] → after.redoable = []

theorem Extends.refl (history : History) : history.Extends history [] where
  limit := rfl
  fresh _ := rfl
  undoable _ := ⟨history.undoable, List.prefix_rfl, rfl⟩
  redoable nonempty := absurd rfl nonempty

theorem Extends.endGroup {before after : History} {splices : List Splice}
    (grown : before.Extends after splices) : before.Extends after.endGroup splices :=
  ⟨grown.limit, grown.fresh, grown.undoable, grown.redoable⟩

/-- At the limit it is always an older step that is forgotten. -/
theorem Extends.trimmed {before after : History} {splices : List Splice}
    (grown : before.Extends after splices) (room : splices.length + 1 ≤ before.limit) :
    ∃ older, older <+: before.undoable ∧
      after.trimmed = (steps before.nextGroup splices).reverse ++ older := by
  obtain ⟨older, kept, stack⟩ := grown.undoable (by omega)
  unfold History.trimmed
  split
  next full =>
    have length : ((steps before.nextGroup splices).reverse ++ older).length =
        splices.length + older.length := by
      simp [steps]
    -- A full stack holds more than the group, for which there is room.
    have nonempty : older ≠ [] := by
      rintro rfl
      rw [stack, length, grown.limit] at full
      simp at full
      omega
    exact ⟨older.dropLast, (List.dropLast_prefix older).trans kept, by
      rw [stack, List.dropLast_append_of_ne_nil nonempty]⟩
  next => exact ⟨older, kept, stack⟩

/-- The next splice joins the group if it is recorded in it. -/
theorem Extends.record {before after : History} {splices : List Splice}
    (grown : before.Extends after splices) (splice : Splice) {grouping : Grouping}
    (joins : splices.length + 1 ≤ before.limit →
      (after.joined grouping).getD after.nextGroup = before.nextGroup) :
    before.Extends (after.record splice grouping) (splices ++ [splice]) where
  limit := grown.limit
  fresh none := absurd none (by simp)
  undoable room := by
    rw [List.length_append, List.length_singleton] at room
    obtain ⟨older, kept, stack⟩ := grown.trimmed room
    refine ⟨older, kept, ?_⟩
    simp only [History.record, joins room, stack, steps, List.map_append, List.reverse_append,
      List.map_cons, List.map_nil, List.reverse_singleton, List.nil_append, List.cons_append]
  redoable _ := rfl

/-- A splice of its own starts the group. -/
theorem Extends.alone (history : History) (splice : Splice) :
    history.Extends (history.record splice .alone) [splice] :=
  (Extends.refl history).record splice fun _ => rfl

/-- What is amended joins the group, since the newest step belongs to it. -/
theorem Extends.amend {before after : History} {splices : List Splice}
    (grown : before.Extends after splices) (nonempty : splices ≠ []) (splice : Splice) :
    before.Extends (after.record splice .amend) (splices ++ [splice]) := by
  refine grown.record splice fun room => ?_
  obtain ⟨older, -, stack⟩ := grown.trimmed room
  -- The newest step is that of the last splice, so its group is the one to join.
  obtain ⟨front, last, rfl⟩ : ∃ front last, splices = front ++ [last] :=
    ⟨_, _, (List.dropLast_append_getLast nonempty).symm⟩
  simp [joined, stack, steps]

/-- A burst after the last group was closed: the first splice starts the group and leaves it open
for the next ones. -/
structure Bursts (before after : History) (splices : List Splice) : Prop
    extends before.Extends after splices where
  opened : after.openGroup = if splices = [] then none else some before.nextGroup

theorem Bursts.record {before after : History} {splices : List Splice}
    (burst : before.Bursts after splices) (splice : Splice) :
    before.Bursts (after.record splice .burst) (splices ++ [splice]) := by
  have group : (after.joined .burst).getD after.nextGroup = before.nextGroup := by
    rw [joined, burst.opened]
    split
    next none => exact burst.fresh none
    next => rfl
  refine ⟨burst.toExtends.record splice fun _ => group, ?_⟩
  rw [if_neg (by simp)]
  exact congrArg some group

theorem bursts_endGroup (history : History) : history.Bursts history.endGroup [] :=
  ⟨(Extends.refl history).endGroup, rfl⟩

end History

/-! ## Undo and redo of buffers -/

namespace Buffer

/-- If each of a row of changes makes one revision, the row makes as many as it is long. -/
theorem revision_foldl {change : Buffer → Step → Buffer}
    (one : ∀ buffer step, (change buffer step).revision = buffer.revision + 1) (row : List Step)
    (buffer : Buffer) : (row.foldl change buffer).revision = buffer.revision + row.length := by
  induction row generalizing buffer with
  | nil => rfl
  | cons step rest ih =>
    rw [List.foldl_cons, ih, one, List.length_cons]
    omega

/-- Each step that is gone through makes a revision. -/
theorem Direction.revision (direction : Direction) (buffer : Buffer) :
    (direction.travel buffer).2.revision =
      buffer.revision + (newestGroup (direction.ahead buffer)).length := by
  obtain ⟨-, history, gone⟩ := direction.travel_gone buffer
  rw [gone]
  refine revision_foldl (fun buffer step => ?_) _ buffer
  cases direction <;> rfl

/-- Something is gone through, or nothing changes but the history. -/
theorem Direction.idle (direction : Direction) {buffer : Buffer} (still :
      (direction.travel buffer).1 = false ∨ (direction.travel buffer).2.revision = buffer.revision) :
    (direction.travel buffer).2.text = buffer.text ∧
      (direction.travel buffer).2.anchors = buffer.anchors := by
  obtain ⟨flag, history, gone⟩ := direction.travel_gone buffer
  have none : direction.ahead buffer = [] := by
    rcases still with none | same
    · simpa [flag] using none
    · rw [direction.revision] at same
      cases steps : direction.ahead buffer with
      | nil => rfl
      | cons step rest =>
        -- The newest group of some steps is not empty.
        rw [steps, newestGroup, List.length_cons] at same
        omega
  rw [gone, none]
  exact ⟨rfl, rfl⟩

/-- A splice that fits is carried out as it is. -/
theorem spliceAt_of_fits {buffer : Buffer} {splice : Splice} (fits : splice.Fits buffer.text) :
    buffer.spliceAt splice.start splice.stop splice.inserted = splice := by
  have inOrder : splice.start ≤ splice.stop := Nat.le_add_right ..
  simp only [spliceAt, Nat.min_eq_left fits.stop_le, Nat.min_eq_left inOrder, fits.slice_eq]

theorem spliced_reapply {buffer : Buffer} {splice : Splice} (fits : splice.Fits buffer.text) :
    Spliced buffer (buffer.reapply splice) [splice] := by
  rw [reapply, spliceAt_of_fits fits]
  exact spliced_apply fits

theorem spliced_foldl_reapply {buffer : Buffer} {last : Text} {splices : List Splice}
    (leads : Leads buffer.text splices last) :
    Spliced buffer (splices.foldl reapply buffer) splices := by
  generalize first : buffer.text = text at leads
  induction leads generalizing buffer with
  | done => exact .refl buffer
  | @step text last splice rest fits _ ih =>
    subst first
    have here := spliced_reapply fits
    exact here.trans (ih here.leads.foldl_eq.symm)

/-- To take back a splice is to make its inverse, and the newest is taken back first. -/
theorem spliced_foldl_revert {buffer : Buffer} {first : Text} {splices : List Splice} (group : Nat)
    (leads : Leads first splices buffer.text) :
    Spliced buffer ((History.steps group splices).reverse.foldl (fun b step => b.revert step.splice)
      buffer) (splices.reverse.map inverse) := by
  have reverted : (History.steps group splices).reverse.foldl
      (fun b step => b.revert step.splice) buffer =
        (splices.reverse.map inverse).foldl reapply buffer := by
    rw [History.steps, ← List.map_reverse, List.foldl_map, List.foldl_map]
    rfl
  rw [reverted]
  exact spliced_foldl_reapply leads.reverse

/-- Steps of one group on top of the undo stack are what undo takes back. -/
theorem undo_newest {buffer : Buffer} {history : History} {group : Nat} {splices : List Splice}
    {older : List Step} {first : Text} (known : buffer.history = some history)
    (stack : history.undoable = (History.steps group splices).reverse ++ older)
    (apart : ∀ step ∈ older, step.group ≠ group) (nonempty : splices ≠ [])
    (leads : Leads first splices buffer.text) : ∃ undone, buffer.undo = (true, undone) ∧
      undone.text = first ∧ undone.revision = buffer.revision + splices.length ∧
      undone.history = some { history with
        undoable := older
        redoable := History.steps group splices ++ history.redoable
        openGroup := none } := by
  have same : ∀ step ∈ (History.steps group splices).reverse, step.group = group := by
    intro step member
    obtain ⟨splice, -, rfl⟩ := List.mem_map.mp (List.mem_reverse.mp member)
    rfl
  have busy : (History.steps group splices).reverse ≠ [] := by
    simpa [History.steps] using nonempty
  obtain ⟨newest, below⟩ := newestGroup_append busy same apart
  -- The group is undone from its last splice to its first.
  have back := spliced_foldl_revert group leads
  have some : history.undoable.isEmpty = false := by
    rw [stack]
    simp [busy]
  refine ⟨_, by simp only [undo, known, some]; rfl, ?_, ?_, ?_⟩
  · simp only [stack, newest]
    exact back.leads.foldl_eq.symm.trans leads.reverse.foldl_eq
  · simp only [stack, newest, back.revision, List.length_map, List.length_reverse]
  · simp only [History.afterUndo, stack, newest, below, List.reverse_reverse]

/-- Steps of one group that are all that can be redone are what redo makes again. -/
theorem redo_all {buffer : Buffer} {history : History} {group : Nat} {splices : List Splice}
    {last : Text} (known : buffer.history = some history)
    (stack : history.redoable = History.steps group splices) (nonempty : splices ≠ [])
    (leads : Leads buffer.text splices last) : ∃ redone, buffer.redo = (true, redone) ∧
      redone.text = last ∧ redone.revision = buffer.revision + splices.length := by
  have same : ∀ step ∈ History.steps group splices, step.group = group := by
    intro step member
    obtain ⟨splice, -, rfl⟩ := List.mem_map.mp member
    rfl
  have busy : History.steps group splices ≠ [] := by
    simpa [History.steps] using nonempty
  have newest := (newestGroup_append busy same (List.forall_mem_nil _)).1
  rw [List.append_nil] at newest
  have forth := spliced_foldl_reapply leads
  have reapplied : (History.steps group splices).foldl (fun b step => b.reapply step.splice) buffer =
      splices.foldl reapply buffer := by
    rw [History.steps, List.foldl_map]
  have some : history.redoable.isEmpty = false := by
    rw [stack]
    simp [busy]
  refine ⟨_, by simp only [redo, known, some]; rfl, ?_, ?_⟩
  · simp only [stack, newest, reapplied]
    exact forth.leads.foldl_eq.symm.trans leads.foldl_eq
  · simp only [stack, newest, reapplied, forth.revision]

/-! ## A batch -/

/-- One buffer became another by splices that were recorded in one new group. -/
structure Batch (before after : Buffer) (splices : List Splice) : Prop where
  leads : Leads before.text splices after.text
  revision : after.revision = before.revision + splices.length
  recorded : ∃ older newer, before.history = some older ∧ after.history = some newer ∧
    older.Extends newer splices

theorem Batch.changed {before after : Buffer} {splices : List Splice}
    (batch : Batch before after splices) (other : after.text ≠ before.text) : splices ≠ [] := by
  rintro rfl
  exact other batch.leads.foldl_eq.symm

/-- After a batch that the history has room for, undo gives the text before it, and redo then gives
the text after it. In between the buffer may be anything with that text and history. -/
theorem Batch.undo_redo {before after : Buffer} {splices : List Splice}
    (batch : Batch before after splices) (nonempty : splices ≠ [])
    (numbered : ∀ history ∈ before.history, history.Numbered ∧ splices.length ≤ history.limit) :
    ∃ undone, after.undo = (true, undone) ∧ undone.text = before.text ∧
      undone.revision ≠ after.revision ∧
      ∀ between : Buffer, between.text = before.text → between.history = undone.history →
        ∃ redone, between.redo = (true, redone) ∧ redone.text = after.text ∧
          redone.revision ≠ between.revision := by
  obtain ⟨older, newer, known, grown, extended⟩ := batch.recorded
  obtain ⟨numbered, room⟩ := numbered older known
  obtain ⟨below, kept, stack⟩ := extended.undoable room
  -- The group of the batch had not been used before, so what lies below belongs to other groups.
  have apart : ∀ step ∈ below, step.group ≠ older.nextGroup := fun step member =>
    Nat.ne_of_lt (numbered.undoable step (kept.subset member))
  have positive : 0 < splices.length := List.length_pos_of_ne_nil nonempty
  obtain ⟨undone, undo, text, revision, history⟩ :=
    undo_newest grown stack apart nonempty batch.leads
  refine ⟨undone, undo, text, by omega, fun between same remembered => ?_⟩
  -- The batch had emptied the redo stack, so after undo it holds the batch and nothing else.
  rw [history, extended.redoable nonempty, List.append_nil] at remembered
  obtain ⟨redone, redo, text, revision⟩ :=
    redo_all remembered rfl nonempty (same ▸ batch.leads)
  exact ⟨redone, redo, text, by omega⟩

/-! ## What makes a batch -/

section Alone

variable {buffer : Buffer} {history : History}

theorem batch_refl (known : buffer.history = some history) : Batch buffer buffer [] :=
  ⟨.done _, rfl, history, history, known, known, .refl history⟩

theorem batch_replace_alone (known : buffer.history = some history) (start stop : Nat)
    (inserted : Text) : Batch buffer (buffer.replace start stop inserted .alone)
      [buffer.spliceAt start stop inserted] :=
  have made := buffer.spliced_replace start stop inserted .alone
  ⟨made.leads, made.revision, history, _, known, congrArg (Option.map _) known, .alone history _⟩

/-- Writing lines as a step of its own makes a batch. -/
theorem batch_replaceLines_alone (known : buffer.history = some history) (start stop : Nat)
    (new : List Text) : ∃ splices, Batch buffer (buffer.replaceLines start stop new .alone) splices :=
  replaceLines_keeps (fun after => ∃ splices, Batch buffer after splices) ⟨[], batch_refl known⟩
    (fun first last inserted => ⟨_, batch_replace_alone known first last inserted⟩) start stop new

theorem batch_setLines_alone (known : buffer.history = some history) (new : List Text) :
    ∃ splices, Batch buffer (buffer.setLines new .alone).2 splices :=
  setLines_keeps (fun after => ∃ splices, Batch buffer after splices) ⟨[], batch_refl known⟩
    (fun first last inserted => ⟨_, batch_replace_alone known first last inserted⟩) new

end Alone

theorem Batch.of_same {before after other : Buffer} {splices : List Splice}
    (batch : Batch before after splices) (text : other.text = after.text)
    (revision : other.revision = after.revision) (history : other.history = after.history) :
    Batch before other splices :=
  ⟨text ▸ batch.leads, revision.trans batch.revision, by rw [history]; exact batch.recorded⟩

theorem Batch.endGroup {before after : Buffer} {splices : List Splice}
    (batch : Batch before after splices) : Batch before after.endGroup splices := by
  obtain ⟨older, newer, known, grown, extended⟩ := batch.recorded
  exact ⟨batch.leads, batch.revision, older, newer.endGroup, known, congrArg (Option.map _) grown,
    extended.endGroup⟩

/-- What is amended joins a batch that is not empty. -/
theorem Batch.setLines_amend {before after : Buffer} {splices : List Splice}
    (batch : Batch before after splices) (nonempty : splices ≠ []) (new : List Text) :
    ∃ splices, Batch before (after.setLines new .amend).2 splices := by
  rcases after.setLines_cases new .amend with same | ⟨first, last, inserted, eq, -⟩
  · exact ⟨splices, by rw [same]; exact batch⟩
  · obtain ⟨older, newer, known, grown, extended⟩ := batch.recorded
    have made := after.spliced_replace first last inserted .amend
    refine ⟨splices ++ [after.spliceAt first last inserted], ?_⟩
    rw [eq]
    refine ⟨batch.leads.append made.leads, ?_, older, _, known, congrArg (Option.map _) grown,
      extended.amend nonempty _⟩
    rw [made.revision, batch.revision, List.length_append, Nat.add_assoc]

/-- A batch that is still being made as a burst. -/
structure Burst (before after : Buffer) (splices : List Splice) : Prop where
  leads : Leads before.text splices after.text
  revision : after.revision = before.revision + splices.length
  /-- The splices were recorded, and the next one joins them. -/
  recorded : ∃ older newer, before.history = some older ∧ after.history = some newer ∧
    older.Bursts newer splices

theorem Burst.batch {before after : Buffer} {splices : List Splice}
    (burst : Burst before after splices) : Batch before after splices := by
  obtain ⟨older, newer, known, grown, bursts⟩ := burst.recorded
  exact ⟨burst.leads, burst.revision, older, newer, known, grown, bursts.toExtends⟩

theorem burst_endGroup {buffer : Buffer} {history : History} (known : buffer.history = some history) :
    Burst buffer buffer.endGroup [] :=
  ⟨.done _, rfl, history, history.endGroup, known, congrArg (Option.map _) known,
    history.bursts_endGroup⟩

theorem Burst.replace {before after : Buffer} {splices : List Splice}
    (burst : Burst before after splices) (start stop : Nat) (inserted : Text) :
    Burst before (after.replace start stop inserted .burst)
      (splices ++ [after.spliceAt start stop inserted]) := by
  obtain ⟨older, newer, known, grown, bursts⟩ := burst.recorded
  have made := after.spliced_replace start stop inserted .burst
  refine ⟨burst.leads.append made.leads, ?_, older, _, known, congrArg (Option.map _) grown,
    bursts.record _⟩
  rw [made.revision, burst.revision, List.length_append, Nat.add_assoc]

end Buffer

end Notebook

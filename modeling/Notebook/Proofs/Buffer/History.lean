import Notebook.Proofs.Buffer.Undo
/-!
# What a history goes through

Recording, closing the group, undo and redo are all that happens to a history while it is kept. Whatever
they lead to, the open group is that of the newest step, and the two stacks together hold no more steps
than the limit allows. So what is typed on top of an open group is taken back together with the steps
that the group held before, unless the limit has left none of them.
-/
namespace Notebook

namespace History

/-- Recording, closing the group, undo and redo lead from one history to another. -/
inductive Leads (before : History) : History → Prop
  | still : Leads before before
  | record {after : History} : Leads before after → (splice : Splice) → (grouping : Grouping) →
      Leads before (after.record splice grouping)
  | endGroup {after : History} : Leads before after → Leads before after.endGroup
  | afterUndo {after : History} : Leads before after → Leads before after.afterUndo
  | afterRedo {after : History} : Leads before after → Leads before after.afterRedo

variable {before middle after history : History}

theorem Leads.trans (there : before.Leads middle) (onward : middle.Leads after) :
    before.Leads after := by
  induction onward with
  | still => exact there
  | record _ splice grouping ih => exact ih.record splice grouping
  | endGroup _ ih => exact ih.endGroup
  | afterUndo _ ih => exact ih.afterUndo
  | afterRedo _ ih => exact ih.afterRedo

/-- The stacks fit into the limit, and what is typed next joins the newest step, if anything. -/
structure Tidy (history : History) : Prop where
  positive : 0 < history.limit
  room : history.undoable.length + history.redoable.length ≤ history.limit
  newest : ∀ group ∈ history.openGroup, history.undoable.head?.map (·.group) = some group

theorem tidy_empty (limit : Nat) : (empty limit).Tidy :=
  ⟨by simp only [empty]; omega, by simp [empty], by simp [empty]⟩

/-- At the limit it is the oldest step that makes room. -/
theorem Tidy.trimmed (tidy : history.Tidy) : history.trimmed = history.undoable.take (history.limit - 1) := by
  have room := tidy.room
  unfold History.trimmed
  split
  next full =>
    have length : history.undoable.length = history.limit := by omega
    rw [List.dropLast_eq_take, length]
  next => rw [List.take_of_length_le (by omega)]

theorem Tidy.record (tidy : history.Tidy) (splice : Splice) (grouping : Grouping) :
    (history.record splice grouping).Tidy where
  positive := tidy.positive
  room := by
    have positive := tidy.positive
    -- Room is made for the step before it is pushed, so at least one has to fit.
    simp only [History.record, tidy.trimmed, List.length_cons, List.length_nil, List.length_take]
    omega
  newest group opened := by
    cases grouping with
    | alone => cases opened
    | burst =>
      cases opened
      rfl
    | amend =>
      simp only [History.record, openAfter] at opened
      split at opened
      · cases opened
        rfl
      · cases opened

theorem length_newest_below (stack : List Step) :
    (newestGroup stack).length + (belowNewest stack).length = stack.length := by
  cases stack with
  | nil => rfl
  | cons step rest =>
    have whole (joins : Step → Bool) :
        (rest.takeWhile joins).length + (rest.dropWhile joins).length = rest.length := by
      rw [← List.length_append, List.takeWhile_append_dropWhile]
    have moved := whole fun other => other.group = step.group
    simp only [newestGroup, belowNewest, List.length_cons]
    omega

theorem Tidy.afterUndo (tidy : history.Tidy) : history.afterUndo.Tidy where
  positive := tidy.positive
  room := by
    have moved := length_newest_below history.undoable
    have room := tidy.room
    simp only [History.afterUndo, List.length_append, List.length_reverse]
    omega
  newest := by simp [History.afterUndo]

theorem Tidy.afterRedo (tidy : history.Tidy) : history.afterRedo.Tidy where
  positive := tidy.positive
  room := by
    have moved := length_newest_below history.redoable
    have room := tidy.room
    simp only [History.afterRedo, List.length_append, List.length_reverse]
    omega
  newest := by simp [History.afterRedo]

theorem Leads.tidy (leads : before.Leads after) (tidy : before.Tidy) : after.Tidy := by
  induction leads with
  | still => exact tidy
  | record _ splice grouping ih => exact ih.record splice grouping
  | endGroup _ ih => exact ⟨ih.positive, ih.room, by simp [History.endGroup]⟩
  | afterUndo _ ih => exact ih.afterUndo
  | afterRedo _ ih => exact ih.afterRedo

/-! ## What is typed on top of a history -/

/-- The group of what is typed next: the open one, if there is one. -/
def nextBurst (history : History) : Nat := history.openGroup.getD history.nextGroup

/-- Splices were typed one after the other on top of a history. They are its newest steps, all in the
group that was open or in a new one, and below lies what the limit leaves of the older steps. -/
structure Typed (before after : History) (splices : List Splice) : Prop where
  limit : after.limit = before.limit
  tidy : after.Tidy
  group : after.nextBurst = before.nextBurst
  undoable : splices.length ≤ before.limit → after.undoable =
    (steps before.nextBurst splices).reverse ++
      before.undoable.take (before.limit - splices.length)

theorem Tidy.typed (tidy : history.Tidy) : history.Typed history [] where
  limit := rfl
  tidy := tidy
  group := rfl
  undoable _ := by
    have room := tidy.room
    exact (List.take_of_length_le (by simp only [List.length_nil]; omega)).symm

theorem Typed.record {splices : List Splice} (typed : before.Typed after splices) (splice : Splice) :
    before.Typed (after.record splice .burst) (splices ++ [splice]) where
  limit := typed.limit
  tidy := typed.tidy.record splice .burst
  group := typed.group
  undoable room := by
    rw [List.length_append, List.length_singleton] at room
    have length : (steps before.nextBurst splices).reverse.length = splices.length := by simp [steps]
    -- One more step leaves room for one less of the older ones.
    have below : after.trimmed = (steps before.nextBurst splices).reverse ++
        before.undoable.take (before.limit - (splices ++ [splice]).length) := by
      rw [typed.tidy.trimmed, typed.limit, typed.undoable (by omega), List.take_append, length,
        List.take_of_length_le (by omega), List.take_take]
      congr 2
      rw [List.length_append, List.length_singleton]
      omega
    have group : (after.joined .burst).getD after.nextGroup = before.nextBurst := typed.group
    simp only [History.record, group, below, steps, List.map_append, List.reverse_append,
      List.map_cons, List.map_nil, List.reverse_singleton, List.nil_append, List.cons_append]

end History

theorem newestGroup_eq_nil {stack : List Step} (none : newestGroup stack = []) : stack = [] := by
  cases stack with
  | nil => rfl
  | cons step rest => cases none

/-- Steps of one group on top of steps that begin in the same one belong to their newest group. -/
theorem newestGroup_joined {front older : List Step} {group : Nat}
    (same : ∀ step ∈ front, step.group = group)
    (joins : older.head?.map (·.group) = some group) :
    newestGroup (front ++ older) = front ++ newestGroup older := by
  cases front with
  | nil => rfl
  | cons step rest =>
    obtain ⟨here, same⟩ := List.forall_mem_cons.mp same
    have all : ∀ other ∈ rest, decide (other.group = step.group) = true := fun other member => by
      rw [decide_eq_true_eq, same other member, here]
    cases older with
    | nil => cases joins
    | cons next more =>
      have next : next.group = step.group := by
        rw [here]
        simpa using joins
      rw [List.cons_append, newestGroup, List.takeWhile_append_of_pos all, newestGroup,
        List.takeWhile_cons_of_pos (by simpa using next), next, List.cons_append]

namespace Buffer

/-- The history of a buffer, if it is kept, is one that the history of another leads to. -/
def Continues (before after : Buffer) : Prop :=
  ∀ history ∈ before.history, ∃ later ∈ after.history, history.Leads later

variable {before middle after : Buffer}

theorem continues_of_same (same : after.history = before.history) : before.Continues after :=
  fun history known => ⟨history, same ▸ known, .still⟩

theorem Continues.trans (there : before.Continues middle) (onward : middle.Continues after) :
    before.Continues after := by
  intro history known
  obtain ⟨between, known, first⟩ := there history known
  obtain ⟨later, known, second⟩ := onward between known
  exact ⟨later, known, first.trans second⟩

theorem Continues.of_history {other : Buffer} (continues : before.Continues after)
    (same : other.history = after.history) : before.Continues other :=
  continues.trans (continues_of_same same)

/-- Changing the history itself, by something that leads on from it. -/
theorem continues_map {change : History → History}
    (leads : ∀ history : History, history.Leads (change history))
    (changed : after.history = before.history.map change) : before.Continues after := by
  intro history known
  refine ⟨change history, ?_, leads history⟩
  rw [changed, known, Option.map_some]
  rfl

theorem continues_replace (buffer : Buffer) (start stop : Nat) (inserted : Text)
    (grouping : Grouping) : buffer.Continues (buffer.replace start stop inserted grouping) :=
  continues_map (fun _ => .record .still _ grouping) rfl

theorem continues_replaceLines (buffer : Buffer) (start stop : Nat) (new : List Text)
    (grouping : Grouping) : buffer.Continues (buffer.replaceLines start stop new grouping) :=
  replaceLines_keeps buffer.Continues (continues_of_same rfl) (buffer.continues_replace · · · grouping)
    start stop new

theorem continues_setLines (buffer : Buffer) (new : List Text) (grouping : Grouping) :
    buffer.Continues (buffer.setLines new grouping).2 :=
  setLines_keeps buffer.Continues (continues_of_same rfl) (buffer.continues_replace · · · grouping) new

theorem continues_endGroup (buffer : Buffer) : buffer.Continues buffer.endGroup :=
  continues_map (fun _ => .endGroup .still) rfl

theorem continues_undo (buffer : Buffer) : buffer.Continues buffer.undo.2 := by
  intro history known
  have known : buffer.history = some history := known
  simp only [undo, known]
  split
  · exact ⟨_, rfl, .endGroup .still⟩
  · exact ⟨_, rfl, .afterUndo .still⟩

theorem continues_redo (buffer : Buffer) : buffer.Continues buffer.redo.2 := by
  intro history known
  have known : buffer.history = some history := known
  simp only [redo, known]
  split
  · exact ⟨_, rfl, .endGroup .still⟩
  · exact ⟨_, rfl, .afterRedo .still⟩

/-! ## Typing -/

/-- The steps that can be undone, newest first. -/
def undoSteps (buffer : Buffer) : List Step := (buffer.history.map (·.undoable)).getD []

theorem text_undo (buffer : Buffer) : buffer.undo.2.text =
    ((newestGroup buffer.undoSteps).foldl (fun b step => b.revert step.splice) buffer).text :=
  Direction.back.text_travel buffer

/-- One buffer became another by splices that were typed on top of its history. -/
structure Typed (before after : Buffer) (splices : List Splice) : Prop where
  leads : Splice.Leads before.text splices after.text
  revision : after.revision = before.revision + splices.length
  recorded : ∃ older newer, before.history = some older ∧ after.history = some newer ∧
    older.Typed newer splices

theorem typed_refl {history : History} (known : before.history = some history) (tidy : history.Tidy) :
    before.Typed before [] :=
  ⟨.done _, rfl, history, history, known, known, tidy.typed⟩

theorem Typed.replace {splices : List Splice} (typed : before.Typed after splices)
    (start stop : Nat) (inserted : Text) :
    before.Typed (after.replace start stop inserted .burst)
      (splices ++ [after.spliceAt start stop inserted]) := by
  obtain ⟨older, newer, known, grown, recorded⟩ := typed.recorded
  have made := after.spliced_replace start stop inserted .burst
  refine ⟨typed.leads.append made.leads, ?_, older, _, known, congrArg (Option.map _) grown,
    recorded.record _⟩
  rw [made.revision, typed.revision, List.length_append, Nat.add_assoc]

theorem Typed.of_same {other : Buffer} {splices : List Splice} (typed : before.Typed after splices)
    (text : other.text = after.text) (revision : other.revision = after.revision)
    (history : other.history = after.history) : before.Typed other splices :=
  ⟨text ▸ typed.leads, revision.trans typed.revision, by rw [history]; exact typed.recorded⟩

/-- What was typed in a group of its own, or in one of which the limit has left nothing else, is all
that undo takes back. -/
theorem Typed.undo_apart {splices : List Splice} (typed : before.Typed after splices)
    (nonempty : splices ≠ []) {older : History} (known : before.history = some older)
    (numbered : older.Numbered) (room : splices.length ≤ older.limit)
    (apart : older.openGroup = none ∨ splices.length = older.limit) :
    ∃ undone, after.endGroup.undo = (true, undone) ∧ undone.text = before.text ∧
      undone.revision ≠ after.revision ∧
      undone.undoSteps = before.undoSteps.take (older.limit - splices.length) := by
  obtain ⟨_, newer, found, grown, recorded⟩ := typed.recorded
  obtain rfl := Option.some.inj (known.symm.trans found)
  -- An older step shares the group only if that was open and the limit has left the step.
  have others : ∀ step ∈ older.undoable.take (older.limit - splices.length),
      step.group ≠ older.nextBurst := by
    intro step member
    rcases apart with closed | full
    · rw [History.nextBurst, closed]
      exact Nat.ne_of_lt (numbered.undoable step (List.mem_of_mem_take member))
    · rw [full, Nat.sub_self, List.take_zero] at member
      cases member
  have positive : 0 < splices.length := List.length_pos_of_ne_nil nonempty
  have closed : after.endGroup.history = some newer.endGroup := congrArg (Option.map _) grown
  have stack : newer.endGroup.undoable = (History.steps older.nextBurst splices).reverse ++
      older.undoable.take (older.limit - splices.length) := recorded.undoable room
  obtain ⟨undone, undo, text, revision, history⟩ :=
    undo_newest closed stack others nonempty typed.leads
  have revision : undone.revision = after.revision + splices.length := revision
  refine ⟨undone, undo, text, by omega, ?_⟩
  rw [undoSteps, undoSteps, history, known]
  rfl

/-- What was typed in an open group is taken back together with the steps of the group that the limit
has left, and there is one at least. -/
theorem Typed.undo_joined {splices : List Splice} (typed : before.Typed after splices)
    {older : History} (known : before.history = some older) (tidy : older.Tidy)
    (room : splices.length < older.limit) (opened : older.openGroup.isSome) :
    let earlier := newestGroup (before.undoSteps.take (older.limit - splices.length))
    earlier ≠ [] ∧ newestGroup after.endGroup.undoSteps =
        (History.steps older.nextBurst splices).reverse ++ earlier ∧
      after.endGroup.undo.2.text = (earlier.foldl (fun b step => b.revert step.splice) before).text := by
  obtain ⟨_, newer, found, grown, recorded⟩ := typed.recorded
  obtain rfl := Option.some.inj (known.symm.trans found)
  obtain ⟨group, opened⟩ := Option.isSome_iff_exists.mp opened
  have burst : older.nextBurst = group := by rw [History.nextBurst, opened, Option.getD_some]
  have joins : (older.undoable.take (older.limit - splices.length)).head?.map (·.group) =
      some group := by
    rw [List.head?_take, if_neg (by omega)]
    exact tidy.newest group opened
  have same : ∀ step ∈ (History.steps group splices).reverse, step.group = group := by
    intro step member
    obtain ⟨splice, -, rfl⟩ := List.mem_map.mp (List.mem_reverse.mp member)
    rfl
  have steps : before.undoSteps = older.undoable := by rw [undoSteps, known]; rfl
  have stack : after.endGroup.undoSteps = (History.steps group splices).reverse ++
      older.undoable.take (older.limit - splices.length) := by
    rw [undoSteps, endGroup, grown]
    exact burst ▸ recorded.undoable (by omega)
  have newest := newestGroup_joined same joins
  rw [burst, stack, newest, steps]
  refine ⟨?_, rfl, ?_⟩
  · intro none
    rw [newestGroup_eq_nil none] at joins
    cases joins
  · -- The steps above lead back to where typing began, and the ones below go on from there.
    have leads : Splice.Leads before.text splices after.endGroup.text := typed.leads
    have back : ((History.steps group splices).reverse.foldl (fun b step => b.revert step.splice)
        after.endGroup).text = before.text :=
      (spliced_foldl_revert group leads).leads.foldl_eq.symm.trans leads.reverse.foldl_eq
    rw [text_undo, stack, newest, List.foldl_append]
    exact Direction.back.text_foldl back _

end Buffer

end Notebook

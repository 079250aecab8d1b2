import Notebook.Proofs.Buffer.Groups
/-!
# How groups lie on the stacks

A history is a run of pushes, ends of groups, undos and redos. Whatever the run, the steps of one group lie
together and on one stack; numbers rise from the oldest step that can be undone to the one that would be
redone last; and what is typed next joins the newest step or nothing. Each new group takes the next number,
so a counter of limited size shows no difference until it has run out.
-/
namespace Notebook

/-- The steps of each group lie next to each other. -/
def Together (stack : List Step) : Prop :=
  ∀ above between below : Step, [above, between, below].Sublist stack →
    above.group = below.group → between.group = above.group

/-- In a stack that is sorted by groups the steps of each group lie next to each other. -/
theorem together_of_sorted {stack : List Step} {sorts : Nat → Nat → Prop}
    (antisymm : ∀ a b, sorts a b → sorts b a → a = b)
    (sorted : stack.Pairwise fun above below => sorts above.group below.group) : Together stack := by
  intro above between below inside same
  have three := sorted.sublist inside
  simp only [List.pairwise_cons, List.mem_cons, List.not_mem_nil, or_false, forall_eq_or_imp,
    forall_eq] at three
  obtain ⟨⟨first, -⟩, second, -⟩ := three
  exact (antisymm _ _ first (same ▸ second)).symm

namespace History

/-- What can be done to a history. -/
inductive Deed where
  | record (splice : Splice) (grouping : Grouping)
  | endGroup
  | undo
  | redo

def perform (history : History) : Deed → History
  | .record splice grouping => history.record splice grouping
  | .endGroup => history.endGroup
  | .undo => history.afterUndo
  | .redo => history.afterRedo

def run (history : History) (deeds : List Deed) : History := deeds.foldl perform history

/-- A deed begins a new group. -/
def begins (history : History) : Deed → Bool
  | .record _ grouping => (history.joined grouping).isNone
  | _ => false

/-- How many groups begin in a run. -/
def begun (history : History) : List Deed → Nat
  | [] => 0
  | deed :: rest => (history.begins deed).toNat + (history.perform deed).begun rest

/-- The number of the next group, as far as a counter of a limited size tells it. -/
def counted (size : Nat) (history : History) : History :=
  { history with nextGroup := history.nextGroup % size }

/-- A run under a counter that starts again at zero when it has run out. -/
def runWithin (size : Nat) (history : History) (deeds : List Deed) : History :=
  deeds.foldl (fun history deed => (history.perform deed).counted size) history

variable {history : History}

theorem leads_perform (history : History) (deed : Deed) : history.Leads (history.perform deed) := by
  cases deed with
  | record splice grouping => exact .record .still splice grouping
  | endGroup => exact .endGroup .still
  | undo => exact .afterUndo .still
  | redo => exact .afterRedo .still

theorem leads_run (history : History) (deeds : List Deed) : history.Leads (history.run deeds) := by
  induction deeds generalizing history with
  | nil => exact .still
  | cons deed rest ih => exact (history.leads_perform deed).trans (ih _)

/-- The counter goes on by one for each group that begins. -/
theorem nextGroup_perform (history : History) (deed : Deed) :
    (history.perform deed).nextGroup = history.nextGroup + (history.begins deed).toNat := by
  cases deed with
  | record splice grouping =>
    simp only [perform, History.record, begins]
    cases history.joined grouping <;> rfl
  | _ => rfl

theorem nextGroup_run (history : History) (deeds : List Deed) :
    (history.run deeds).nextGroup = history.nextGroup + history.begun deeds := by
  induction deeds generalizing history with
  | nil => rfl
  | cons deed rest ih =>
    have next := history.nextGroup_perform deed
    rw [run, List.foldl_cons, ← run, ih, begun]
    omega

/-- A counter that does not run out makes no difference. -/
theorem runWithin_eq {size : Nat} {deeds : List Deed} (few : history.nextGroup + history.begun deeds < size) :
    history.runWithin size deeds = history.run deeds := by
  induction deeds generalizing history with
  | nil => rfl
  | cons deed rest ih =>
    have next := history.nextGroup_perform deed
    rw [begun] at few
    have within : (history.perform deed).counted size = history.perform deed := by
      rw [counted, Nat.mod_eq_of_lt (by omega)]
    rw [runWithin, List.foldl_cons, within, ← runWithin, ih (by omega), run, run, List.foldl_cons]

/-- The groups are in order on both stacks, and there is room for their steps. The tops of the stacks are
their heads, so groups rise from the bottom of the undo stack to its top, and on from the top of the redo
stack to its bottom. -/
structure Grouped (room : Nat) (history : History) : Prop where
  together : Together history.undoable ∧ Together history.redoable
  undoable : history.undoable.Pairwise fun newer older => older.group ≤ newer.group
  redoable : history.redoable.Pairwise fun next later => next.group ≤ later.group
  apart : ∀ done ∈ history.undoable, ∀ undone ∈ history.redoable, done.group < undone.group
  fresh : ∀ step ∈ history.undoable ++ history.redoable, step.group < history.nextGroup
  fits : history.undoable.length + history.redoable.length ≤ room
  opened : ∀ group ∈ history.openGroup, history.undoable.head?.map (·.group) = some group

/-- An orderly history is grouped. -/
theorem Ordered.grouped (ordered : history.Ordered) (tidy : history.Tidy) (numbered : history.Numbered) :
    history.Grouped history.limit where
  together := ⟨together_of_sorted (fun _ _ down up => Nat.le_antisymm up down) ordered.undoable,
    together_of_sorted (fun _ _ up down => Nat.le_antisymm up down) ordered.redoable⟩
  undoable := ordered.undoable
  redoable := ordered.redoable
  apart := ordered.apart
  fresh step member := (List.mem_append.mp member).elim (numbered.undoable step) (numbered.redoable step)
  fits := tidy.room
  opened := tidy.newest

/-- Whatever is done to an empty history: as long as no more groups have begun than its counter can tell
apart, the counter is the number of groups that have begun, the groups are in order, and the steps on both
stacks together are no more than the limit, or than one. -/
theorem run_grouped (limit : Nat) {size : Nat} {deeds : List Deed}
    (few : (empty limit).begun deeds < size) :
    let history := (empty limit).runWithin size deeds
    history = (empty limit).run deeds ∧ history.nextGroup = (empty limit).begun deeds ∧
      history.Grouped (max limit 1) := by
  intro history
  have first : (empty limit).nextGroup = 0 := rfl
  have plain : history = (empty limit).run deeds := runWithin_eq (by omega)
  have leads := leads_run (empty limit) deeds
  have tidy := leads.tidy (tidy_empty limit)
  have numbered := leads.numbered (numbered_empty limit)
  have ordered := leads.ordered (tidy_empty limit) (numbered_empty limit) (ordered_empty limit)
  have counter := nextGroup_run (empty limit) deeds
  have grouped := ordered.grouped tidy numbered
  rw [leads.limit] at grouped
  exact ⟨plain, by rw [plain, counter, first, Nat.zero_add], plain ▸ grouped⟩

/-- So it is where a burst is undone, redone and amended until the limit forgets its first step. -/
theorem grouped_after_amended_burst :
    let typed (text : Text) : Splice := ⟨0, [], text⟩
    let deeds : List Deed := [.record (typed "a") .burst, .record (typed "b") .burst, .undo, .redo,
      .record (typed "c") .amend, .record (typed "d") .burst, .record (typed "e") .burst, .undo]
    let history := (empty 4).runWithin 0x10000000000000000 deeds
    history.undoable.map (·.group) = [0, 0] ∧ history.redoable.map (·.group) = [1, 1] ∧
      history.nextGroup = 2 ∧ history.Grouped 4 := by
  intro typed deeds history
  have few : (empty 4).begun deeds < 0x10000000000000000 := by decide
  have grouped := run_grouped 4 few
  exact ⟨by decide, by decide, grouped.2.1, grouped.2.2⟩

end History

end Notebook

import Notebook.Buffer.Splice
/-!
# Undo history

Every splice of a buffer is one step. Steps carry the number of their group, and undo and redo
move whole groups: the run of steps at the head of a stack that share a number. Both stacks have
their newest entry at the head. Undone steps lie on the redo stack in the order in which they
are to be redone.
-/
namespace Notebook

/-- One recorded splice and the group it belongs to. -/
structure Step where
  group : Nat
  splice : Splice
  deriving DecidableEq, Repr

structure History where
  /-- Steps that can be undone, newest first. -/
  undoable : List Step := []
  /-- Steps that can be redone, the next one first. -/
  redoable : List Step := []
  /-- Most steps kept for undo; at least one. -/
  limit : Nat
  nextGroup : Nat := 0
  openGroup : Option Nat := none
  deriving DecidableEq, Repr

namespace History

/-- An empty history of at most `limit` steps, and room for one in any case. -/
def empty (limit : Nat) : History := { limit := max limit 1 }

def endGroup (history : History) : History := { history with openGroup := none }

/-- Make room for one more step: at the limit the oldest step is forgotten. -/
def trimmed (history : History) : List Step :=
  if history.limit ≤ history.undoable.length then history.undoable.dropLast
  else history.undoable

/-- The group of a new step: the open one, the newest one, or `none` for a group of its own.
The newest group is looked up after the oldest step has been forgotten. -/
def joined (history : History) : Grouping → Option Nat
  | .alone => none
  | .burst => history.openGroup
  | .amend => history.trimmed.head?.map (·.group)

/-- Which group stays open after a step was recorded in `group`. -/
def openAfter (history : History) (group : Nat) : Grouping → Option Nat
  | .alone => none
  | .burst => some group
  | .amend => if history.openGroup = some group then some group else none

/-- Record a splice. Everything that could be redone is forgotten. -/
def record (history : History) (splice : Splice) (grouping : Grouping) : History :=
  let group := (history.joined grouping).getD history.nextGroup
  { history with
    undoable := ⟨group, splice⟩ :: history.trimmed
    redoable := []
    nextGroup := if (history.joined grouping).isSome then history.nextGroup
      else history.nextGroup + 1
    openGroup := history.openAfter group grouping }

end History

/-- The run of steps at the head of a stack that belong to one group. -/
def newestGroup : List Step → List Step
  | [] => []
  | step :: rest => step :: rest.takeWhile fun other => other.group = step.group

/-- What is left of a stack below its newest group. -/
def belowNewest : List Step → List Step
  | [] => []
  | step :: rest => rest.dropWhile fun other => other.group = step.group

namespace History

/-- Move the newest group to the redo stack, oldest step on top. -/
def afterUndo (history : History) : History :=
  { history with
    undoable := belowNewest history.undoable
    redoable := (newestGroup history.undoable).reverse ++ history.redoable
    openGroup := none }

/-- Move the next group to be redone back to the undo stack, newest step on top. -/
def afterRedo (history : History) : History :=
  { history with
    redoable := belowNewest history.redoable
    undoable := (newestGroup history.redoable).reverse ++ history.undoable
    openGroup := none }

end History

end Notebook

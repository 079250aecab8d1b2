import Notebook.Text.Lines
/-!
# Splices

The one change that a text can undergo: at an offset, some characters go and others come.
A splice remembers both, so it can be replayed and taken back.
-/
namespace Notebook

/-- A replacement at a character offset. `start` refers to the text just before the splice. -/
structure Splice where
  start : Nat
  removed : Text
  inserted : Text
  deriving DecidableEq, Repr

namespace Splice

/-- End of the removed span in the text before the splice. -/
def stop (splice : Splice) : Nat := splice.start + splice.removed.length

end Splice

inductive Grouping where
  /-- A step of its own; closes the open group. -/
  | alone
  /-- Extends the open group, opening one if there is none. -/
  | burst
  /-- Extends the newest group, open or closed, and leaves it open or closed. -/
  | amend
  deriving DecidableEq, Repr

end Notebook

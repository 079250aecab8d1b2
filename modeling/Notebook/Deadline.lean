/-!
# Deadlines

A delayed action, a hover request say, is due once a time has passed since it was last asked for.
Asking again starts the delay anew. Times are milliseconds on a clock that starts anywhere.
-/
namespace Notebook

/-- A delay, and when the next action is due. -/
structure Deadline where
  /-- Time between the last request and the action. -/
  delay : Nat
  /-- When the action is due, if it is asked for. -/
  due : Option Nat := none
  deriving DecidableEq, Repr

namespace Deadline

/-- Ask for the action, or ask again. -/
def schedule (deadline : Deadline) (now : Nat) : Deadline :=
  { deadline with due := some (now + deadline.delay) }

def cancel (deadline : Deadline) : Deadline := { deadline with due := none }

def isPending (deadline : Deadline) : Bool := deadline.due.isSome

/-- Tells whether the action is to be taken now. It is to be taken once. -/
def fire (deadline : Deadline) (now : Nat) : Bool × Deadline :=
  if deadline.due.any (· ≤ now) then (true, deadline.cancel) else (false, deadline)

end Deadline

end Notebook

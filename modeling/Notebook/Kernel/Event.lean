import Notebook.File
import Notebook.Text.Blank
/-!
# Events from the kernel

The kernel reports what happens as lines of JSON. The member `type` names the event. The fields
may also be given as an array, the name first: then fields at the end may be missing if they have
defaults, and there must be none too many. Events of other names are accepted and mean nothing.
-/
namespace Notebook

/-- What the kernel reports. A ticket tells which execution an event belongs to. -/
inductive Event where
  | ready
  | kernelStarted
  /-- The kernel went to another state: `busy`, `idle` or something else. -/
  | status (state : Text) (ticket : Option Nat)
  | executeRequest (ticket : Option Nat) (messageId : Option Text)
  | executeInput (ticket : Option Nat) (executionCount : Option Nat)
  | output (ticket : Option Nat) (output : Output)
  /-- Summary of the namespace after an execution. -/
  | namespaceSummary (ticket : Option Nat) (summary : Text)
  | error (message : Text) (ticket : Option Nat)
  | interrupted
  /-- The kernel starts afresh; no execution is left. -/
  | restarted
  | shutdown
  | unknown
  deriving DecidableEq, Repr

namespace Event

open Json.Tree

def ticket? : Option Json.Tree → Option (Option Nat) := optional? (natural? 64)

/-- Names of the fields of an event, in order; none for events that have no fields. -/
def fieldNames (name : Text) : List Text :=
  if name = "status" then ["state", "cell_idx"]
  else if name = "execute_request" then ["cell_idx", "msg_id"]
  else if name = "execute_input" then ["cell_idx", "execution_count"]
  else if name = "output" then ["cell_idx", "output"]
  else if name = "namespace" then ["cell_idx", "namespace_repr"]
  else if name = "error" then ["error", "cell_idx"]
  else []

/-- The event of a name with the given fields. -/
def ofFields? (name : Text) (fields : List (Option Json.Tree)) : Option Event :=
  match fields with
  | [a, b] =>
    if name = "status" then do some (.status (← required? text? a) (← ticket? b))
    else if name = "execute_request" then do
      some (.executeRequest (← ticket? a) (← optional? text? b))
    else if name = "execute_input" then do
      some (.executeInput (← ticket? a) (← optional? (natural? 64) b))
    else if name = "output" then do
      some (.output (← ticket? a) (← required? Output.decode? b))
    else if name = "namespace" then do
      some (.namespaceSummary (← ticket? a) (← required? text? b))
    else if name = "error" then do some (.error (← required? text? a) (← ticket? b))
    else none
  | _ =>
    if name = "ready" then some .ready
    else if name = "kernel_started" then some .kernelStarted
    else if name = "interrupted" then some .interrupted
    else if name = "restarted" then some .restarted
    else if name = "shutdown" then some .shutdown
    else some .unknown

def decode? : Json.Tree → Option Event
  | .obj members => do
    let name ← required? text? (← member? members "type")
    ofFields? name (← (fieldNames name).mapM (member? members))
  | .arr (.str (some name) :: items) =>
    let names := fieldNames name
    if items.length ≤ names.length then
      ofFields? name (items.map some ++ List.replicate (names.length - items.length) none)
    else none
  | _ => none

/-- The event that a line reports. Blanks around it do not matter. -/
def ofLine (line : Text) : Option Event :=
  (Json.readTree (Text.trim line)).bind (strictly? decode?)

def ticket : Event → Option Nat
  | status _ ticket => ticket
  | executeRequest ticket _ => ticket
  | executeInput ticket _ => ticket
  | output ticket _ => ticket
  | namespaceSummary ticket _ => ticket
  | error _ ticket => ticket
  | _ => none

end Event

end Notebook

import Notebook.Fault
import Notebook.Json.Write
/-!
# Commands to the kernel

A command is one line of JSON. It carries a ticket that every event about the execution brings
back, so events find their cell even after cells were moved.
-/
namespace Notebook

/-- A request to execute a piece of code. -/
structure Command where
  code : Text
  /-- Number that events about the execution carry. -/
  ticket : Nat
  /-- Expression to evaluate afterwards, whose value summarizes the namespace. -/
  namespaceExpression : Option Text := none
  deriving DecidableEq, Repr

namespace Command

/-- Name under which the namespace expression is sent. -/
def namespaceKey : Text := "__ns__"

/-- Ask for the value of an expression after the execution. A later request replaces an earlier
one. -/
def capturing (command : Command) (expression : Text) : Command :=
  { command with namespaceExpression := some expression }

def encode (command : Command) : Json :=
  .obj ([("action".toList, .str "execute"), ("code".toList, .str command.code),
      ("cell_idx".toList, .nat command.ticket)] ++
    (match command.namespaceExpression with
      | none => []
      | some expression =>
        [("user_expressions".toList, .obj [(namespaceKey, .str expression)])]))

/-- The command as a line, without its line feed. -/
def line (command : Command) : Text := command.encode.compact

end Command

end Notebook

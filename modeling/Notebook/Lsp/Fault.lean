import Notebook.Fault
/-!
# Faults of the relay

Why the relay refused to pass something on or to carry it out. A refusal at a cell boundary is
meant to be shown to the user as it is.
-/
namespace Notebook.Lsp

/-- How an edit or a request fails to respect the cells. -/
inductive Boundary where
  /-- A rename would change something other than code. -/
  | renameOutsideCode
  /-- Formatting would reach beyond one code cell. -/
  | formatSpansCells
  /-- Formatting was asked for something other than code. -/
  | formatNotCode
  deriving DecidableEq, Repr

inductive RelayFault where
  | crossBoundary (boundary : Boundary)
  /-- The surface that a request came from is not live. -/
  | surfaceNotLive
  /-- The language server does not know the notebook. -/
  | notRegistered
  /-- A message does not have the form that its method requires. -/
  | malformed (method : Text)
  | notebook (fault : Fault)
  deriving DecidableEq, Repr

/-- The sentence for a violated boundary. -/
def Boundary.message : Boundary → Text
  | renameOutsideCode =>
    "Rename was not applied: the server proposed edits outside of code cells."
  | formatSpansCells =>
    "Range formatting must stay inside a single code cell. " ++
      "Select lines of one code cell and try again."
  | formatNotCode => "Formatting is only available in code cells."

def RelayFault.message : RelayFault → Text
  | crossBoundary boundary => boundary.message
  | surfaceNotLive => "surface is not live"
  | notRegistered => "notebook is not open on the language server"
  | malformed method => "malformed " ++ method ++ " message"
  | notebook fault => fault.message

end Notebook.Lsp

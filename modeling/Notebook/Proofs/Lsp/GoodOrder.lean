import Notebook.Proofs.Lsp.Addresses
/-!
# Notebooks in good order

As long as the buffer of an editor is changed from outside by its own operations only, every open
notebook was reached in good order. The relay itself brings in what an editor holds and makes edits of
the facade or of a cell, and it never exchanges a buffer.
-/
namespace Notebook

namespace Workspace

/-- Every open notebook was reached in good order. -/
def Orderly (workspace : Workspace) : Prop :=
  ∀ id session, workspace.session? id = some session → ∃ settings, session.Orderly settings

variable {workspace : Workspace}

theorem Orderly.setSession (orderly : workspace.Orderly) {id : NotebookId} {former session : Session}
    (opened : workspace.session? id = some former) (steered : former.Steered session) :
    (workspace.setSession id session).Orderly := by
  intro other later there
  rcases session?_cases_of_setSession opened there with ⟨rfl, rfl⟩ | ⟨-, there⟩
  · obtain ⟨settings, before⟩ := orderly id former opened
    exact ⟨settings, before.steered steered⟩
  · exact orderly other later there

theorem Orderly.ledOn {after : Workspace} (orderly : workspace.Orderly) (led : LedOn workspace after) :
    after.Orderly := by
  induction led with
  | still => exact orderly
  | next _ opened steered ih => exact ih.setSession opened steered

theorem Orderly.operation (orderly : workspace.Orderly) {id : NotebookId} {session : Session}
    (opened : workspace.session? id = some session) (operation : Operation)
    (fair : operation.IsOrderly) : (workspace.setSession id (operation.perform session).2).Orderly :=
  orderly.setSession opened (.one session operation fair)

theorem Orderly.openEditor (orderly : workspace.Orderly) (id : NotebookId) (index : Nat) :
    (workspace.openEditor id index).2.Orderly := by
  intro other session opened
  rw [session?_openEditor] at opened
  split at opened
  next =>
    obtain ⟨former, known, rfl⟩ := Option.map_eq_some_iff.mp opened
    obtain ⟨settings, before⟩ := orderly other former known
    exact ⟨settings, before.step (.openEditor index) trivial⟩
  next => exact orderly other session opened

theorem Orderly.closeEditor (orderly : workspace.Orderly) (id : NotebookId) :
    (workspace.closeEditor id).2.Orderly := by
  intro other session opened
  rw [session?_closeEditor] at opened
  split at opened
  next =>
    obtain ⟨former, known, rfl⟩ := Option.map_eq_some_iff.mp opened
    obtain ⟨settings, before⟩ := orderly other former known
    exact ⟨settings, before.step .closeEditor trivial⟩
  next => exact orderly other session opened

theorem Orderly.insert (orderly : workspace.Orderly) (path : Text) {session : Session}
    {settings : Settings} (reached : session.Orderly settings) :
    (workspace.insert path session).2.Orderly := by
  intro other later opened
  rw [session?, entry?_insert] at opened
  split at opened
  next =>
    obtain rfl := Option.some.inj opened
    exact ⟨settings, reached⟩
  next => exact orderly other later opened

theorem Orderly.openText (orderly : workspace.Orderly) (path text : Text) (settings : Settings) :
    (workspace.openText path text settings).2.Orderly := by
  unfold Workspace.openText
  split
  · exact orderly
  · split
    · exact orderly
    next session opened => exact orderly.insert path (.text opened)

theorem Orderly.close (orderly : workspace.Orderly) (id : NotebookId) :
    (workspace.close id).2.Orderly := by
  unfold Workspace.close
  split
  next => exact orderly
  next =>
    intro other session opened
    simp only [session?, entry?, Table.get?_erase] at opened
    split at opened
    · cases opened
    · exact orderly other session opened

end Workspace

namespace Lsp

open Workspace

/-- The buffer of an editor is changed by its own operations, and a notebook that is taken in was
reached in good order. -/
def Dealing.IsOrderly : Dealing → Prop
  | operate _ operation => operation.IsOrderly
  | insert _ session => ∃ settings, session.Orderly settings
  | _ => True

/-- What happens in good order keeps the notebooks in good order. -/
theorem Desk.orderly_perform {desk : Desk} (orderly : desk.workspace.Orderly) {dealing : Dealing}
    (fair : dealing.IsOrderly) : (desk.perform dealing).workspace.Orderly := by
  cases dealing with
  | operate notebook operation =>
    simp only [perform]
    split
    next => exact orderly
    next opened => exact orderly.operation opened operation fair
  | openEditor notebook index => exact orderly.openEditor notebook index
  | closeEditor notebook => exact orderly.closeEditor notebook
  | insert path session =>
    obtain ⟨settings, reached⟩ := fair
    exact orderly.insert path reached
  | openText path text settings => exact orderly.openText path text settings
  | close notebook => exact orderly.close notebook
  | didOpen | didClose | flush | request | requestFlushed | answer | notice | drainDiagnostics
  | refreshDiagnostics => exact orderly.ledOn (desk.ledOn_perform trivial)

end Lsp

end Notebook

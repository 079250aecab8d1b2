import Notebook.Proofs.Table
import Notebook.Workspace
/-!
# Notebooks beside each other

What is done to one notebook of a workspace leaves the others alone.
-/
namespace Notebook.Workspace

theorem session?_setSession (workspace : Workspace) (id other : NotebookId) (session : Session) :
    (workspace.setSession other session).session? id =
      if other = id then (workspace.session? id).map (fun _ => session) else workspace.session? id := by
  simp only [session?, entry?, setSession, Table.get?_modify]
  split
  · cases Table.get? workspace.notebooks id <;> rfl
  · rfl

/-- A notebook that is open after one was led on is that one, or it was open as it is. -/
theorem session?_cases_of_setSession {workspace : Workspace} {id other : NotebookId}
    {former session later : Session} (opened : workspace.session? id = some former)
    (there : (workspace.setSession id session).session? other = some later) :
    id = other ∧ later = session ∨ id ≠ other ∧ workspace.session? other = some later := by
  rw [session?_setSession] at there
  split at there
  next same =>
    subst same
    rw [opened] at there
    exact .inl ⟨rfl, (Option.some.inj there).symm⟩
  next different => exact .inr ⟨different, there⟩

theorem session?_openEditor (workspace : Workspace) (id other : NotebookId) (index : Nat) :
    (workspace.openEditor other index).2.session? id =
      if other = id then (workspace.session? id).map fun session => (session.openEditor index).2
      else workspace.session? id := by
  unfold openEditor
  cases found : workspace.entry? other with
  | none =>
    -- The number is used up either way, and the notebooks are those before.
    have missing : entry? { workspace with next := workspace.next + 1 } other = none := found
    simp only [missing]
    split
    next same =>
      subst same
      simp [session?, found, missing]
    next => rfl
  | some entry =>
    have here : entry? { workspace with next := workspace.next + 1 } other = some entry :=
      found
    simp only [here]
    split
    next fault session refused =>
      rw [session?_setSession]
      split
      next same =>
        subst same
        simp [session?, found, here, refused]
      next => rfl
    next generation session opened =>
      simp only [session?, entry?, Table.get?_set]
      split
      next same =>
        subst same
        rw [Workspace.entry?] at found
        simp [found, opened]
      next => rfl

theorem session?_closeEditor (workspace : Workspace) (id other : NotebookId) :
    (workspace.closeEditor other).2.session? id =
      if other = id then (workspace.session? id).map Session.closeEditor
      else workspace.session? id := by
  unfold closeEditor
  cases found : workspace.entry? other with
  | none =>
    dsimp only
    split
    next same =>
      subst same
      simp [session?, found]
    next => rfl
  | some entry =>
    simp only [session?, entry?, Table.get?_set]
    split
    next same =>
      subst same
      rw [Workspace.entry?] at found
      simp [found]
    next => rfl

end Notebook.Workspace

import Notebook.Proofs.Session.Frame
import Notebook.Proofs.Workspace
/-!
# What can be done to a workspace

Notebooks are opened, taken in and closed, their editors are opened and closed, and operations are
performed on them past their handles. Whatever is asked for, it is one of six things that happens to the
tables of a workspace, and all that is known of handles is read off these.
-/
namespace Notebook.Workspace

/-- What is done to a workspace, named like the functions that do it. -/
inductive Act where
  | openText (path text : Text) (settings : Settings)
  | insert (path : Text) (session : Session)
  | close (notebook : NotebookId)
  | openEditor (notebook : NotebookId) (index : Nat)
  | closeEditor (notebook : NotebookId)
  /-- An operation on an open notebook, past its handles. -/
  | operate (notebook : NotebookId) (operation : Operation)

/-- A handle of a surface, and what it was given out for. -/
structure Grant where
  surface : SurfaceId
  notebook : NotebookId
  kind : SurfaceKind
  deriving DecidableEq

def grantsOf (handles : Handles) : List Grant :=
  [⟨handles.facade, handles.notebook, .facade⟩, ⟨handles.shadow, handles.notebook, .shadow⟩]

namespace Act

/-- A notebook that is taken in was opened and led on by operations. -/
def Admitted : Act → Prop
  | insert _ session => ∃ settings, session.Reachable settings
  | _ => True

def perform (workspace : Workspace) : Act → Workspace
  | openText path text settings => (workspace.openText path text settings).2
  | insert path session => (workspace.insert path session).2
  | close notebook => (workspace.close notebook).2
  | openEditor notebook index => (workspace.openEditor notebook index).2
  | closeEditor notebook => (workspace.closeEditor notebook).2
  | operate notebook operation => match workspace.session? notebook with
    | none => workspace
    | some session => workspace.setSession notebook (operation.perform session).2

/-- The handles of surfaces that are given out. -/
def given (workspace : Workspace) : Act → List Grant
  | openText path text settings => match workspace.find? path with
    -- A path that is open is answered with the handles that it has.
    | some _ => []
    | none => match (workspace.openText path text settings).1 with
      | .ok handles => grantsOf handles
      | .error _ => []
  | insert path session => grantsOf (workspace.insert path session).1
  | openEditor notebook index => match (workspace.openEditor notebook index).1 with
    | .ok surface => [⟨surface, notebook, .editor⟩]
    | .error _ => []
  | close _ | closeEditor _ | operate _ _ => []

/-- The editor of a notebook is opened, or it is tried. -/
def opensEditor (id : NotebookId) : Act → Bool
  | openEditor notebook _ => notebook = id
  | operate notebook operation => notebook = id && operation.opensEditor
  | _ => false

end Act

variable {workspace : Workspace} {act : Act}

theorem session?_eq_some {id : NotebookId} {entry : OpenNotebook}
    (known : workspace.entry? id = some entry) : workspace.session? id = some entry.session :=
  congrArg (Option.map _) known

theorem session?_eq_none {id : NotebookId} (missing : workspace.entry? id = none) :
    workspace.session? id = none :=
  congrArg (Option.map _) missing

theorem entry?_of_session? {id : NotebookId} {session : Session}
    (opened : workspace.session? id = some session) :
    ∃ entry, workspace.entry? id = some entry ∧ entry.session = session :=
  Option.map_eq_some_iff.mp opened

/-- The table of surfaces after the handle of an editor was given up. -/
theorem get?_struck (surfaces : Table SurfaceId Surface) (editor : Option SurfaceId)
    (surface : SurfaceId) :
    Table.get? (match editor with
      | some previous => Table.erase surfaces previous
      | none => surfaces) surface =
        if editor = some surface then none else Table.get? surfaces surface := by
  cases editor with
  | none => simp
  | some previous => simp [Table.get?_erase]

theorem get?_insert (workspace : Workspace) (path : Text) (session : Session)
    (surface : SurfaceId) :
    Table.get? (workspace.insert path session).2.surfaces surface =
      if ⟨workspace.next + 2⟩ = surface then some ⟨⟨workspace.next⟩, .shadow, 0⟩
      else if ⟨workspace.next + 1⟩ = surface then some ⟨⟨workspace.next⟩, .facade, 0⟩
      else Table.get? workspace.surfaces surface := by
  simp only [insert, Table.get?_set]

theorem entry?_insert (workspace : Workspace) (path : Text) (session : Session)
    (id : NotebookId) : entry? (workspace.insert path session).2 id =
      if ⟨workspace.next⟩ = id then
        some ⟨path, session, ⟨workspace.next + 1⟩, ⟨workspace.next + 2⟩, none⟩
      else workspace.entry? id := by
  simp only [insert, entry?, Table.get?_set]

/-- All that an act can do, and the handles that it gives out. -/
inductive Effect (workspace : Workspace) : Act → List Grant → Workspace → Prop
  /-- There is nothing to act on. A number may be used up. -/
  | idle {act : Act} (next : Nat) : workspace.next ≤ next →
      (∀ id, act.opensEditor id = true → workspace.session? id = none) →
      Effect workspace act [] { workspace with next }
  /-- A notebook is taken in. -/
  | inserted {act : Act} {settings : Settings} (path : Text) (session : Session) :
      session.Reachable settings → (∀ id, act.opensEditor id = false) →
      Effect workspace act (grantsOf (workspace.insert path session).1)
        (workspace.insert path session).2
  | closed {id : NotebookId} {entry : OpenNotebook} : workspace.entry? id = some entry →
      Effect workspace (.close id) [] { workspace with
        notebooks := Table.erase workspace.notebooks id
        surfaces := workspace.surfaces.filter fun surface => surface.2.notebook ≠ id
        byPath := Table.erase workspace.byPath entry.path }
  /-- A notebook is led on by an operation, past its handles. A number may be used up. -/
  | operated {act : Act} {id : NotebookId} {session : Session} (next : Nat) (operation : Operation) :
      workspace.next ≤ next → workspace.session? id = some session →
      (∀ other, act.opensEditor other = (decide (id = other) && operation.opensEditor)) →
      Effect workspace act []
        ({ workspace with next }.setSession id (operation.perform session).2)
  /-- The editor of a notebook gets a handle, and the one before is given up. -/
  | edited {id : NotebookId} {index generation : Nat} {entry : OpenNotebook} {session : Session} :
      workspace.entry? id = some entry →
      entry.session.openEditor index = (.ok generation, session) →
      Effect workspace (.openEditor id index) [⟨⟨workspace.next⟩, id, .editor⟩] { workspace with
        next := workspace.next + 1
        notebooks := Table.set workspace.notebooks id
          { entry with session, editor := some ⟨workspace.next⟩ }
        surfaces := Table.set (match entry.editor with
          | some previous => Table.erase workspace.surfaces previous
          | none => workspace.surfaces) ⟨workspace.next⟩ ⟨id, .editor, generation⟩ }
  /-- The editor of a notebook is closed, and its handle is given up. -/
  | left {id : NotebookId} {entry : OpenNotebook} : workspace.entry? id = some entry →
      Effect workspace (.closeEditor id) [] { workspace with
        notebooks := Table.set workspace.notebooks id
          { entry with session := entry.session.closeEditor, editor := none }
        surfaces := match entry.editor with
          | some previous => Table.erase workspace.surfaces previous
          | none => workspace.surfaces }

theorem effect_perform (workspace : Workspace) (admitted : act.Admitted) :
    Effect workspace act (act.given workspace) (act.perform workspace) := by
  -- Acts that find nothing to act on.
  have still {act : Act} (closed : ∀ id, act.opensEditor id = true → workspace.session? id = none) :
      Effect workspace act [] workspace := .idle workspace.next (Nat.le_refl _) closed
  have calm {act : Act} (apart : ∀ id, act.opensEditor id = false) :
      Effect workspace act [] workspace :=
    still fun id opens => absurd opens (Bool.eq_false_iff.mp (apart id))
  cases act with
  | openText path text settings =>
    simp only [Act.perform, Act.given, openText]
    cases workspace.find? path with
    | some id => exact calm fun _ => rfl
    | none =>
      cases loaded : Session.ofText text settings with
      | error fault => exact calm fun _ => rfl
      | ok session => exact .inserted path session (.text loaded) fun _ => rfl
  | insert path session =>
    obtain ⟨settings, reachable⟩ := admitted
    exact .inserted path session reachable fun _ => rfl
  | close id =>
    cases known : workspace.entry? id with
    | none =>
      simp only [Act.perform, Act.given, close, known]
      exact calm fun _ => rfl
    | some entry =>
      simp only [Act.perform, Act.given, close, known]
      exact .closed known
  | openEditor id index =>
    have only (other : NotebookId) (opens : (Act.openEditor id index).opensEditor other = true) :
        id = other := of_decide_eq_true opens
    cases known : workspace.entry? id with
    | none =>
      have known' : entry? { workspace with next := workspace.next + 1 } id = none := known
      simp only [Act.perform, Act.given, openEditor, known']
      refine .idle (workspace.next + 1) (Nat.le_succ _) fun other opens => ?_
      exact only other opens ▸ session?_eq_none known
    | some entry =>
      have known' : entry? { workspace with next := workspace.next + 1 } id = some entry := known
      cases opened : entry.session.openEditor index with
      | mk outcome session =>
        cases outcome with
        | error fault =>
          have refused : ((Operation.openEditor index).perform entry.session).2 = session :=
            congrArg Prod.snd opened
          simp only [Act.perform, Act.given, openEditor, known', opened, ← refused]
          exact .operated (workspace.next + 1) (.openEditor index) (Nat.le_succ _)
            (session?_eq_some known) fun _ => (Bool.and_true _).symm
        | ok generation =>
          simp only [Act.perform, Act.given, openEditor, known', opened]
          exact .edited known opened
  | closeEditor id =>
    cases known : workspace.entry? id with
    | none =>
      simp only [Act.perform, Act.given, closeEditor, known]
      exact calm fun _ => rfl
    | some entry =>
      simp only [Act.perform, Act.given, closeEditor, known]
      exact .left known
  | operate id operation =>
    simp only [Act.perform, Act.given]
    cases opened : workspace.session? id with
    | none =>
      refine still fun other opens => ?_
      simp only [Act.opensEditor, Bool.and_eq_true, decide_eq_true_eq] at opens
      exact opens.1 ▸ opened
    | some session =>
      exact .operated workspace.next operation (Nat.le_refl _) opened fun _ => rfl

end Notebook.Workspace

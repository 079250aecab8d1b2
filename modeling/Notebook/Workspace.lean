import Notebook.Session.Change
/-!
# The open notebooks

A workspace owns the open notebooks and gives out handles: one for each notebook, and one for each
of its surfaces. All handles are numbered by one counter, so no handle is ever given out twice. A
handle of a closed notebook or of an earlier editor session is dead and names nothing.
-/
namespace Notebook

structure NotebookId where
  number : Nat
  deriving DecidableEq, Repr

structure SurfaceId where
  number : Nat
  deriving DecidableEq, Repr

inductive SurfaceKind where
  | facade
  | shadow
  | editor
  deriving DecidableEq, Repr

/-- What a handle of a surface was given out for. -/
structure Surface where
  notebook : NotebookId
  kind : SurfaceKind
  /-- Number of the editor session; zero for the other kinds. -/
  generation : Nat := 0
  deriving DecidableEq, Repr

/-- A notebook with its path and its handles. -/
structure OpenNotebook where
  path : Text
  session : Session
  facade : SurfaceId
  shadow : SurfaceId
  /-- The last handle that was given out for an editor, unless that was closed. -/
  editor : Option SurfaceId := none
  deriving DecidableEq, Repr

/-- The handles of a notebook that live as long as it. -/
structure Handles where
  notebook : NotebookId
  facade : SurfaceId
  shadow : SurfaceId
  deriving DecidableEq, Repr

structure Workspace where
  next : Nat := 0
  /-- The open notebooks in the order of their handles. -/
  notebooks : Table NotebookId OpenNotebook := []
  /-- What handles of surfaces were given out for. -/
  surfaces : Table SurfaceId Surface := []
  byPath : Table Text NotebookId := []
  deriving DecidableEq, Repr

namespace Workspace

/-! ## Looking up -/

/-- An open notebook with its path and handles. -/
def entry? (workspace : Workspace) (id : NotebookId) : Option OpenNotebook :=
  Table.get? workspace.notebooks id

def session? (workspace : Workspace) (id : NotebookId) : Option Session :=
  (workspace.entry? id).map (·.session)

/-- Handles of the open notebooks, oldest first. -/
def ids (workspace : Workspace) : List NotebookId := workspace.notebooks.map (·.1)

/-- The notebook that was opened from a path. -/
def find? (workspace : Workspace) (path : Text) : Option NotebookId :=
  Table.get? workspace.byPath path

/-- The path that a notebook was opened from. -/
def path? (workspace : Workspace) (id : NotebookId) : Option Text :=
  (workspace.entry? id).map (·.path)

def handles (workspace : Workspace) (id : NotebookId) : Except Fault Handles :=
  match workspace.entry? id with
  | none => .error .notebookNotFound
  | some entry => .ok ⟨id, entry.facade, entry.shadow⟩

/-- What a handle names, if it is live. -/
def resolve? (workspace : Workspace) (surface : SurfaceId) : Option Surface := do
  let found ← Table.get? workspace.surfaces surface
  let session ← workspace.session? found.notebook
  if found.kind = .editor ∧ session.editor.map (·.generation) ≠ some found.generation then none
  else some found

/-- The live handle of the editor of a notebook. -/
def editorSurface? (workspace : Workspace) (id : NotebookId) : Option SurfaceId := do
  let surface ← (← workspace.entry? id).editor
  (workspace.resolve? surface).map fun _ => surface

/-! ## Opening and closing -/

/-- Put a notebook in the place of the one with the same handle. -/
def setSession (workspace : Workspace) (id : NotebookId) (session : Session) : Workspace :=
  { workspace with
    notebooks := Table.modify workspace.notebooks id fun entry => { entry with session } }

def insert (workspace : Workspace) (path : Text) (session : Session) : Handles × Workspace :=
  let notebook : NotebookId := ⟨workspace.next⟩
  let facade : SurfaceId := ⟨workspace.next + 1⟩
  let shadow : SurfaceId := ⟨workspace.next + 2⟩
  let surfaces := Table.set (Table.set workspace.surfaces facade ⟨notebook, .facade, 0⟩)
    shadow ⟨notebook, .shadow, 0⟩
  (⟨notebook, facade, shadow⟩, {
    next := workspace.next + 3
    notebooks := Table.set workspace.notebooks notebook { path, session, facade, shadow }
    surfaces
    byPath := Table.set workspace.byPath path notebook })

/-- Open the stored notebook at a path, unless it is open already. -/
def openText (workspace : Workspace) (path text : Text) (settings : Settings) :
    Except Fault Handles × Workspace :=
  match workspace.find? path with
  | some id => (workspace.handles id, workspace)
  | none => match Session.ofText text settings with
    | .error fault => (.error fault, workspace)
    | .ok session =>
      let (handles, workspace) := workspace.insert path session
      (.ok handles, workspace)

def close (workspace : Workspace) (id : NotebookId) : Except Fault Session × Workspace :=
  match workspace.entry? id with
  | none => (.error .notebookNotFound, workspace)
  | some entry => (.ok entry.session, { workspace with
      notebooks := Table.erase workspace.notebooks id
      surfaces := workspace.surfaces.filter fun surface => surface.2.notebook ≠ id
      byPath := Table.erase workspace.byPath entry.path })

/-! ## Editors -/

/-- Open the editor of a notebook on a cell. The handle of the session before dies. A number is
used up even if the editor cannot be opened. -/
def openEditor (workspace : Workspace) (id : NotebookId) (index : Nat) :
    Except Fault SurfaceId × Workspace :=
  let surface : SurfaceId := ⟨workspace.next⟩
  let workspace := { workspace with next := workspace.next + 1 }
  match workspace.entry? id with
  | none => (.error .notebookNotFound, workspace)
  | some entry => match entry.session.openEditor index with
    | (.error fault, session) => (.error fault, workspace.setSession id session)
    | (.ok generation, session) =>
      let surfaces := match entry.editor with
        | some previous => Table.erase workspace.surfaces previous
        | none => workspace.surfaces
      (.ok surface, { workspace with
        notebooks := Table.set workspace.notebooks id
          { entry with session, editor := some surface }
        surfaces := Table.set surfaces surface ⟨id, .editor, generation⟩ })

def closeEditor (workspace : Workspace) (id : NotebookId) : Except Fault Unit × Workspace :=
  match workspace.entry? id with
  | none => (.error .notebookNotFound, workspace)
  | some entry => (.ok (), { workspace with
      notebooks := Table.set workspace.notebooks id
        { entry with session := entry.session.closeEditor, editor := none }
      surfaces := match entry.editor with
        | some surface => Table.erase workspace.surfaces surface
        | none => workspace.surfaces })

end Workspace

end Notebook

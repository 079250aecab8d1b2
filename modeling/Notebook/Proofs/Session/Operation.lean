import Notebook.Session.Change
import Notebook.Session.Execution
/-!
# Runs of operations

What a caller can do to a session, one operation after the other, from opening a notebook on. Every
operation leaves a session behind, whether it succeeds or is refused.
-/
namespace Notebook

/-- What a caller can do to a session, named like the functions that do it. -/
inductive Operation where
  | insertCell (index : Nat) (kind : Kind) (source : Text)
  | deleteCell (index : Nat)
  | moveCell (source target : Nat)
  | setKind (index : Nat) (kind : Kind)
  | setSource (index : Nat) (source : Text)
  | editCell (id : Text) (expected : Span) (edits : List Edit)
  | editFacade (edits : List Edit) (grouping : Grouping)
  | openEditor (index : Nat)
  | closeEditor
  | commitEditor
  | syncEditor
  /-- The buffer of the editor may be changed in any way. -/
  | editBuffer (change : Buffer → Buffer)
  | undo
  | redo
  | syncFromFacade
  | repair
  | queue (index : Nat)
  | applyEvent (event : Event)
  | trackShadow (on : Bool)
  | takeShadowSplices

namespace Operation

/-- Whether an outcome is a result or a fault, and the session afterwards. -/
def settle {α : Type} (outcome : Outcome α) : Outcome Unit :=
  (outcome.1.map fun _ => (), outcome.2)

theorem settle_eq_ok {α : Type} {outcome : Outcome α} {after : Session}
    (done : settle outcome = (.ok (), after)) :
    (∃ result, outcome.1 = .ok result) ∧ outcome.2 = after := by
  obtain ⟨result, same⟩ := Prod.mk.inj done
  refine ⟨?_, same⟩
  cases known : outcome.1 with
  | error fault => simp [known, Except.map] at result
  | ok value => exact ⟨value, rfl⟩

theorem settle_eq_error {α : Type} {outcome : Outcome α} {fault : Fault} {after : Session}
    (refused : settle outcome = (.error fault, after)) : outcome = (.error fault, after) := by
  obtain ⟨result, same⟩ := Prod.mk.inj refused
  refine Prod.ext ?_ same
  cases known : outcome.1 with
  | error found => simpa [known, Except.map] using result
  | ok value => simp [known, Except.map] at result

def perform (session : Session) : Operation → Outcome Unit
  | insertCell index kind source => settle (session.insertCell index kind source)
  | deleteCell index => settle (session.deleteCell index)
  | moveCell source target => settle (session.moveCell source target)
  | setKind index kind => settle (session.setKind index kind)
  | setSource index source => settle (session.setSource index source)
  | editCell id expected edits => settle (session.editCell id expected edits)
  | editFacade edits grouping => settle (session.editFacade edits grouping)
  | openEditor index => settle (session.openEditor index)
  | closeEditor => (.ok (), session.closeEditor)
  | commitEditor => settle session.commitEditor
  | syncEditor => settle session.syncEditor
  | editBuffer change => (.ok (), session.editBuffer change)
  | undo => settle session.undo
  | redo => settle session.redo
  | syncFromFacade => settle session.syncFromFacade
  | repair => (.ok (), session.repair)
  | queue index => settle (session.queue index)
  | applyEvent event => (.ok (), (session.applyEvent event).2)
  | trackShadow on => (.ok (), session.trackShadow on)
  | takeShadowSplices => (.ok (), session.takeShadowSplices.2)

/-- The operation concerns the record of changes of the shadow and nothing else. -/
def concernsRecord : Operation → Bool
  | trackShadow _ | takeShadowSplices => true
  | _ => false

/-- The operation starts an execution or reports on one. -/
def concernsExecution : Operation → Bool
  | queue _ | applyEvent _ => true
  | _ => false

end Operation

/-- A notebook is opened when every source of a cell can be rendered, and everything in it is made of
the cells: the facade is their rendering, anchored, and the shadow shows them. -/
theorem Session.build_eq_ok {file : File} {cells : List Cell} {settings : Settings}
    {session : Session} (built : Session.build file cells settings = .ok session) :
    checkSources settings.tag cells = .ok () ∧ session =
      { settings
        file := { file with cells := [] }
        cells := CellList.ofCells cells
        facade := Layout.place (CellList.ofCells cells).cells
          ((Buffer.ofText (Markup.render settings.tag (CellList.ofCells cells).blocks)).withHistory
            settings.maxUndo)
        shadow := Shadow.ofCells (CellList.ofCells cells).cells } := by
  unfold Session.build at built
  split at built
  next => cases built
  next checked =>
    cases built
    exact ⟨checked, rfl⟩

/-- A notebook that is opened from a text is made of what the text holds. -/
theorem Session.build_of_ofText {text : Text} {settings : Settings} {session : Session}
    (opened : Session.ofText text settings = .ok session) :
    ∃ file cells, Session.build file cells settings = .ok session := by
  unfold Session.ofText at opened
  split at opened
  next => cases opened
  next file _ =>
    split at opened
    next => cases opened
    next cells _ => exact ⟨file, cells, opened⟩

/-- A session is reachable under settings if operations lead to it from a notebook that was opened
with them. -/
inductive Session.Reachable (settings : Settings) : Session → Prop
  | cells {cells : List Cell} {session : Session} :
      Session.ofCells cells settings = .ok session → Reachable settings session
  | text {text : Text} {session : Session} :
      Session.ofText text settings = .ok session → Reachable settings session
  | step {session : Session} : Reachable settings session → (operation : Operation) →
      Reachable settings (operation.perform session).2

/-- Wherever the cells came from, what holds of a notebook that was built and is kept by every
operation holds of every session that is reached. -/
@[elab_as_elim]
theorem Session.Reachable.from_build {settings : Settings}
    {motive : (session : Session) → Reachable settings session → Prop}
    (built : ∀ {file : File} {cells : List Cell} {session : Session}
      (reachable : Reachable settings session),
      Session.build file cells settings = .ok session → motive session reachable)
    (step : ∀ {session : Session} (before : Reachable settings session) (operation : Operation),
      motive session before → motive (operation.perform session).2 (before.step operation))
    {session : Session} (reachable : Reachable settings session) : motive session reachable := by
  induction reachable with
  | cells opened => exact built (.cells opened) opened
  | text opened =>
    obtain ⟨file, cells, made⟩ := build_of_ofText opened
    exact built (.text opened) made
  | step before operation ih => exact step before operation ih

end Notebook

import Notebook.Proofs.Buffer.Drift
import Notebook.Proofs.Session.Tenure
/-!
# What operations leave as it was

No phase of an operation touches the document around the cells, and only opening the editor gives it a
number. Each phase keeps the anchors of the facade or places them anew. So the facade anchors the cells,
each once and in their order, and nothing else.
-/
namespace Notebook

def Operation.opensEditor : Operation → Bool
  | .openEditor _ => true
  | _ => false

namespace Session

open Layout CellList

variable {session before after : Session} {operation : Operation}

/-! ## The editor and the document -/

theorem Phase.generation (phase : Phase operation before after) (apart : operation.opensEditor = false) :
    after.generation = before.generation := by
  cases phase with
  | @refreshed _ _ cells facade grouping =>
    obtain ⟨editor, refreshed⟩ := refreshViews_eq { before with facade, cells } grouping
    rw [refreshed]
  | reported => exact before.generation_applyEvent _
  | opened => cases apart
  | _ => rfl

theorem generation_perform (session : Session) {operation : Operation}
    (apart : operation.opensEditor = false) :
    (operation.perform session).2.generation = session.generation :=
  (session.phases_perform operation).keep (fun phase same => (phase.generation apart).trans same) rfl

/-- No operation changes what the document says besides its cells. -/
theorem file_perform (session : Session) (operation : Operation) :
    (operation.perform session).2.file = session.file :=
  (session.phases_perform operation).frame.2

/-! ## The anchors -/

/-- Only cells are anchored, and in their order. -/
def Tidy (session : Session) : Prop :=
  session.facade.anchored.Sublist (ids session.cells.cells)

/-- Anchors may be lost as long as each cell has its identity from before. -/
theorem Tidy.of_sublist (tidy : before.Tidy) (same : ids after.cells.cells = ids before.cells.cells)
    (fewer : after.facade.anchored.Sublist before.facade.anchored) : after.Tidy := by
  rw [Tidy, same]
  exact fewer.trans tidy

theorem Travels.anchored {move : Buffer → Bool × Buffer} (travels : Travels operation move)
    (buffer : Buffer) : (move buffer).2.anchored.Sublist buffer.anchored := by
  cases travels with
  | undo => exact buffer.carried_undo.anchored
  | redo => exact buffer.carried_redo.anchored

theorem Tidy.withSource (tidy : session.Tidy) (index : Nat) (span : Span) (source : Text)
    (grouping : Grouping) : (session.withSource index span source grouping).Tidy := by
  have same := session.ids_withSource index span source grouping
  have fewer := (session.facade.carried_replaceLines span.contentStart span.contentStop
    (Text.lines source) grouping).anchored
  -- Only if the number of lines changed, the anchors are placed anew.
  by_cases count : (Text.lines source).length = span.contentLength
  · refine tidy.of_sublist same ?_
    simpa [Session.withSource, count] using fewer
  · simpa [Tidy, Session.withSource, count] using anchored_place _ _

/-- Every phase keeps the anchors in order or places them anew. -/
theorem Phase.tidy (phase : Phase operation before after) (tidy : before.Tidy) : after.Tidy := by
  cases phase with
  | @refreshed _ _ cells facade grouping =>
    obtain ⟨editor, refreshed⟩ := refreshViews_eq { before with facade, cells } grouping
    rw [refreshed]
    exact anchored_place cells.cells _
  | written => exact tidy.withSource _ _ _ _
  | noted | attended | opened | ended | tracked | drained => exact tidy
  | idle travels => exact tidy.of_sublist rfl (travels.anchored before.facade)
  | queued => exact tidy.of_sublist (before.ids_ticketed _ _) (List.Sublist.refl _)
  | @reported _ event =>
    refine tidy.of_sublist (before.ids_applyEvent event) ?_
    rw [(before.unshown_applyEvent event).facade]

theorem tidy_of_build {file : File} {cells : List Cell} {settings : Settings}
    (built : build file cells settings = .ok session) : session.Tidy := by
  obtain ⟨-, rfl⟩ := build_eq_ok built
  exact anchored_place _ _

/-- The facade of a reachable session anchors the cells, each once, in their order and where it
stands, and nothing else. So placing the anchors anew changes nothing. -/
theorem Reachable.place_facade {settings : Settings} (reachable : Reachable settings session)
    (plain : Text.IsLine settings.tag) :
    place session.cells.cells session.facade = session.facade := by
  have tidy : session.Tidy := by
    clear plain
    induction reachable using Reachable.from_build with
    | built _ built => exact tidy_of_build built
    | @step before _ operation ih =>
      exact (before.phases_perform operation).keep (fun phase tidy => phase.tidy tidy) ih
  obtain ⟨sound, -⟩ := reachable.sound plain
  exact sound.inStep.anchors.place_self (regular_facadeFace sound.plain)
    sound.coherent.distinct_cells (sound.inStep.facade.trans session.renderedLines_eq) tidy

end Session

end Notebook

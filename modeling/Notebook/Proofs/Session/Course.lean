import Notebook.Proofs.Session.Invariant
import Notebook.Proofs.Buffer.Action
/-!
# What operations make of the facade

Whatever is done to a session, its facade goes through revisions: as long as the revision is the same,
so is the text. And above the first content line the text is only ever written when it is made anew
from the cells, so it begins like a marker whenever there are cells. Both hold of any session, under
any tag, even if no facade could be read.
-/
namespace Notebook.Session

open Text Layout

variable {session before after : Session} {operation : Operation}

/-- The facade of cells begins like a marker. -/
def Headed (session : Session) : Prop :=
  session.cells.cells ≠ [] → session.facade.text.head? = some '#'

/-- What operations keep of any session on their way from one to another. -/
structure Course (before after : Session) : Prop where
  settings : after.settings = before.settings
  revised : before.facade.Revised after.facade
  headed : before.Headed → after.Headed

theorem Course.refl (session : Session) : Course session session := ⟨rfl, .refl _, id⟩

theorem Course.trans {middle : Session} (there : Course before middle) (onward : Course middle after) :
    Course before after :=
  ⟨onward.settings.trans there.settings, there.revised.trans onward.revised,
    onward.headed ∘ there.headed⟩

theorem Course.of_same (settings : after.settings = before.settings)
    (cells : after.cells.cells = [] ↔ before.cells.cells = [])
    (text : after.facade.text = before.facade.text)
    (revision : after.facade.revision = before.facade.revision) : Course before after := by
  refine ⟨settings, ⟨revision.ge, fun _ => text⟩, fun headed some => ?_⟩
  rw [text]
  exact headed fun none => some (cells.mpr none)

/-! ## The beginning of the text -/

theorem head?_renderLines (tag : Text) {blocks : List Block} (some : blocks ≠ []) :
    (unlines (Markup.renderLines tag blocks)).head? = .some '#' := by
  cases blocks with
  | nil => exact absurd rfl some
  | cons block more =>
    have first : ∃ rest, Markup.renderLines tag (block :: more) = startMarker tag block.kind :: rest :=
      ⟨_, rfl⟩
    obtain ⟨rest, lines⟩ := first
    rw [lines, unlines_cons]
    rfl

/-- Writing below the first line leaves the beginning of the text alone. -/
theorem head?_replaceLines {buffer : Buffer} {start stop : Nat} (below : 0 < start)
    (inOrder : start ≤ stop) (inside : stop < buffer.lineCount) {new : List Text} (some : new ≠ [])
    (grouping : Grouping) :
    (buffer.replaceLines start stop new grouping).text.head? = buffer.text.head? := by
  have split := eq_terminated_append (Nat.lt_of_le_of_lt inOrder inside)
  obtain ⟨line, more, cons⟩ : ∃ line more, buffer.lines.take start = line :: more := by
    apply List.exists_cons_of_ne_nil
    rw [ne_eq, List.take_eq_nil_iff]
    exact fun none => none.elim (by omega) (lines_ne_nil _)
  rw [Buffer.text_replaceLines_inside inOrder inside (.inr some)]
  change buffer.text = terminated (buffer.lines.take start) ++ _ at split
  rw [cons] at split ⊢
  conv_rhs => rw [split]
  cases line <;> rfl

/-- A span that is found lies within the facade. -/
theorem spanOf?_bounds {index : Nat} {span : Span} (found : session.spanOf? index = some span) :
    span.contentStart ≤ span.contentStop ∧ span.contentStop < session.facade.lineCount := by
  rw [Session.spanOf?, Layout.spanOf?, Option.bind_eq_some_iff] at found
  obtain ⟨cell, -, found⟩ := found
  obtain ⟨top, -, found⟩ := Option.bind_eq_some_iff.mp found
  simp only [Option.ite_none_right_eq_some, Option.some.injEq] at found
  obtain ⟨inside, rfl⟩ := found
  rw [Cell.height] at inside
  simp only [Span.contentStart, Span.contentStop, Cell.height]
  omega

/-! ## Every phase -/

theorem revised_applyAll (edits : List Edit) (grouping : Grouping) (buffer : Buffer) :
    buffer.Revised (Edit.applyAll edits grouping buffer) := by
  unfold Edit.applyAll
  generalize Edit.bottomUp edits = row
  induction row generalizing buffer with
  | nil => exact .refl buffer
  | cons edit rest ih => exact (buffer.revised_replace _ _ _ grouping).trans (ih _)

/-- The end of a group is no revision. -/
theorem revised_applyBatch (edits : List Edit) (grouping : Grouping) (buffer : Buffer) :
    buffer.Revised (Edit.applyBatch edits grouping buffer) := by
  unfold Edit.applyBatch
  dsimp only
  split
  · have row := revised_applyAll edits .burst buffer.endGroup
    exact ⟨row.revision, row.text⟩
  · exact revised_applyAll edits .burst buffer

theorem Travels.revised {move : Buffer → Bool × Buffer} (travels : Travels operation move)
    (buffer : Buffer) : buffer.Revised (move buffer).2 := by
  cases travels with
  | undo => exact buffer.revised_undo
  | redo => exact buffer.revised_redo

theorem Draft.revised {cells : CellList} {facade : Buffer} {grouping : Grouping}
    (draft : Draft session operation cells facade grouping) : session.facade.Revised facade :=
  draft.facade (.refl _) (fun edits grouping => revised_applyBatch edits grouping _)
    fun travels => travels.revised _

/-- Making all views anew follows on any change of the cells and on any revision of the facade. -/
theorem course_refreshViews (session : Session) {facade : Buffer}
    (revised : session.facade.Revised facade) (cells : CellList) (grouping : Grouping) :
    Course session ({ session with facade, cells }.refreshViews grouping) := by
  obtain ⟨editor, refreshed⟩ :=
    refreshViews_eq { session with facade, cells } grouping
  rw [refreshed]
  refine ⟨rfl, ?_, fun _ some => ?_⟩
  · have written := revised.trans (facade.revised_setLines
      (Markup.renderLines session.settings.tag cells.blocks) grouping)
    exact ⟨by simpa [renderedLines] using written.revision,
      fun same => (text_place _ _).trans (written.text (by simpa [renderedLines] using same))⟩
  · simp only [text_place, renderedLines, Buffer.text_setLines]
    exact head?_renderLines _ (by simpa [CellList.blocks] using some)

/-- Content lines are never the first line, so writing a cell leaves the beginning of the text. -/
theorem course_withSource {index : Nat} {span : Span} (found : session.spanOf? index = some span)
    (source : Text) (grouping : Grouping) :
    Course session (session.withSource index span source grouping) := by
  obtain ⟨inOrder, inside⟩ := spanOf?_bounds found
  let written :=
    session.facade.replaceLines span.contentStart span.contentStop (Text.lines source) grouping
  have revised : session.facade.Revised written := session.facade.revised_replaceLines _ _ _ grouping
  have head : written.text.head? = session.facade.text.head? :=
    head?_replaceLines (Nat.succ_pos _) inOrder inside (lines_ne_nil source) grouping
  -- Placing anchors changes neither the text nor the revision.
  have placed : (session.withSource index span source grouping).facade.text = written.text ∧
      (session.withSource index span source grouping).facade.revision = written.revision := by
    unfold withSource
    dsimp only
    split <;> simp [written]
  refine ⟨rfl, revised.trans ⟨placed.2.ge, fun _ => placed.1⟩, fun headed full => ?_⟩
  rw [placed.1, head]
  exact headed fun none => full (by simp [withSource, CellList.modifyAt, none])

theorem course_applyEvent (session : Session) (event : Event) :
    Course session (session.applyEvent event).2 := by
  have hidden := session.unshown_applyEvent event
  refine .of_same hidden.settings ?_ (by rw [hidden.facade]) (by rw [hidden.facade])
  have length := congrArg List.length hidden.cells
  rw [List.length_map, List.length_map] at length
  rw [← List.length_eq_zero_iff, length, List.length_eq_zero_iff]

theorem Phase.course (phase : Phase operation before after) : Course before after := by
  cases phase with
  | refreshed draft => exact course_refreshViews before draft.revised _ _
  | written _ found => exact course_withSource found _ _
  | noted | attended | opened | ended | tracked | drained => exact .of_same rfl Iff.rfl rfl rfl
  | idle travels still =>
    refine ⟨rfl, travels.revised before.facade, fun headed some => ?_⟩
    exact (congrArg List.head? (travels.idle still).1).trans (headed some)
  | queued => exact .of_same rfl (by simp [ticketed, CellList.modifyAt]) rfl rfl
  | reported => exact before.course_applyEvent _

/-- Every operation takes this course, whether it succeeds or is refused. -/
theorem course_perform (session : Session) (operation : Operation) :
    Course session (operation.perform session).2 :=
  (session.phases_perform operation).keep (fun phase there => there.trans phase.course) (.refl session)

/-! ## From opening on -/

theorem headed_build {file : File} {cells : List Cell} {settings : Settings}
    (opened : build file cells settings = .ok session) :
    session.settings = settings ∧ session.Headed := by
  obtain ⟨-, rfl⟩ := build_eq_ok opened
  refine ⟨rfl, fun some => ?_⟩
  rw [text_place]
  exact head?_renderLines _ (by simpa [CellList.blocks] using some)

theorem Reachable.headed {settings : Settings} (reachable : Reachable settings session) :
    session.settings = settings ∧ session.Headed := by
  induction reachable using Reachable.from_build with
  | built _ built => exact headed_build built
  | @step before _ operation ih =>
    have course := before.course_perform operation
    exact ⟨course.settings.trans ih.1, course.headed ih.2⟩

/-! ## Rows of operations -/

/-- Operations lead from one session to another. -/
inductive Leads (before : Session) : Session → Prop
  | still : Leads before before
  | step {after : Session} : Leads before after → (operation : Operation) →
      Leads before (operation.perform after).2

theorem Leads.one (session : Session) (operation : Operation) :
    session.Leads (operation.perform session).2 :=
  Leads.still.step operation

theorem Leads.trans {middle : Session} (there : before.Leads middle) (onward : middle.Leads after) :
    before.Leads after := by
  induction onward with
  | still => exact there
  | step _ operation ih => exact ih.step operation

theorem Leads.reachable {settings : Settings} (leads : before.Leads after)
    (reachable : Reachable settings before) : Reachable settings after := by
  induction leads with
  | still => exact reachable
  | step _ operation ih => exact ih.step operation

theorem Leads.course (leads : before.Leads after) : Course before after := by
  induction leads with
  | still => exact .refl before
  | step _ operation ih => exact ih.trans (course_perform _ operation)

end Notebook.Session

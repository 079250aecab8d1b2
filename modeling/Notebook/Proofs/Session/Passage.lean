import Notebook.Proofs.Buffer.History
import Notebook.Proofs.CellList.Origin
import Notebook.Proofs.Session.Trail
/-!
# What operations leave to the kernel

Every operation but queueing a cell and applying an event leaves the executions alone. The cells it
changes by actions of their list, and the history of the facade by recording and by moves through it.
This holds of any session, under any tag, even if its views are out of step.
-/
namespace Notebook.Session

open Text Layout

variable {session before middle after : Session} {operation : Operation}

/-- One session became another, and no execution was touched on the way. -/
structure Passage (before after : Session) : Prop where
  executions : after.executions = before.executions
  nextTicket : after.nextTicket = before.nextTicket
  namespaces : after.namespaces = before.namespaces
  cells : before.cells.Leads after.cells
  facade : before.facade.Continues after.facade

/-- A passage that only concerns the facade and what is neither shown nor executed. -/
theorem Passage.of_facade (executions : after.executions = before.executions)
    (nextTicket : after.nextTicket = before.nextTicket)
    (namespaces : after.namespaces = before.namespaces) (cells : after.cells = before.cells)
    (facade : before.facade.Continues after.facade) : Passage before after :=
  ⟨executions, nextTicket, namespaces, cells ▸ .still, facade⟩

theorem Passage.refl (session : Session) : Passage session session :=
  .of_facade rfl rfl rfl rfl (Buffer.continues_of_same rfl)

theorem Passage.trans (there : Passage before middle) (onward : Passage middle after) :
    Passage before after :=
  ⟨onward.executions.trans there.executions, onward.nextTicket.trans there.nextTicket,
    onward.namespaces.trans there.namespaces, there.cells.trans onward.cells,
    there.facade.trans onward.facade⟩

/-! ## Every phase -/

theorem continues_applyAll (edits : List Edit) (grouping : Grouping) (buffer : Buffer) :
    buffer.Continues (Edit.applyAll edits grouping buffer) := by
  unfold Edit.applyAll
  generalize Edit.bottomUp edits = row
  induction row generalizing buffer with
  | nil => exact Buffer.continues_of_same rfl
  | cons edit rest ih => exact (buffer.continues_replace _ _ _ grouping).trans (ih _)

theorem continues_applyBatch (edits : List Edit) (grouping : Grouping) (buffer : Buffer) :
    buffer.Continues (Edit.applyBatch edits grouping buffer) := by
  unfold Edit.applyBatch
  dsimp only
  split
  · exact (buffer.continues_endGroup.trans (continues_applyAll edits .burst _)).trans
      (Buffer.continues_endGroup _)
  · exact continues_applyAll edits .burst buffer

theorem Travels.continues {move : Buffer → Bool × Buffer} (travels : Travels operation move)
    (buffer : Buffer) : buffer.Continues (move buffer).2 := by
  cases travels with
  | undo => exact buffer.continues_undo
  | redo => exact buffer.continues_redo

theorem Draft.continues {cells : CellList} {facade : Buffer} {grouping : Grouping}
    (draft : Draft session operation cells facade grouping) : session.facade.Continues facade :=
  draft.facade (Buffer.continues_of_same rfl) (fun edits grouping => continues_applyBatch edits grouping _)
    fun travels => travels.continues _

/-- The cells of a draft are made by one action of their list, if they are others at all. -/
theorem Draft.leads {cells : CellList} {facade : Buffer} {grouping : Grouping}
    (draft : Draft session operation cells facade grouping) : session.cells.Leads cells := by
  cases draft with
  | same | unread => exact .still
  | @inserted index kind source _ _ _ inserted =>
    simpa only [CellList.Action.perform, inserted] using
      CellList.Leads.one session.cells (.insert index kind source)
  | @removed index _ _ taken =>
    simpa only [CellList.Action.perform, taken] using CellList.Leads.one session.cells (.remove index)
  | @moved source target _ moved =>
    simpa only [CellList.Action.perform, moved] using
      CellList.Leads.one session.cells (.move source target)
  | @retyped index kind _ changed =>
    simpa only [CellList.Action.perform, changed] using
      CellList.Leads.one session.cells (.setKind index kind)
  | @edited _ _ blocks | @read _ _ blocks => exact .one _ (.reconcile blocks)

/-- Placing anchors leaves the history of what was written. -/
theorem continues_withSource (session : Session) (index : Nat) (span : Span) (source : Text)
    (grouping : Grouping) :
    session.facade.Continues (session.withSource index span source grouping).facade := by
  refine (session.facade.continues_replaceLines span.contentStart span.contentStop (Text.lines source)
    grouping).of_history ?_
  unfold withSource
  dsimp only
  split <;> simp

/-- Every phase leads the history of the facade on. -/
theorem Phase.continues (phase : Phase operation before after) :
    before.facade.Continues after.facade := by
  cases phase with
  | @refreshed _ _ cells facade grouping draft =>
    obtain ⟨editor, refreshed⟩ := refreshViews_eq { before with facade, cells } grouping
    rw [refreshed]
    exact (draft.continues.trans (facade.continues_setLines _ grouping)).of_history (history_place _ _)
  | written => exact before.continues_withSource _ _ _ _
  | ended => exact before.facade.continues_endGroup
  | idle travels => exact travels.continues before.facade
  | reported => exact Buffer.continues_of_same (congrArg _ (before.unshown_applyEvent _).facade)
  | _ => exact Buffer.continues_of_same rfl

theorem Phases.continues (phases : Phases operation before after) :
    before.facade.Continues after.facade := by
  induction phases with
  | refl => exact Buffer.continues_of_same rfl
  | tail _ phase ih => exact ih.trans phase.continues

theorem Phase.passage (phase : Phase operation before after)
    (apart : operation.concernsExecution = false) : Passage before after := by
  have continues := phase.continues
  cases phase with
  | @refreshed _ _ cells facade grouping draft =>
    obtain ⟨editor, refreshed⟩ := refreshViews_eq { before with facade, cells } grouping
    rw [refreshed] at continues ⊢
    exact ⟨rfl, rfl, rfl, draft.leads, continues⟩
  | written => exact ⟨rfl, rfl, rfl, before.cells.leads_modifyAt _ _, continues⟩
  | queued | reported => cases apart
  | _ => exact .of_facade rfl rfl rfl rfl continues

theorem Phases.passage (phases : Phases operation before after)
    (apart : operation.concernsExecution = false) : Passage before after :=
  phases.keep (fun phase there => there.trans (phase.passage apart)) (.refl before)

/-- Every operation that does not concern executions leaves them alone, whether it succeeds or is
refused. -/
theorem passage_perform (session : Session) {operation : Operation}
    (apart : operation.concernsExecution = false) : Passage session (operation.perform session).2 :=
  (session.phases_perform operation).passage apart

/-! ## Pending changes of the editor -/

theorem ids_syncEditor (session : Session) :
    CellList.ids session.syncEditor.2.cells.cells = CellList.ids session.cells.cells := by
  rcases session.cells_syncEditor with same | ⟨index, source, changed⟩
  · rw [same]
  · rw [changed]
    let change (cell : Cell) : Cell := { cell with source }
    have keeps (cell : Cell) : (change cell).id = cell.id := rfl
    exact CellList.map_modify Cell.id keeps session.cells.cells index

/-- Before anything else an operation brings in what the editor holds, and every cell keeps its place.
It may end there. -/
theorem flushed_passage {α : Type} (session : Session) (next : Session → Outcome α) :
    ∃ middle, Passage session middle ∧
      CellList.ids middle.cells.cells = CellList.ids session.cells.cells ∧
      ((∃ fault, session.flushed next = (.error fault, middle)) ∨
        session.flushed next = next middle) := by
  unfold flushed
  split
  next =>
    have synced := (session.phases_syncEditor .syncEditor).passage rfl
    have ids := session.ids_syncEditor
    split
    next fault middle refused =>
      rw [refused] at synced ids
      exact ⟨middle, synced, ids, .inl ⟨fault, rfl⟩⟩
    next flag middle done =>
      rw [done] at synced ids
      exact ⟨middle, synced, ids, .inr rfl⟩
  next => exact ⟨session, .refl session, rfl, .inr rfl⟩

end Notebook.Session

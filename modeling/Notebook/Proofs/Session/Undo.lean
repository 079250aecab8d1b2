import Notebook.Proofs.Session.Invariant
/-!
# Undo takes back one change

A change of the notebook, however many splices of the facade it takes, is recorded in one new group:
structural changes and changes of one source are at most one splice, and edits of the facade are a
burst between two closed groups, which what rendering changes is amended to. Undo then gives the
facade before the change, and reading the cells from it gives the cells before the change, for their
rendering is read back as they were. Rendering them again finds nothing to do, so the redo stack
stays, and redo gives the facade and the cells after the change.
-/
namespace Notebook

open Text Layout

/-- The operation changes the notebook as a step of its own. -/
def Operation.isChange : Operation → Bool
  | insertCell _ _ _ | deleteCell _ | moveCell _ _ | setKind _ _ | setSource _ _
  | editCell _ _ _ => true
  | editFacade _ grouping => grouping = .alone
  | _ => false

namespace Session

variable {session : Session}

/-! ## The editor stays clean -/

theorem reloadEditor_clean (session : Session) : session.reloadEditor.editorIsDirty = false := by
  unfold reloadEditor
  split
  next closed => simp [editorIsDirty, closed]
  next editor opened =>
    dsimp only
    split
    next => rfl
    next =>
      split
      · simp [editorIsDirty, Editor.isDirty, Editor.markSynced]
      · simp [editorIsDirty, Editor.isDirty, Editor.markSynced, Editor.reload]

theorem flushed_of_clean {α : Type} (clean : session.editorIsDirty = false)
    (next : Session → Outcome α) : session.flushed next = next session := by
  simp [Session.flushed, clean]

/-- What making all views anew makes of the facade, the cells and the editor. -/
theorem rerender_spec (plain : IsLine session.settings.tag)
    (distinct : (CellList.ids session.cells.cells).Nodup) (grouping : Grouping) :
    (session.rerender grouping).facade = place session.cells.cells
        (session.facade.setLines session.renderedLines grouping).2 ∧
      (session.rerender grouping).cells = session.cells ∧
      (session.rerender grouping).editorIsDirty = false := by
  rw [rerender_eq plain distinct]
  refine ⟨?_, ?_, reloadEditor_clean _⟩
  · obtain ⟨editor, refreshed⟩ := session.refreshViews_eq grouping
    rw [refreshed]
  · obtain ⟨editor, refreshed⟩ := session.refreshViews_eq grouping
    rw [refreshed]

/-! ## Changes are batches -/

/-- One session became another by a batch of splices of the facade, and no changes of the editor are
pending. -/
def Batched (before after : Session) : Prop :=
  (∃ splices, Buffer.Batch before.facade after.facade splices) ∧ after.editorIsDirty = false

theorem Sound.batched_refl (sound : session.Sound) (clean : session.editorIsDirty = false) :
    Batched session session := by
  obtain ⟨history, known, -⟩ := sound.keeps
  exact ⟨⟨[], Buffer.batch_refl known⟩, clean⟩

/-- Making all views from changed cells as a step of its own is a batch. -/
theorem Sound.batched_restructured {α : Type} (sound : session.Sound)
    (clean : session.editorIsDirty = false) {change : CellList → Except Fault (α × CellList)}
    (coherent : ∀ result after, change session.cells = .ok (result, after) → after.Coherent)
    {result : α} (done : (session.restructured change).1 = .ok result) :
    Batched session (session.restructured change).2 := by
  rw [Session.restructured, flushed_of_clean clean] at done ⊢
  split at done
  next => cases done
  next result cells changed =>
    let next : Session := { session with cells }
    have plain : IsLine next.settings.tag := sound.plain
    have distinct : (CellList.ids next.cells.cells).Nodup :=
      (coherent result cells changed).distinct_cells
    -- The notebook is written anew as one group of splices; placing the anchors adds none.
    obtain ⟨facade, -, still⟩ := rerender_spec plain distinct .alone
    obtain ⟨history, known, -⟩ := sound.keeps
    obtain ⟨splices, batch⟩ := Buffer.batch_setLines_alone known next.renderedLines
    refine ⟨⟨splices, ?_⟩, still⟩
    change Buffer.Batch session.facade (next.rerender .alone).facade splices
    rw [facade]
    exact batch.of_same (text_place _ _) (revision_place _ _) (history_place _ _)

/-- Writing one cell as a step of its own is a batch. -/
theorem Sound.batched_replaceSource (sound : session.Sound) {index : Nat} {source : Text}
    (done : (session.replaceSource index (Text.lines source)).1 = .ok ()) :
    Batched session (session.replaceSource index (Text.lines source)).2 := by
  rcases sound.replaceSource_cases index source
    with ⟨fault, refused⟩ | ⟨above, cell, below, -, -, cells, rfl, checked, -⟩
  · rw [refused] at done
    cases done
  · obtain ⟨anchors, replaced⟩ := sound.replaceSource_ok cells checked
    rw [replaced]
    refine ⟨?_, reloadEditor_clean _⟩
    obtain ⟨editor, reloaded⟩ := (session.overwritten above below cell { cell with source } anchors
      .alone).reloadEditor_eq
    obtain ⟨history, known, -⟩ := sound.keeps
    obtain ⟨splices, batch⟩ := Buffer.batch_replaceLines_alone known (depth above + 1)
      (depth above + 1 + cell.lineCount) (Text.lines source)
    refine ⟨splices, ?_⟩
    rw [reloaded]
    exact batch.of_same rfl rfl rfl

theorem Sound.batched_editCell (sound : session.Sound) (clean : session.editorIsDirty = false)
    {id : Text} {expected : Span} {edits : List Edit}
    (done : (session.editCell id expected edits).1 = .ok ()) :
    Batched session (session.editCell id expected edits).2 := by
  rw [Session.editCell, flushed_of_clean clean] at done ⊢
  revert done
  split
  next => rintro ⟨⟩
  next =>
    split
    next =>
      split
      next => rintro ⟨⟩
      next =>
        split
        next => rintro ⟨⟩
        next =>
          dsimp only
          split
          next => exact fun _ => sound.batched_refl clean
          next => exact sound.batched_replaceSource
    next => rintro ⟨⟩

/-- Each edit of a row makes one splice of the burst. -/
theorem burst_foldl {before after : Buffer} {splices : List Splice}
    (burst : Buffer.Burst before after splices) (row : List Edit) :
    ∃ more, more.length = row.length ∧ Buffer.Burst before
      (row.foldl (fun buffer edit => edit.applyTo .burst buffer) after) (splices ++ more) := by
  induction row generalizing after splices with
  | nil => exact ⟨[], rfl, by rwa [List.append_nil]⟩
  | cons edit rest ih =>
    obtain ⟨more, length, grown⟩ := ih (burst.replace (min (offsetAt after.text edit.start)
      (offsetAt after.text edit.stop)) (max (offsetAt after.text edit.start)
        (offsetAt after.text edit.stop)) edit.text)
    rw [List.append_assoc, List.singleton_append] at grown
    exact ⟨_, congrArg (· + 1) length, grown⟩

theorem bottomUp_ne_nil {edits : List Edit} (some : edits ≠ []) : Edit.bottomUp edits ≠ [] := by
  have inserted (edit : Edit) (row : List Edit) : Edit.insertBottomUp edit row ≠ [] := by
    cases row with
    | nil => simp [Edit.insertBottomUp]
    | cons other rest =>
      rw [Edit.insertBottomUp]
      split <;> simp
  cases edits with
  | nil => exact absurd rfl some
  | cons edit rest => exact inserted edit _

theorem Sound.batched_editFacade (sound : session.Sound) (clean : session.editorIsDirty = false)
    {edits : List Edit} (done : (session.editFacade edits .alone).1 = .ok ()) :
    Batched session (session.editFacade edits .alone).2 := by
  rw [Session.editFacade, flushed_of_clean clean] at done ⊢
  revert done
  split
  next => exact fun _ => sound.batched_refl clean
  next some =>
    dsimp only
    split
    next => rintro ⟨⟩
    next blocks read =>
      split
      next => exact fun _ => sound.batched_refl clean
      next =>
        intro
        obtain ⟨history, known, -⟩ := sound.keeps
        -- The group before is closed, the edits are a burst, and rendering may amend it.
        obtain ⟨splices, length, burst⟩ :=
          burst_foldl (Buffer.burst_endGroup known) (Edit.bottomUp edits)
        rw [List.nil_append] at burst
        have nonempty : splices ≠ [] := by
          rw [← List.length_pos_iff, length, List.length_pos_iff]
          exact bottomUp_ne_nil some
        let next : Session := { session with
          facade := (Edit.applyAll edits .burst session.facade.endGroup).endGroup
          cells := session.cells.reconcile blocks }
        have plain : IsLine next.settings.tag := sound.plain
        have distinct : (CellList.ids next.cells.cells).Nodup :=
          (sound.coherent.reconcile blocks).distinct_cells
        obtain ⟨facade, -, still⟩ := rerender_spec plain distinct .amend
        obtain ⟨all, batch⟩ := burst.batch.endGroup.setLines_amend nonempty next.renderedLines
        refine ⟨⟨all, ?_⟩, still⟩
        change Buffer.Batch session.facade (next.rerender .amend).facade all
        rw [facade]
        exact batch.of_same (text_place _ _) (revision_place _ _) (history_place _ _)

/-- Every change that succeeds is a batch. -/
theorem Sound.batched (sound : session.Sound) (clean : session.editorIsDirty = false)
    {operation : Operation} (change : operation.isChange = true) {after : Session}
    (done : operation.perform session = (.ok (), after)) : Batched session after := by
  cases operation with
  | insertCell index kind source =>
    obtain ⟨⟨id, ok⟩, rfl⟩ := Operation.settle_eq_ok done
    refine sound.batched_restructured clean (fun id after inserted => ?_) ok
    split at inserted
    · cases inserted
    · exact sound.coherent.insert inserted
  | deleteCell index =>
    obtain ⟨⟨cell, ok⟩, rfl⟩ := Operation.settle_eq_ok done
    exact sound.batched_restructured clean (fun _ _ removed => sound.coherent.remove removed) ok
  | moveCell source target =>
    obtain ⟨⟨result, ok⟩, rfl⟩ := Operation.settle_eq_ok done
    refine sound.batched_restructured clean (fun result after moved => ?_) ok
    exact sound.coherent.move (ok_of_map_unit moved)
  | setKind index kind =>
    obtain ⟨⟨result, ok⟩, rfl⟩ := Operation.settle_eq_ok done
    refine sound.batched_restructured clean (fun result after changed => ?_) ok
    exact sound.coherent.setKind (ok_of_map_unit changed)
  | setSource index source =>
    obtain ⟨⟨result, ok⟩, rfl⟩ := Operation.settle_eq_ok done
    rw [Session.setSource, flushed_of_clean clean] at ok ⊢
    exact sound.batched_replaceSource ok
  | editCell id expected edits =>
    obtain ⟨⟨result, ok⟩, rfl⟩ := Operation.settle_eq_ok done
    exact sound.batched_editCell clean ok
  | editFacade edits grouping =>
    obtain rfl : grouping = .alone := by simpa [Operation.isChange] using change
    obtain ⟨⟨result, ok⟩, rfl⟩ := Operation.settle_eq_ok done
    exact sound.batched_editFacade clean ok
  | _ => cases change

/-! ## Undo and redo -/

/-- A session shows what another one shows. -/
structure ShowsAs (session other : Session) : Prop where
  facade : session.facade.text = other.facade.text
  shadow : session.shadow.text = other.shadow.text
  blocks : session.cells.blocks = other.cells.blocks

/-- Sound sessions with one and the same facade show the same. -/
theorem Sound.showsAs_of_text (sound : session.Sound) {other : Session} (target : other.Sound)
    (settings : session.settings = other.settings) (text : session.facade.text = other.facade.text) :
    session.ShowsAs other := by
  have blocks : session.cells.blocks = other.cells.blocks := by
    have reads := sound.reads
    rw [settings, Buffer.lines, text] at reads
    exact Except.ok.inj (reads.symm.trans target.reads)
  refine ⟨text, lines_injective ?_, blocks⟩
  exact (sound.inStep.shadow.trans (shadowLines_eq_of_blocks blocks)).trans
    target.inStep.shadow.symm

/-- Moving through the history to the facade of a sound session makes a session that shows as that
one, with the cells read from what it shows, and keeps the history as it is. -/
theorem Sound.travel_to (sound : session.Sound) (clean : session.editorIsDirty = false)
    {other : Session} (target : other.Sound) (settings : other.settings = session.settings)
    {move : Buffer → Bool × Buffer} {facade : Buffer} (moved : move session.facade = (true, facade))
    (text : facade.text = other.facade.text) (changed : facade.revision ≠ session.facade.revision) :
    ∃ after, session.travel move = (.ok true, after) ∧ after.ShowsAs other ∧
      after.cells = session.cells.reconcile other.cells.blocks ∧
      after.facade.history = facade.history ∧ after.editorIsDirty = false := by
  let synced : Session := { session with
    facade, cells := session.cells.reconcile other.cells.blocks }
  have lines : facade.lines = Markup.renderLines session.settings.tag other.cells.blocks := by
    rw [Buffer.lines, text, ← settings]
    exact target.inStep.facade
  -- The facade renders sound cells, so they are read from it as they were.
  have read : Markup.parseLines session.settings.tag facade.lines = .ok other.cells.blocks := by
    rw [lines]
    refine Markup.parseLines_renderLines fun block member => ?_
    rw [← Markup.checkSource_iff, ← settings]
    exact target.free block member
  have blocks : synced.cells.blocks = other.cells.blocks := CellList.blocks_reconcile _ _
  have plain : IsLine synced.settings.tag := sound.plain
  have distinct : (CellList.ids synced.cells.cells).Nodup :=
    (sound.coherent.reconcile other.cells.blocks).distinct_cells
  obtain ⟨placed, kept, still⟩ := rerender_spec plain distinct .amend
  -- The facade is the rendering of the cells that were read from it.
  have idle : synced.facade.setLines synced.renderedLines .amend = (false, facade) := by
    have same : synced.renderedLines = facade.lines := by
      rw [lines, renderedLines, blocks]
    rw [same]
    exact facade.setLines_self .amend
  rw [idle] at placed
  have inStep : (synced.rerender .amend).InStep := by
    rw [rerender_eq plain distinct]
    exact inStep_refreshViews plain distinct .amend
  refine ⟨synced.rerender .amend, ?_, ⟨?_, ?_, ?_⟩, kept, ?_, still⟩
  · rw [Session.travel, flushed_of_clean clean]
    simp only [moved, changed, Session.syncFromFacade, read]
    rfl
  · rw [placed, text_place]
    exact text
  · refine lines_injective (inStep.shadow.trans ?_ |>.trans target.inStep.shadow.symm)
    refine shadowLines_eq_of_blocks ?_
    rw [kept]
    exact blocks
  · rw [kept]
    exact blocks
  · rw [placed, history_place]

/-- A change that takes no more splices than steps are kept is taken back by undo and made again by
redo. Each shows what the session showed then, with the cells read from it. -/
theorem Sound.undo_redo {before after : Session} (sound : before.Sound)
    (clean : before.editorIsDirty = false) {operation : Operation}
    (change : operation.isChange = true) (done : operation.perform before = (.ok (), after))
    (changed : after.facade.text ≠ before.facade.text)
    (room : after.facade.revision ≤ before.facade.revision + max before.settings.maxUndo 1) :
    ∃ undone redone, after.undo = (.ok true, undone) ∧ undone.ShowsAs before ∧
      undone.cells = after.cells.reconcile before.cells.blocks ∧
      undone.redo = (.ok true, redone) ∧ redone.ShowsAs after ∧
      redone.cells = undone.cells.reconcile after.cells.blocks := by
  obtain ⟨soundAfter, kept⟩ : Move before after := by
    have performed := sound.perform operation
    rwa [done] at performed
  obtain ⟨⟨splices, batch⟩, still⟩ := sound.batched clean change done
  -- Each splice is one step and one revision, so the steps of the change are still kept.
  obtain ⟨back, undo, text, other, redo⟩ := batch.undo_redo (batch.changed changed)
    fun history known => by
      obtain ⟨found, same, numbered, limit⟩ := sound.keeps
      rw [same] at known
      cases known
      rw [batch.revision] at room
      exact ⟨numbered, by omega⟩
  obtain ⟨undone, undoes, shows, read, history, clean⟩ :=
    soundAfter.travel_to still sound kept.symm undo text other
  obtain ⟨soundUndone, same⟩ : Move after undone := by
    have moved := soundAfter.undo
    rwa [show after.undo = _ from undoes] at moved
  -- Undo left the history of the facade alone after taking back the batch, so redo finds it there.
  obtain ⟨forth, redo, text, other⟩ := redo undone.facade shows.facade history
  obtain ⟨redone, redoes, shows', read', -⟩ := soundUndone.travel_to clean soundAfter same.symm redo
    text other
  exact ⟨undone, redone, undoes, shows, read, redoes, shows', read'⟩

/-- A change that succeeds is taken back by undo and made again by redo, provided that it takes no
more splices of the facade than steps are kept: each splice is one step and one revision. Undo gives
the facade, the shadow and the kinds and sources of the cells as they were before the change, and
redo gives them as they were after it, whichever group was open before and however many steps
there were. -/
theorem Reachable.undo_redo_change {settings : Settings} {before after : Session}
    (reachable : Reachable settings before) (plain : '\n' ∉ settings.tag)
    (clean : before.editorIsDirty = false) (operation : Operation)
    (change : operation.isChange = true) (done : operation.perform before = (.ok (), after))
    (changed : after.facade.text ≠ before.facade.text)
    (room : after.facade.revision ≤ before.facade.revision + settings.maxUndo) :
    ∃ undone redone, after.undo = (.ok true, undone) ∧ undone.ShowsAs before ∧
      undone.redo = (.ok true, redone) ∧ redone.ShowsAs after := by
  obtain ⟨sound, rfl⟩ := reachable.sound plain
  obtain ⟨undone, redone, undoes, back, -, redoes, forth, -⟩ :=
    sound.undo_redo clean change done changed (by omega)
  exact ⟨undone, redone, undoes, back, redoes, forth⟩

/-- So it is with a batch of edits that follows on an open burst. -/
theorem undo_redo_after_burst : ∃ opened before after : Session,
    Session.ofCells [{ id := "a", kind := .code, source := "x = 1" }] {} = .ok opened ∧
    before = (Operation.perform opened (.editFacade [⟨⟨1, 4⟩, ⟨1, 5⟩, "2"⟩] .burst)).2 ∧
    before.facade.hasOpenGroup = true ∧
    Operation.perform before (.editFacade [⟨⟨0, 0⟩, ⟨0, 0⟩, "\n"⟩, ⟨⟨1, 0⟩, ⟨1, 0⟩, "y = "⟩] .alone) =
      (.ok (), after) ∧
    ∃ undone redone, after.undo = (.ok true, undone) ∧ undone.ShowsAs before ∧
      undone.redo = (.ok true, redone) ∧ redone.ShowsAs after := by
  have opened : Reachable {} _ := .cells (rfl :
    Session.ofCells [{ id := "a", kind := .code, source := "x = 1" }] {} = .ok _)
  have before := opened.step (.editFacade [⟨⟨1, 4⟩, ⟨1, 5⟩, "2"⟩] .burst)
  refine ⟨_, _, _, rfl, rfl, by decide +kernel, Prod.ext (by decide +kernel) rfl, ?_⟩
  exact before.undo_redo_change (by decide) (by decide +kernel)
    (.editFacade [⟨⟨0, 0⟩, ⟨0, 0⟩, "\n"⟩, ⟨⟨1, 0⟩, ⟨1, 0⟩, "y = "⟩] .alone) rfl
    (Prod.ext (by decide +kernel) rfl) (by decide +kernel) (by decide +kernel)

end Session

end Notebook

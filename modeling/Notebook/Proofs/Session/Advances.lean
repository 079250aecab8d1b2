import Notebook.Proofs.Buffer.Lively
import Notebook.Proofs.Session.EditPaths
import Notebook.Proofs.Session.SyncFirst
import Notebook.Proofs.Session.Tickets
import Notebook.Proofs.Session.UndoEnds
/-!
# Steps that are recorded in vain

Most operations write nothing if there is nothing to change. But a cell is written even if it is given the
source that it has, and neither what is typed nor what edits of the facade bring about is compared with the
text at which their burst began. So there are three ways to record steps in vain, and only these: whatever
else is done leaves the facade as it is, or makes it another text than it was and than it was when the group
began that the steps belong to.
-/
namespace Notebook

open Text Layout

/-- The operation first brings in what the editor holds. -/
def Operation.bringsIn : Operation → Bool
  | editBuffer _ | syncFromFacade | repair | applyEvent _ | trackShadow _ | takeShadowSplices => false
  | _ => true

/-- The operation writes the facade only if that makes it another text than when its group began. -/
def Operation.checksForChange : Operation → Bool
  | setSource _ _ | editFacade _ _ => false
  | _ => true

/-- The operation moves through the history of the facade. -/
def Operation.travels : Operation → Bool
  | undo | redo => true
  | _ => false

namespace Deed

/-- The session that the deed left behind. -/
def after (deed : Deed) : Session := (deed.operation.perform deed.before).2

/-- How many steps the deed records: one for each that is brought in, and one for each that the operation
writes. Moving through the history writes none. -/
def recorded (deed : Deed) : Nat :=
  let middle := deed.before.flush.2.facade.revision
  middle - deed.before.facade.revision +
    if deed.operation.travels then 0 else deed.after.facade.revision - middle

/-- The history has no room for the steps that the deed records, so that older ones are forgotten. -/
def forgets (deed : Deed) : Bool :=
  max deed.before.settings.maxUndo 1 < deed.before.facade.undoDepth + deed.recorded

/-- The deed records steps that change nothing, or that take back all that their group had changed. -/
inductive Vain (deed : Deed) : Prop
  /-- A cell is given the source that it has. -/
  | source {index : Nat} {cell : Cell} : deed.operation = .setSource index cell.source →
      deed.before.flush.1 = .ok () → deed.before.flush.2.cells.get? index = some cell → Vain deed
  /-- What is brought in from the editor leads back to where the burst began. -/
  | typed : deed.operation.bringsIn = true → deed.before.editorIsDirty = true →
      deed.before.flush.1 = .ok () →
      deed.before.flush.2.facade.text = deed.before.facade.begins .burst → Vain deed
  /-- Edits of the facade that join the burst change the text, and lead back to where it began. -/
  | joined {edits : List Edit} {grouping : Grouping} : deed.operation = .editFacade edits grouping →
      grouping ≠ .alone → deed.after.facade.text ≠ deed.before.flush.2.facade.text →
      deed.after.facade.text = deed.before.flush.2.facade.begins .burst → Vain deed

end Deed

namespace Session

open Buffer (Rests)

variable {settings : Settings} {session after : Session} {vain : Prop}

/-- Undo and redo of the facade stop at rendered texts, and each of its groups changes the text. -/
def Lively (session : Session) : Prop :=
  session.facade.LivelyAt (Markup.IsRendered session.settings.tag) (max session.settings.maxUndo 1)

/-- Steps of one group were recorded in the facade, and the group began at a text. -/
def Writes (start : Text) (before after : Session) : Prop :=
  Buffer.Writes (Markup.IsRendered before.settings.tag) (max before.settings.maxUndo 1) start
    before.facade after.facade

/-- The facade stays as it is, or it is written and nothing is left to be brought in. It is written in vain
if the group ends where it began, and only then may the text be the one from before. -/
inductive Advances (before after : Session) (vain : Prop) : Prop
  | rests : Rests before.facade after.facade → ¬vain → Advances before after vain
  | writes {start : Text} : Writes start before after → after.editorIsDirty = false →
      (after.facade.text = start ↔ vain) → (after.facade.text = before.facade.text → vain) →
      Advances before after vain

/-- On a session whose editor is clean what checks for a change is never vain. -/
theorem not_vain (clean : session.editorIsDirty = false) {operation : Operation}
    (checks : operation.checksForChange = true) : ¬Deed.Vain ⟨session, operation⟩ := by
  intro vain
  cases vain with
  | source same =>
    cases same
    cases checks
  | typed _ dirty => simp [clean] at dirty
  | joined same =>
    cases same
    cases checks

theorem vain_setSource (clean : session.editorIsDirty = false) (index : Nat) (source : Text) :
    Deed.Vain ⟨session, .setSource index source⟩ ↔
      ∃ cell, session.cells.get? index = some cell ∧ cell.source = source := by
  have flushed := flush_of_clean clean
  constructor
  · intro vain
    cases vain with
    | source same _ here =>
      cases same
      dsimp only at here
      rw [flushed] at here
      exact ⟨_, here, rfl⟩
    | typed _ dirty => simp [clean] at dirty
    | joined same => cases same
  · rintro ⟨cell, here, rfl⟩
    exact .source rfl (by rw [flushed]) (by rw [flushed]; exact here)

theorem vain_editFacade (clean : session.editorIsDirty = false) (edits : List Edit)
    (grouping : Grouping) : Deed.Vain ⟨session, .editFacade edits grouping⟩ ↔
      let after := (session.editFacade edits grouping).2
      grouping ≠ .alone ∧ after.facade.text ≠ session.facade.text ∧
        after.facade.text = session.facade.begins .burst := by
  have flushed := flush_of_clean clean
  constructor
  · intro vain
    cases vain with
    | source same => cases same
    | typed _ dirty => simp [clean] at dirty
    | joined same apart changed back =>
      cases same
      dsimp only at changed back
      rw [flushed] at changed back
      exact ⟨apart, changed, back⟩
  · rintro ⟨apart, changed, back⟩
    exact .joined rfl apart (by rw [flushed]; exact changed) (by rw [flushed]; exact back)

/-! ## Writing the facade -/

theorem rests_place (cells : List Cell) (facade : Buffer) : Rests facade (place cells facade) :=
  ⟨text_place _ _, revision_place _ _, .inl (history_place _ _)⟩

theorem Lively.writes (lively : session.Lively) (sound : session.Sound) {first last : Nat}
    {inserted : Text} {grouping : Grouping} (apart : grouping ≠ .amend)
    (left : Rests (session.facade.replace first last inserted grouping) after.facade) :
    Writes (session.facade.begins grouping) session after :=
  (Buffer.LivelyAt.writes lively sound.isRendered first last inserted apart).rests left

/-- Even an emptied cell has one line, so there is always something to be written. -/
theorem rests_overwritten (session : Session) (above below : List Cell) (cell other : Cell)
    (anchors : Table Text Nat) (grouping : Grouping) : ∃ first last inserted,
      Rests (session.facade.replace first last inserted grouping)
        (session.overwritten above below cell other anchors grouping).facade := by
  obtain ⟨first, last, inserted, written⟩ := session.facade.exists_replaceLines (depth above + 1)
    (depth above + 1 + cell.lineCount) (lines_ne_nil other.source) grouping
  refine ⟨first, last, inserted, ?_⟩
  rw [← written]
  exact ⟨rfl, rfl, .inl rfl⟩

/-- Views that are made anew from changed cells are written only if the cells show something else. -/
theorem Lively.advances_restructured {α : Type} (lively : session.Lively) (sound : session.Sound)
    (clean : session.editorIsDirty = false) {change : CellList → Except Fault (α × CellList)}
    (coherent : ∀ result after, change session.cells = .ok (result, after) → after.Coherent) :
    Advances session (session.restructured change).2 False := by
  rw [Session.restructured, flushed_of_clean clean]
  split
  next => exact .rests (.refl _) id
  next result cells changed =>
    let next : Session := { session with cells }
    have plain : IsLine next.settings.tag := sound.plain
    obtain ⟨facade, -, still⟩ := rerender_spec plain (coherent result cells changed).distinct_cells .alone
    have placed := rests_place cells.cells (next.facade.setLines next.renderedLines .alone).2
    change Advances session (next.rerender .alone) False
    rw [← facade] at placed
    have text : (next.rerender .alone).facade.text = unlines next.renderedLines :=
      placed.text.trans (next.facade.text_setLines _ _)
    -- Only lines that differ are written, so the text is another one if anything is.
    by_cases same : next.renderedLines = session.facade.lines
    · rw [same, show next.facade.setLines session.facade.lines .alone = _ from
        session.facade.setLines_self .alone] at placed
      exact .rests placed id
    · have other : (next.rerender .alone).facade.text ≠ session.facade.text := by
        intro back
        rw [text] at back
        exact same (by rw [Buffer.lines, ← back]; exact (Markup.lines_render plain _).symm)
      rcases next.facade.setLines_cases next.renderedLines .alone with
        idle | ⟨first, last, inserted, replaced, -⟩
      · rw [idle] at placed
        exact .rests placed id
      · rw [replaced] at placed
        have writes : Writes (session.facade.begins .alone) session (next.rerender .alone) :=
          lively.writes sound (by decide) placed
        rw [Buffer.begins_alone] at writes
        exact .writes writes still (iff_of_false other id) other

/-- Sound sessions have the same facade exactly if their cells show the same. -/
theorem Sound.text_eq_iff (sound : session.Sound) (move : Move session after) :
    after.facade.text = session.facade.text ↔ after.cells.blocks = session.cells.blocks :=
  ⟨fun same => (move.sound.showsAs_of_text sound move.settings same).blocks,
    fun same => (move.sound.showsAs_of_blocks sound move.settings same).facade⟩

/-- Writing one cell always records a step. -/
theorem Lively.advances_replaceSource (lively : session.Lively) (sound : session.Sound) (index : Nat)
    (source : Text) (same : vain ↔ ∃ cell, session.cells.get? index = some cell ∧ cell.source = source) :
    Advances session (session.replaceSource index (Text.lines source)).2 vain := by
  have move := sound.phases (session.phases_replaceSource index source (.setSource index source))
  rcases sound.replaceSource_cases index source with
    ⟨fault, refused⟩ | ⟨above, cell, below, anchors, editor, cells, rfl, checked, replaced⟩
  · rw [refused]
    refine .rests (.refl _) fun known => ?_
    -- A source that the notebook has is not refused.
    obtain ⟨cell, here, rfl⟩ := same.mp known
    obtain ⟨above, below, cells, rfl⟩ := exists_around here
    have checked := sound.free cell.block (by simp [CellList.blocks, cells])
    obtain ⟨anchors, replaced⟩ := sound.replaceSource_ok cells checked
    cases refused.symm.trans replaced
  · rw [replaced] at move ⊢
    obtain ⟨first, last, inserted, left⟩ :=
      session.rests_overwritten above below cell { cell with source } anchors .alone
    have here : session.cells.get? above.length = some cell := by simp [CellList.get?, cells]
    -- The facade shows another text exactly if the source is another one.
    have back := sound.text_eq_iff move
    simp only [Session.overwritten, CellList.blocks, cells, List.map_append, List.map_cons,
      List.append_cancel_left_eq, List.cons.injEq, and_true, Cell.block, Block.mk.injEq, true_and] at back
    have writes : Writes (session.facade.begins .alone) session
        { session.overwritten above below cell { cell with source } anchors .alone with editor } :=
      lively.writes sound (by decide) left
    rw [Buffer.begins_alone] at writes
    have known : vain ↔ { session.overwritten above below cell { cell with source } anchors .alone with
        editor }.facade.text = session.facade.text := by
      rw [same, here]
      exact Iff.trans (by simp [eq_comm]) back.symm
    have done : (session.replaceSource above.length (Text.lines source)).1 = .ok () :=
      congrArg Prod.fst replaced
    obtain ⟨-, still⟩ := sound.batched_replaceSource done
    rw [replaced] at still
    exact .writes writes still known.symm known.mpr

/-- Edits within a cell are not made if they change nothing. -/
theorem Lively.advances_editCell (lively : session.Lively) (sound : session.Sound)
    (clean : session.editorIsDirty = false) (id : Text) (expected : Span) (edits : List Edit) :
    Advances session (session.editCell id expected edits).2 False := by
  have idle : Advances session session False := .rests (.refl _) (·)
  rw [Session.editCell, flushed_of_clean clean]
  split
  next => exact idle
  next index _ =>
    split
    next cell span here _ =>
      split
      next => exact idle
      next =>
        split
        next => exact idle
        next =>
          dsimp only
          split
          next => exact idle
          -- Only here is anything written, and what is written differs from what the cell held.
          next other =>
            refine lively.advances_replaceSource sound index _ ⟨False.elim, ?_⟩
            rintro ⟨found, there, same⟩
            obtain rfl := Option.some.inj (here.symm.trans there)
            exact other same.symm
    next => exact idle

/-- Once a burst is open, edits join it. -/
theorem writes_foldl {form : Text → Prop} {limit : Nat} {before after : Buffer}
    (writes : Buffer.Writes form limit start before after) (opened : after.hasOpenGroup = true)
    (row : List Edit) : Buffer.Writes form limit start before
      (row.foldl (fun buffer edit => edit.applyTo .burst buffer) after) := by
  induction row generalizing after with
  | nil => exact writes
  | cons edit rest ih =>
    have known : after.history.isSome = true := by
      cases known : after.history with
      | none => simp [Buffer.hasOpenGroup, known] at opened
      | some => rfl
    exact ih (writes.replace _ _ _ (.inr ⟨rfl, opened⟩)) (Buffer.hasOpenGroup_burst known ..)

/-- Edits in a row are steps of one group. It is the open one, or it begins with the first of them. -/
theorem writes_applyAll {form : Text → Prop} {limit : Nat} {buffer : Buffer}
    (lively : buffer.LivelyAt form limit) (here : form buffer.text) {edits : List Edit}
    (some : edits ≠ []) :
    Buffer.Writes form limit (buffer.begins .burst) buffer (Edit.applyAll edits .burst buffer) := by
  unfold Edit.applyAll
  obtain ⟨edit, rest, row⟩ := List.exists_cons_of_ne_nil (bottomUp_ne_nil some)
  rw [row]
  exact writes_foldl (lively.writes here _ _ _ (by decide : Grouping.burst ≠ .amend))
    (Buffer.hasOpenGroup_burst lively.known ..) rest

/-- Edits of the facade are made only if the cells then show something else. But in a burst this may be
what they showed when the burst began. -/
theorem Lively.advances_editFacade (lively : session.Lively) (sound : session.Sound)
    (clean : session.editorIsDirty = false) (edits : List Edit) (grouping : Grouping) :
    let after := (session.editFacade edits grouping).2
    Advances session after (grouping ≠ .alone ∧ after.facade.text ≠ session.facade.text ∧
      after.facade.text = session.facade.begins .burst) := by
  intro after
  have move : Move session after := sound.phases (session.phases_editFacade edits grouping)
  have idle : Advances session session (grouping ≠ .alone ∧
      session.facade.text ≠ session.facade.text ∧ session.facade.text = session.facade.begins .burst) :=
    .rests (.refl _) fun vain => vain.2.1 rfl
  revert move
  dsimp only [after]
  rw [Session.editFacade, flushed_of_clean clean]
  split
  next => exact fun _ => idle
  next some =>
    dsimp only
    split
    next => exact fun _ => idle
    next blocks read =>
      split
      next => exact fun _ => idle
      next other =>
        intro move
        let separated (buffer : Buffer) : Buffer := if grouping = .alone then buffer.endGroup else buffer
        have separates (buffer : Buffer) : Rests buffer (separated buffer) := by
          dsimp only [separated]
          split
          · exact Buffer.rests_endGroup buffer
          · exact .refl buffer
        let next : Session := { session with
          facade := separated (Edit.applyAll edits .burst (separated session.facade))
          cells := session.cells.reconcile blocks }
        have plain : IsLine next.settings.tag := sound.plain
        have distinct : (CellList.ids next.cells.cells).Nodup :=
          (sound.coherent.reconcile blocks).distinct_cells
        obtain ⟨facade, cells, still⟩ := rerender_spec plain distinct .amend
        have changed : (next.rerender .amend).facade.text ≠ session.facade.text := by
          refine mt (sound.text_eq_iff move).mp ?_
          change (next.rerender .amend).cells.blocks ≠ session.cells.blocks
          rw [cells]
          exact (CellList.blocks_reconcile _ _).symm ▸ other
        have begun : Markup.IsRendered session.settings.tag (separated session.facade).text := by
          rw [(separates session.facade).text]
          exact sound.isRendered
        -- The edits are steps of one group, and what rendering the cells changes joins it.
        have edited := (separates _).writes
          (writes_applyAll (Buffer.LivelyAt.rests lively (separates _)) begun some)
        have writes : Writes ((separated session.facade).begins .burst) session (next.rerender .amend) := by
          unfold Writes
          rw [facade]
          refine Buffer.Writes.rests ?_ (rests_place _ _)
          have closed := edited.rests (separates _)
          rcases next.facade.setLines_cases next.renderedLines .amend with
            same | ⟨first, last, inserted, replaced, -⟩
          · exact same.symm ▸ closed
          · exact replaced.symm ▸ closed.replace first last inserted (.inl rfl)
        refine .writes writes still ?_ fun same => absurd same changed
        change (next.rerender .amend).facade.text = _ ↔ _ ∧ (next.rerender .amend).facade.text ≠ _ ∧
          (next.rerender .amend).facade.text = _
        -- A batch of its own begins where the facade was, which it left.
        by_cases alone : grouping = .alone
        · have closed : separated session.facade = session.facade.endGroup := if_pos alone
          rw [closed, Buffer.begins_closed (Buffer.hasOpenGroup_endGroup _)]
          exact iff_of_false changed fun vain => vain.1 alone
        · have left : separated session.facade = session.facade := if_neg alone
          rw [left]
          exact ⟨fun back => ⟨alone, changed, back⟩, fun vain => vain.2.2⟩

/-! ## Operations that leave the facade -/

/-- What brings nothing in leaves the facade, for there is nothing to repair. -/
theorem Reachable.rests_perform (reachable : Reachable settings session) (plain : '\n' ∉ settings.tag)
    {operation : Operation} (aside : operation.bringsIn = false) :
    Rests session.facade (operation.perform session).2.facade := by
  have looked : session.reloadEditor.facade = session.facade := by
    obtain ⟨editor, reloaded⟩ := session.reloadEditor_eq
    rw [reloaded]
  obtain ⟨sound, -⟩ := reachable.sound plain
  cases operation with
  | syncFromFacade =>
    have read := congrArg Prod.snd (reachable.syncFromFacade_eq plain)
    have same : session.syncFromFacade.2.facade = session.facade := by rw [read, looked]
    exact same ▸ .refl session.facade
  | repair =>
    have made := sound.inStep.refreshViews (reachable.place_facade plain) .amend
    have same : session.repair.facade = session.facade := by rw [repair, made, looked]
    exact same ▸ .refl session.facade
  | applyEvent event =>
    have same := (session.unshown_applyEvent event).facade
    exact same ▸ .refl session.facade
  | editBuffer | trackShadow | takeShadowSplices => exact .refl session.facade
  | _ => cases aside

theorem rests_closeEditor (clean : session.editorIsDirty = false) :
    Rests session.facade session.closeEditor.facade := by
  unfold closeEditor
  split
  next => exact .refl _
  next =>
    rw [commitEditor, flushed_of_clean clean]
    exact Buffer.rests_endGroup _

theorem facade_queue (clean : session.editorIsDirty = false) (index : Nat) :
    (session.queue index).2.facade = session.facade := by
  rw [queue, flushed_of_clean clean]
  split
  next => rfl
  next => split <;> rfl

/-- What becomes of the facade of a lively session whose editor is clean, unless the operation moves
through the history. -/
theorem Reachable.advances (reachable : Reachable settings session) (plain : '\n' ∉ settings.tag)
    (lively : session.Lively) (clean : session.editorIsDirty = false) {operation : Operation}
    (stays : operation.travels = false) :
    Advances session (operation.perform session).2 (Deed.Vain ⟨session, operation⟩) := by
  obtain ⟨sound, -⟩ := reachable.sound plain
  -- An operation that checks for a change itself is never vain.
  have earnest (checked : operation.checksForChange = true) :
      Deed.Vain ⟨session, operation⟩ = False := eq_false (not_vain clean checked)
  cases operation with
  | insertCell index kind source =>
    have inserted : Advances session (session.insertCell index kind source).2 False := by
      refine lively.advances_restructured sound clean fun id after inserted => ?_
      split at inserted
      · cases inserted
      · exact sound.coherent.insert inserted
    exact earnest rfl ▸ inserted
  | deleteCell index =>
    have deleted : Advances session (session.deleteCell index).2 False :=
      lively.advances_restructured sound clean fun _ _ (removed : session.cells.remove index = _) =>
        sound.coherent.remove removed
    exact earnest rfl ▸ deleted
  | moveCell source target =>
    have moved : Advances session (session.moveCell source target).2 False :=
      lively.advances_restructured sound clean fun _ _ moved =>
        sound.coherent.move (ok_of_map_unit moved)
    exact earnest rfl ▸ moved
  | setKind index kind =>
    have changed : Advances session (session.setKind index kind).2 False :=
      lively.advances_restructured sound clean fun _ _ changed =>
        sound.coherent.setKind (ok_of_map_unit changed)
    exact earnest rfl ▸ changed
  | setSource index source =>
    change Advances session (session.setSource index source).2 _
    rw [Session.setSource, flushed_of_clean clean]
    exact lively.advances_replaceSource sound index source (vain_setSource clean index source)
  | editCell id expected edits =>
    rw [earnest rfl]
    exact lively.advances_editCell sound clean id expected edits
  | editFacade edits grouping =>
    rw [vain_editFacade clean]
    exact lively.advances_editFacade sound clean edits grouping
  | openEditor index =>
    refine .rests ?_ (not_vain clean rfl)
    exact (sound.facade_openEditor index).symm ▸ rests_closeEditor clean
  | closeEditor => exact .rests (rests_closeEditor clean) (not_vain clean rfl)
  | commitEditor =>
    refine .rests ?_ (not_vain clean rfl)
    change Rests session.facade session.commitEditor.2.facade
    rw [commitEditor, flushed_of_clean clean]
    exact Buffer.rests_endGroup _
  | syncEditor =>
    refine .rests ?_ (not_vain clean rfl)
    have same : session.syncEditor.2 = session := by
      unfold syncEditor
      split
      next => rfl
      next editor opened =>
        rw [if_pos (by simpa [editorIsDirty, opened] using clean)]
    exact same.symm ▸ .refl session.facade
  | queue index =>
    refine .rests ?_ (not_vain clean rfl)
    exact (facade_queue clean index).symm ▸ .refl session.facade
  | undo | redo => cases stays
  | syncFromFacade | repair | applyEvent | editBuffer | trackShadow | takeShadowSplices =>
    exact .rests (reachable.rests_perform plain rfl) (not_vain clean rfl)

end Session

end Notebook

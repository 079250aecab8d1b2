import Notebook.Proofs.Session.Advances
/-!
# Undo that restores nothing

Whether undo did something is judged by the steps that it moved over, and not by the text. The two come to
the same as long as every group of steps changes the text, and every operation that records nothing in vain
keeps it so. After one that does, the steps that could be redone are gone, and undo reports a change
where there is none.
-/
namespace Notebook

open Text Layout

namespace Session

open Buffer (Rests)

variable {settings : Settings} {session middle after : Session} {start : Text}

/-! ## Bringing in what the editor holds -/

/-- What a dirty editor holds is refused, or it is one more step of the burst, and whatever is asked for
then goes on from there. -/
theorem Reachable.flush_dirty (reachable : Reachable settings session) (plain : '\n' ∉ settings.tag)
    (lively : session.Lively) (dirty : session.editorIsDirty = true) :
    (∃ fault, session.syncEditor = (.error fault, session)) ∨
    ∃ middle, session.syncEditor = (.ok true, middle) ∧ middle.editorIsDirty = false ∧
      Alike session middle ∧ Writes (session.facade.begins .burst) session middle := by
  obtain ⟨sound, -⟩ := reachable.sound plain
  rcases sound.syncEditor_cases (reachable.seated plain) with
    ⟨fault, refused, -⟩ | idle | ⟨editor, above, cell, below, anchors, -, -, done⟩
  · exact .inl ⟨fault, refused⟩
  · -- An editor that is dirty has something to bring in.
    cases opened : session.editor with
    | none => simp [editorIsDirty, opened] at dirty
    | some editor =>
      have pending : editor.isDirty = true := by simpa [editorIsDirty, opened] using dirty
      simp only [syncEditor, opened, pending, Bool.not_true, Bool.false_eq_true, if_false] at idle
      split at idle
      · cases idle
      · split at idle <;> cases idle
  · have clean (span : Span) : (editor.markSynced span).isDirty = false := by
      simp [Editor.markSynced, Editor.isDirty]
    refine .inr ⟨_, done, clean _, alike_synced dirty done rfl (clean _) rfl, ?_⟩
    obtain ⟨first, last, inserted, left⟩ := session.rests_overwritten above below cell
      { cell with source := editor.buffer.text } anchors .burst
    exact lively.writes sound (by decide) left

theorem flush_of_syncEditor (dirty : session.editorIsDirty = true) {result : Except Fault Bool}
    (synced : session.syncEditor = (result, middle)) :
    session.flush = (result.map fun _ => (), middle) := by
  rw [flush, flushed, if_pos dirty, synced]
  cases result <;> rfl

/-- If the changes of the editor are refused, then nothing happens to the facade. -/
theorem facade_refused (sound : session.Sound) {fault : Fault} (dirty : session.editorIsDirty = true)
    (refused : session.syncEditor = (.error fault, session)) {operation : Operation}
    (brings : operation.bringsIn = true) :
    (operation.perform session).2.facade = session.facade := by
  have stopped {α : Type} (next : Session → Outcome α) :
      (session.flushed next).2.facade = session.facade := by
    rw [flushed, if_pos dirty, refused]
  have closed : session.closeEditor.facade = session.facade := by
    unfold closeEditor
    split
    · rfl
    · exact stopped _
  cases operation with
  | openEditor index => exact (sound.facade_openEditor index).trans closed
  | closeEditor => exact closed
  | syncEditor => exact congrArg (·.2.facade) refused
  | editBuffer | syncFromFacade | repair | applyEvent | trackShadow | takeShadowSplices => cases brings
  | _ => exact stopped _

theorem Alike.perform (alike : Alike session middle) {operation : Operation}
    (brings : operation.bringsIn = true) (other : operation ≠ .syncEditor) :
    operation.perform session = operation.perform middle := by
  cases operation with
  | insertCell index kind source => exact congrArg Operation.settle (alike.insertCell index kind source)
  | deleteCell index => exact congrArg Operation.settle (alike.deleteCell index)
  | moveCell source target => exact congrArg Operation.settle (alike.moveCell source target)
  | setKind index kind => exact congrArg Operation.settle (alike.setKind index kind)
  | setSource index source => exact congrArg Operation.settle (alike.setSource index source)
  | editCell id expected edits => exact congrArg Operation.settle (alike.editCell id expected edits)
  | editFacade edits grouping => exact congrArg Operation.settle (alike.editFacade edits grouping)
  | openEditor index => exact congrArg Operation.settle (alike.openEditor index)
  | closeEditor => exact congrArg (Prod.mk _) alike.closeEditor
  | commitEditor => exact congrArg Operation.settle alike.commitEditor
  | syncEditor => exact absurd rfl other
  | undo => exact congrArg Operation.settle alike.undo
  | redo => exact congrArg Operation.settle alike.redo
  | queue index => exact congrArg Operation.settle (alike.queue index)
  | _ => cases brings

/-! ## Moving through the history -/

/-- A facade that is a rendered text is only read. -/
theorem Sound.reread_rendered (sound : session.Sound) {facade : Buffer}
    (rendered : Markup.IsRendered session.settings.tag facade.text) : ∃ after,
      ({ session with facade } : Session).syncFromFacade = (.ok (), after) ∧
        Rests facade after.facade := by
  obtain ⟨blocks, read, same⟩ := Markup.isRendered_iff.mp rendered
  let next : Session := { session with facade, cells := session.cells.reconcile blocks }
  have shown : next.cells.blocks = blocks := CellList.blocks_reconcile _ _
  have plain : IsLine next.settings.tag := sound.plain
  obtain ⟨placed, -, -⟩ :=
    rerender_spec plain (sound.coherent.reconcile blocks).distinct_cells .amend
  rw [renderedLines, shown, (setLines_rendering plain facade blocks).1 same] at placed
  refine ⟨next.rerender .amend, ?_, placed ▸ rests_place _ _⟩
  have reads : Markup.parseLines session.settings.tag facade.lines = .ok blocks := read
  simp only [Session.syncFromFacade, reads]
  rfl

/-- A move that makes another rendered text is reported as a change, and one that finds nothing is not. -/
theorem Sound.travel_moves (sound : session.Sound) (clean : session.editorIsDirty = false)
    (move : Buffer → Bool × Buffer) (moves : Buffer.Moves (Markup.IsRendered session.settings.tag)
      session.facade (move session.facade).1 (move session.facade).2) :
    ∃ after, session.travel move = (.ok (move session.facade).1, after) ∧
      Rests (move session.facade).2 after.facade ∧
      ((move session.facade).1 = true ↔ after.facade.text ≠ session.facade.text) := by
  rw [Session.travel, flushed_of_clean clean]
  generalize move session.facade = result at moves ⊢
  obtain ⟨moved, facade⟩ := result
  cases moved with
  | false =>
    exact ⟨{ session with facade }, by simp, .refl facade,
      iff_of_false Bool.false_ne_true (not_not.mpr (moves.idle rfl).text)⟩
  | true =>
    obtain ⟨revision, text, rendered⟩ := moves.busy rfl
    -- Reading the cells from a rendered text records nothing on top of the move.
    obtain ⟨after, read, rests⟩ := sound.reread_rendered rendered
    refine ⟨after, by simp [revision, read], rests, iff_of_true rfl ?_⟩
    rw [rests.text]
    exact text

/-- So the report is right, and what leaves the text leaves everything. -/
theorem Sound.travel_tells (sound : session.Sound) (clean : session.editorIsDirty = false)
    (move : Buffer → Bool × Buffer) (moves : Buffer.Moves (Markup.IsRendered session.settings.tag)
      session.facade (move session.facade).1 (move session.facade).2) :
    let after := (session.travel move).2
    (∃ changed, (session.travel move).1 = .ok changed ∧
      (changed = true ↔ after.facade.text ≠ session.facade.text)) ∧
    (after.facade.text = session.facade.text → Rests session.facade after.facade) := by
  obtain ⟨after, travelled, rests, told⟩ := sound.travel_moves clean move moves
  rw [travelled]
  refine ⟨⟨_, rfl, told⟩, fun same => (moves.idle ?_).trans rests⟩
  exact Bool.eq_false_iff.mpr fun moved => told.mp moved same

/-- If the newest group leads nowhere, then undoing it is reported as a change. -/
theorem Sound.undo_vain (sound : session.Sound) (clean : session.editorIsDirty = false)
    (some : session.facade.undoSteps ≠ [])
    (same : session.facade.undo.2.text = session.facade.text) :
    session.undo.1 = .ok true ∧ session.undo.2.facade.text = session.facade.text := by
  obtain ⟨after, read, rests⟩ :=
    sound.reread_rendered (by rw [same]; exact sound.isRendered : Markup.IsRendered _
      session.facade.undo.2.text)
  have busy : session.facade.undoDepth ≠ 0 := by
    rw [Buffer.undoDepth_eq]
    exact mt List.length_eq_zero_iff.mp some
  rw [undo_eq clean, if_neg busy]
  simp only [read]
  exact ⟨rfl, rests.text.trans same⟩

/-! ## The history stays lively -/

theorem Writes.lively (writes : Writes start session after) (settings : after.settings = session.settings)
    (room : session.facade.undoDepth + (after.facade.revision - session.facade.revision) ≤
      max session.settings.maxUndo 1)
    (other : after.facade.text ≠ start) : after.Lively := by
  unfold Lively
  rw [settings]
  exact (writes.draft room).2.lively other

theorem Lively.rests (lively : session.Lively) (settings : after.settings = session.settings)
    (rests : Rests session.facade after.facade) : after.Lively := by
  unfold Lively
  rw [settings]
  exact Buffer.LivelyAt.rests lively rests

/-- There is room for what the deed brings in, and for what its operation writes on top of that. -/
theorem forgets_eq_false {operation : Operation} {result : Except Fault Unit}
    (flush : session.flush = (result, middle)) : Deed.forgets ⟨session, operation⟩ = false ↔
      session.facade.undoDepth + (middle.facade.revision - session.facade.revision +
        if operation.travels then 0 else
          (operation.perform session).2.facade.revision - middle.facade.revision) ≤
      max session.settings.maxUndo 1 := by
  obtain rfl : session.flush.2 = middle := congrArg Prod.snd flush
  exact decide_eq_false_iff_not.trans Nat.not_lt

theorem Reachable.lively_clean (reachable : Reachable settings session) (plain : '\n' ∉ settings.tag)
    (lively : session.Lively) (clean : session.editorIsDirty = false) {operation : Operation}
    (kept : Deed.forgets ⟨session, operation⟩ = false)
    (earnest : ¬Deed.Vain ⟨session, operation⟩) : (operation.perform session).2.Lively := by
  obtain ⟨sound, -⟩ := reachable.sound plain
  have settings := (sound.perform operation).settings
  -- An edit writes at the front of what can be undone; undo and redo move along it.
  cases travels : operation.travels with
  | false =>
    rcases reachable.advances plain lively clean travels with rests | ⟨writes, -, back, -⟩
    · exact lively.rests settings rests
    · have room := (forgets_eq_false (flush_of_clean clean)).mp kept
      rw [travels, Nat.sub_self, Nat.zero_add] at room
      exact writes.lively settings room (mt back.mp earnest)
  | true =>
    cases operation with
    | undo =>
      obtain ⟨after, undone, rests, -⟩ :=
        sound.travel_moves clean Buffer.undo (Buffer.LivelyAt.moves lively .back)
      have left : session.undo.2 = after := congrArg Prod.snd undone
      unfold Lively
      rw [settings]
      exact (Buffer.LivelyAt.undo lively sound.isRendered).rests (left ▸ rests)
    | redo =>
      obtain ⟨after, redone, rests, -⟩ :=
        sound.travel_moves clean Buffer.redo (Buffer.LivelyAt.moves lively .forth)
      have left : session.redo.2 = after := congrArg Prod.snd redone
      unfold Lively
      rw [settings]
      exact (Buffer.LivelyAt.redo lively).rests (left ▸ rests)
    | _ => cases travels

/-- What is vain after the editor was brought in is vain if it is brought in by the same operation. -/
theorem vain_of_synced {operation : Operation} (clean : middle.editorIsDirty = false)
    (flush : session.flush = (.ok (), middle))
    (performed : operation.perform session = operation.perform middle)
    (vain : Deed.Vain ⟨middle, operation⟩) : Deed.Vain ⟨session, operation⟩ := by
  have flushed := flush_of_clean clean
  cases vain with
  | source same _ here =>
    dsimp only at here
    rw [flushed] at here
    exact .source same (by rw [flush]) (by rw [flush]; exact here)
  | typed _ dirty => simp [clean] at dirty
  | joined same apart changed back =>
    simp only [Deed.after, ← performed] at changed back
    rw [flushed] at changed back
    exact .joined same apart (by rw [flush]; exact changed) (by rw [flush]; exact back)

/-- What a dirty editor holds is not vain, so the session is lively after it is brought in. -/
theorem Reachable.lively_perform (reachable : Reachable settings session) (plain : '\n' ∉ settings.tag)
    (lively : session.Lively) {operation : Operation}
    (kept : Deed.forgets ⟨session, operation⟩ = false)
    (earnest : ¬Deed.Vain ⟨session, operation⟩) : (operation.perform session).2.Lively := by
  obtain ⟨sound, -⟩ := reachable.sound plain
  have settings := (sound.perform operation).settings
  cases brings : operation.bringsIn with
  | false => exact lively.rests settings (reachable.rests_perform plain brings)
  | true =>
    cases dirty : session.editorIsDirty with
    | false => exact reachable.lively_clean plain lively dirty kept earnest
    | true =>
      rcases reachable.flush_dirty plain lively dirty with
        ⟨fault, refused⟩ | ⟨middle, synced, clean, alike, writes⟩
      · have same := facade_refused sound dirty refused brings
        exact lively.rests settings (same.symm ▸ .refl _)
      · have flush : session.flush = (.ok (), middle) := flush_of_syncEditor dirty synced
        have left : session.syncEditor.2 = middle := congrArg Prod.snd synced
        have later : Reachable _ middle := left ▸ reachable.step .syncEditor
        have room := (forgets_eq_false flush).mp kept
        have same : middle.settings = session.settings := left ▸ sound.synced.settings
        -- What is brought in is a deed before the operation, with its share of the room.
        obtain ⟨depth, -⟩ := writes.draft (Nat.le_trans (by omega) room)
        have onward : middle.Lively := by
          refine writes.lively same (Nat.le_trans (by omega) room) fun back => earnest ?_
          exact .typed brings dirty (by rw [flush]) (by rw [flush]; exact back)
        by_cases only : operation = .syncEditor
        · subst only
          exact left.symm ▸ onward
        · have performed := alike.perform brings only
          rw [performed] at room ⊢
          refine later.lively_clean plain onward clean
            ((forgets_eq_false (flush_of_clean clean)).mpr ?_)
            (mt (vain_of_synced clean flush performed) earnest)
          rw [same, depth]
          omega

theorem lively_build {file : File} {cells : List Cell} (plain : IsLine settings.tag)
    (built : build file cells settings = .ok session) : session.Lively := by
  have rendered := (sound_build plain built).1.isRendered
  obtain ⟨-, rfl⟩ := build_eq_ok built
  rw [text_place] at rendered
  exact (Buffer.livelyAt_start rendered _).rests (rests_place _ _)

/-- As long as nothing is forgotten and nothing was done in vain, each group changes the text. -/
theorem Annals.lively {opened : Session} {past : List Deed} (start : Opened settings opened)
    (annals : Annals opened past session) (plain : '\n' ∉ settings.tag)
    (kept : ∀ deed ∈ past, deed.forgets = false) (earnest : ∀ deed ∈ past, ¬deed.Vain) :
    session.Lively := by
  -- On the deeds: each is earnest and has room, so it leaves a lively session lively.
  induction annals with
  | opened =>
    cases start with
    | cells loaded => exact lively_build plain loaded
    | text loaded =>
      obtain ⟨file, cells, built⟩ := build_of_ofText loaded
      exact lively_build plain built
  | @step past session annals operation ih =>
    obtain ⟨room, kept⟩ := List.forall_mem_cons.mp kept
    obtain ⟨now, earnest⟩ := List.forall_mem_cons.mp earnest
    have reachable := reachable_iff_annals.mpr ⟨_, _, start, annals⟩
    exact reachable.lively_perform plain (ih kept earnest) room now

/-! ## What undo tells -/

/-- Nothing can be redone, and undo reports a change that it does not make. -/
def Hollow (session : Session) : Prop :=
  session.facade.redoSteps = [] ∧ session.undo.1 = .ok true ∧
    session.undo.2.facade.text = session.facade.text

theorem Writes.hollow (writes : Writes start session after) (move : Move session after)
    (clean : after.editorIsDirty = false)
    (room : session.facade.undoDepth + (after.facade.revision - session.facade.revision) ≤
      max session.settings.maxUndo 1)
    (back : after.facade.text = start) : after.Hollow := by
  -- Undo goes back to where the group began, which is the text that there is.
  obtain ⟨some, undone⟩ := (writes.draft room).2.undo
  exact ⟨writes.redoSteps, move.sound.undo_vain clean some (undone.trans back.symm)⟩

theorem Reachable.hollow_clean (reachable : Reachable settings session) (plain : '\n' ∉ settings.tag)
    (lively : session.Lively) (clean : session.editorIsDirty = false) {operation : Operation}
    (vain : Deed.Vain ⟨session, operation⟩) (kept : Deed.forgets ⟨session, operation⟩ = false) :
    (operation.perform session).2.Hollow := by
  obtain ⟨sound, -⟩ := reachable.sound plain
  have stays : operation.travels = false := by
    cases operation with
    | undo | redo => exact absurd vain (not_vain clean rfl)
    | _ => rfl
  have room := (forgets_eq_false (flush_of_clean clean)).mp kept
  rw [stays, Nat.sub_self, Nat.zero_add] at room
  rcases reachable.advances plain lively clean stays with ⟨-, earnest⟩ | ⟨writes, still, back, -⟩
  · exact absurd vain earnest
  · exact writes.hollow (sound.perform operation) still room (back.mpr vain)

theorem Reachable.hollow_synced (reachable : Reachable settings session) (plain : '\n' ∉ settings.tag)
    (lively : session.Lively) (dirty : session.editorIsDirty = true)
    (vain : Deed.Vain ⟨session, .syncEditor⟩) (kept : Deed.forgets ⟨session, .syncEditor⟩ = false) :
    session.syncEditor.2.Hollow := by
  obtain ⟨sound, -⟩ := reachable.sound plain
  -- Only typing can make a sync vain: the text went back to what the notebook showed.
  cases vain with
  | source same => cases same
  | joined same => cases same
  | typed _ _ accepted back =>
    dsimp only at accepted back
    rcases reachable.flush_dirty plain lively dirty with
      ⟨fault, refused⟩ | ⟨middle, synced, still, -, writes⟩
    · rw [flush_of_syncEditor dirty refused] at accepted
      cases accepted
    · have flush : session.flush = (.ok (), middle) := flush_of_syncEditor dirty synced
      obtain rfl : session.syncEditor.2 = middle := congrArg Prod.snd synced
      have room := (forgets_eq_false flush).mp kept
      rw [flush] at back
      exact writes.hollow sound.synced still (Nat.le_trans (by omega) room) back

/-- What is not done in vain and leaves the text leaves the facade as it is. -/
theorem Reachable.rests_of_same (reachable : Reachable settings session) (plain : '\n' ∉ settings.tag)
    (lively : session.Lively) (clean : session.editorIsDirty = false) {operation : Operation}
    (earnest : ¬Deed.Vain ⟨session, operation⟩)
    (same : (operation.perform session).2.facade.text = session.facade.text) :
    Rests session.facade (operation.perform session).2.facade := by
  obtain ⟨sound, -⟩ := reachable.sound plain
  cases travels : operation.travels with
  | false =>
    rcases reachable.advances plain lively clean travels with rests | ⟨-, -, -, known⟩
    · exact rests
    · exact absurd (known same) earnest
  | true =>
    cases operation with
    | undo => exact (sound.travel_tells clean Buffer.undo (Buffer.LivelyAt.moves lively .back)).2 same
    | redo => exact (sound.travel_tells clean Buffer.redo (Buffer.LivelyAt.moves lively .forth)).2 same
    | _ => cases travels

/-- As long as nothing was forgotten and nothing was done in vain: on a session without pending changes of
the editor undo and redo succeed, and report a change exactly if the text of the facade is another one then.
What is not done in vain and leaves the text leaves all that can be undone and redone. But after a cell is
given the source that it has, or after a burst is led back to where it began, by typing or by edits of the
facade, nothing can be redone, and undo reports a change and leaves the text. -/
theorem Annals.undo_tells_change {opened : Session} {past : List Deed} (start : Opened settings opened)
    (annals : Annals opened past session) (plain : '\n' ∉ settings.tag)
    (kept : ∀ deed ∈ past, deed.forgets = false) (earnest : ∀ deed ∈ past, ¬deed.Vain) :
    (session.editorIsDirty = false →
      (∃ changed, session.undo.1 = .ok changed ∧
        (changed = true ↔ session.undo.2.facade.text ≠ session.facade.text)) ∧
      (∃ changed, session.redo.1 = .ok changed ∧
        (changed = true ↔ session.redo.2.facade.text ≠ session.facade.text)) ∧
      ∀ operation, ¬Deed.Vain ⟨session, operation⟩ →
        let after := (operation.perform session).2
        after.facade.text = session.facade.text → after.facade.undoSteps = session.facade.undoSteps ∧
          after.facade.redoSteps = session.facade.redoSteps) ∧
    ∀ operation, Deed.Vain ⟨session, operation⟩ → Deed.forgets ⟨session, operation⟩ = false →
      session.editorIsDirty = false ∨ operation = .syncEditor → (operation.perform session).2.Hollow := by
  have reachable : Reachable settings session := reachable_iff_annals.mpr ⟨_, _, start, annals⟩
  have lively := annals.lively start plain kept earnest
  obtain ⟨sound, -⟩ := reachable.sound plain
  refine ⟨fun clean => ⟨?_, ?_, fun operation earnest same => ?_⟩, fun operation vain room pending => ?_⟩
  · exact (sound.travel_tells clean Buffer.undo (Buffer.LivelyAt.moves lively .back)).1
  · exact (sound.travel_tells clean Buffer.redo (Buffer.LivelyAt.moves lively .forth)).1
  · exact (reachable.rests_of_same plain lively clean earnest same).steps
  · cases dirty : session.editorIsDirty with
    | false => exact reachable.hollow_clean plain lively dirty vain room
    | true =>
      obtain rfl := pending.resolve_left (by simp [dirty])
      exact reachable.hollow_synced plain lively dirty vain room

/-- So a cell that is given the source that it has costs what could be redone, and there is something to undo
that is nothing. -/
theorem undo_tells_no_change : ∃ opened session after : Session,
    Session.ofCells [{ id := "a", kind := .code, source := "x = 1" }] {} = .ok opened ∧
    session = (Operation.perform (Operation.perform opened (.setSource 0 "x = 2")).2 .undo).2 ∧
    (∃ changed, session.redo.1 = .ok changed ∧
      (changed = true ↔ session.redo.2.facade.text ≠ session.facade.text)) ∧
    session.facade.redoSteps ≠ [] ∧
    Operation.perform session (.setSource 0 "x = 1") = (.ok (), after) ∧
    after.facade.text = session.facade.text ∧ after.facade.redoSteps = [] ∧
    after.undo.1 = .ok true ∧ after.undo.2.facade.text = after.facade.text := by
  have start : Opened {} _ := .cells (rfl :
    Session.ofCells [{ id := "a", kind := .code, source := "x = 1" }] {} = .ok _)
  have annals := (start.annals.step (.setSource 0 "x = 2")).step .undo
  obtain ⟨told, vain⟩ := annals.undo_tells_change start (by decide) (by decide +kernel) (by
    refine List.forall_mem_cons.mpr ⟨not_vain (by decide +kernel) rfl, ?_⟩
    refine List.forall_mem_singleton.mpr ((vain_setSource (by decide +kernel) _ _).not.mpr ?_)
    rintro ⟨cell, here, other⟩
    cases here
    revert other
    decide)
  obtain ⟨-, redoes, -⟩ := told (by decide +kernel)
  obtain ⟨none, undoes, text⟩ := vain (.setSource 0 "x = 1")
    ((vain_setSource (by decide +kernel) _ _).mpr ⟨_, rfl, rfl⟩) (by decide +kernel)
    (.inl (by decide +kernel))
  exact ⟨_, _, _, rfl, rfl, redoes, by decide +kernel, Prod.ext (by decide +kernel) rfl,
    by decide +kernel, none, undoes, text⟩

end Session

end Notebook

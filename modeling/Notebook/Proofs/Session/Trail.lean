import Notebook.Proofs.Session.Invariant
/-!
# What operations write to the shadow

Every change of the shadow is a row of splices, and what they insert stands in the cells, before or
after the operation, or in the editor. This holds of any session, whatever its markers look like and
even if its views are out of step.
-/
namespace Notebook.Session

open Text Shadow

variable {session before after : Session}

/-- A character stands in the cells or in the editor. -/
def Holds (session : Session) (c : Char) : Prop :=
  StandsIn session.cells.cells c ∨ ∃ editor ∈ session.editor, c ∈ editor.buffer.text

/-- The shadow of a session was made from another by splices that insert what was known before or
stands in the cells now. -/
def DrawnFrom (known : Char → Prop) (shadow : Buffer) (session : Session) : Prop :=
  Written (fun c => known c ∨ StandsIn session.cells.cells c) shadow session.shadow

/-- The shadow of a session was made from that of another and from the cells. -/
def Redrawn (before after : Session) : Prop :=
  DrawnFrom (StandsIn before.cells.cells) before.shadow after

/-- The shadow of a session was made from that of another, the cells and the editor. -/
def Trail (before after : Session) : Prop := DrawnFrom before.Holds before.shadow after

theorem Redrawn.of_same (shadow : after.shadow = before.shadow) : Redrawn before after := by
  rw [Redrawn, DrawnFrom, shadow]
  exact .idle

theorem Trail.of_redrawn (redrawn : Redrawn before after) : Trail before after :=
  redrawn.mono fun _ known => known.imp_left .inl

/-! ## Views made anew -/

/-- The shadow is brought in line with the cells, which stay. -/
structure Repaired (before after : Session) : Prop where
  cells : after.cells = before.cells
  /-- What is written to the shadow stands in the cells. -/
  written : Written (StandsIn before.cells.cells) before.shadow after.shadow

theorem DrawnFrom.repaired {known : Char → Prop} {shadow : Buffer}
    (drawn : DrawnFrom known shadow before) (repaired : Repaired before after) :
    DrawnFrom known shadow after := by
  rw [DrawnFrom, repaired.cells]
  exact drawn.trans (repaired.written.mono fun _ => .inr)

theorem repaired_reloadEditor (session : Session) : Repaired session session.reloadEditor := by
  obtain ⟨editor, reloaded⟩ := session.reloadEditor_eq
  rw [reloaded]
  exact ⟨rfl, .idle⟩

theorem repaired_refreshViews (session : Session) (grouping : Grouping) :
    Repaired session (session.refreshViews grouping) := by
  obtain ⟨editor, refreshed⟩ := session.refreshViews_eq grouping
  rw [refreshed]
  exact ⟨rfl, written_refresh session.shadow session.cells.cells⟩

theorem repaired_repairAfter (session : Session) (drift : Drift) :
    Repaired session (session.repairAfter drift) := by
  obtain ⟨cells, written⟩ :=
    repaired_refreshViews { session with drifts := drift :: session.drifts } .amend
  exact ⟨cells, written⟩

theorem repaired_ensured (session : Session) : Repaired session session.ensured := by
  unfold ensured
  split
  · exact ⟨rfl, .idle⟩
  · exact session.repaired_repairAfter _

theorem redrawn_refreshViews (session : Session) (facade : Buffer) (cells : CellList)
    (grouping : Grouping) :
    Redrawn session ({ session with facade, cells }.refreshViews grouping) := by
  have start : DrawnFrom (StandsIn session.cells.cells) session.shadow
      { session with facade, cells } := .idle
  exact start.repaired (repaired_refreshViews _ grouping)

theorem redrawn_rerender (session : Session) (facade : Buffer) (cells : CellList)
    (grouping : Grouping) : Redrawn session ({ session with facade, cells }.rerender grouping) :=
  (session.redrawn_refreshViews facade cells grouping).repaired (repaired_ensured _)

theorem repaired_spanOrRepair (session : Session) (index : Nat) :
    Repaired session (session.spanOrRepair index).2 := by
  unfold spanOrRepair
  split
  next => exact ⟨rfl, .idle⟩
  next cell _ =>
    split
    next => exact ⟨rfl, .idle⟩
    next =>
      have repaired := session.repaired_repairAfter (.missingAnchor cell.id)
      dsimp only
      split <;> exact repaired

/-! ## One cell -/

theorem standsIn_modify {cells : List Cell} {index : Nat} {source : Text} {c : Char}
    (there : StandsIn (cells.modify index fun cell => { cell with source }) c) :
    StandsIn cells c ∨ c ∈ source := by
  obtain ⟨cell, member, here⟩ := there
  obtain ⟨k, bound, rfl⟩ := List.mem_iff_getElem.mp member
  rw [List.getElem_modify] at here
  split at here
  · exact .inr here
  · exact .inl ⟨_, List.getElem_mem _, here⟩

/-- Writing a cell draws on the cells, and adds to them only what is written. -/
theorem redrawn_writeCell (session : Session) (index : Nat) (lines : List Text)
    (grouping : Grouping) : Redrawn session (session.writeCell index lines grouping).2 ∧
      ∀ c, StandsIn (session.writeCell index lines grouping).2.cells.cells c →
        StandsIn session.cells.cells c ∨ c ∈ unlines lines := by
  have source : unlines (if lines = [] then [[]] else lines) = unlines lines := by
    cases lines <;> rfl
  unfold writeCell
  dsimp only
  rw [source]
  split
  next => exact ⟨.idle, fun _ => .inl⟩
  next =>
    obtain ⟨cells, written⟩ := session.repaired_spanOrRepair index
    split
    next fault middle refused =>
      rw [refused] at cells written
      exact ⟨written.mono fun _ => .inl, fun c there => .inl (cells ▸ there)⟩
    next old middle found =>
      rw [found] at cells written
      dsimp only at cells written
      let changed := middle.cells.modifyAt index fun cell => { cell with source := unlines lines }
      have within (c : Char) (there : StandsIn changed.cells c) :
          StandsIn session.cells.cells c ∨ c ∈ unlines lines := by
        rw [← cells]
        exact standsIn_modify there
      -- The cell that is shown in the shadow is one of the changed cells.
      cases here : changed.get? index with
      | none =>
        dsimp only
        split <;> exact ⟨written.mono fun _ => .inl, within⟩
      | some cell =>
        have patched : Written (StandsIn changed.cells) middle.shadow
            (Shadow.patch middle.shadow old cell) := by
          refine (written_patch middle.shadow old cell).mono fun c member => ?_
          exact ⟨cell, List.mem_of_getElem? here, member⟩
        have redrawn := (written.mono fun _ => .inl).trans
          (patched.mono fun c => (Or.inr : _ → StandsIn session.cells.cells c ∨ _))
        dsimp only
        split <;> exact ⟨redrawn, within⟩

theorem redrawn_replaceSource (session : Session) (index : Nat) (lines : List Text) :
    Redrawn session (session.replaceSource index lines).2 := by
  have redrawn := (session.redrawn_writeCell index lines .alone).1
  unfold replaceSource
  split
  next fault after refused =>
    rw [refused] at redrawn
    exact redrawn
  next span after done =>
    rw [done] at redrawn
    exact (redrawn.repaired after.repaired_reloadEditor).repaired (repaired_ensured _)

/-- Writing a cell changes one source at most. -/
theorem cells_writeCell (session : Session) (index : Nat) (lines : List Text) (grouping : Grouping) :
    (session.writeCell index lines grouping).2.cells = session.cells ∨
      ∃ source, (session.writeCell index lines grouping).2.cells =
        session.cells.modifyAt index fun cell => { cell with source } := by
  unfold writeCell
  dsimp only
  split
  next => exact .inl rfl
  next =>
    -- Looking for the cell may repair the views, but not change the cells.
    have kept := (session.repaired_spanOrRepair index).cells
    split
    next fault middle refused =>
      rw [refused] at kept
      exact .inl kept
    next old middle found =>
      rw [found] at kept
      dsimp only at kept
      right
      split
      all_goals
        refine ⟨Text.unlines (if lines = [] then [[]] else lines), ?_⟩
        rw [← kept]

theorem cells_replaceSource (session : Session) (index : Nat) (lines : List Text) :
    (session.replaceSource index lines).2.cells = session.cells ∨
      ∃ source, (session.replaceSource index lines).2.cells =
        session.cells.modifyAt index fun cell => { cell with source } := by
  have written := session.cells_writeCell index lines .alone
  unfold replaceSource
  split
  next fault after refused =>
    rw [refused] at written
    exact written
  next span after done =>
    rw [done] at written
    -- Bringing the views in line leaves the cells alone.
    have kept := (repaired_ensured after.reloadEditor).cells.trans (repaired_reloadEditor after).cells
    rwa [kept]

/-! ## Pending changes of the editor -/

/-- What the editor held was brought in. -/
structure Absorbed (before after : Session) : Prop where
  written : Written before.Holds before.shadow after.shadow
  within : ∀ c, StandsIn after.cells.cells c → before.Holds c

theorem Absorbed.of_same (cells : after.cells = before.cells) (shadow : after.shadow = before.shadow) :
    Absorbed before after :=
  ⟨by rw [shadow]; exact .idle, fun _ there => .inl (cells ▸ there)⟩

theorem Absorbed.trail (absorbed : Absorbed before after) : Trail before after :=
  absorbed.written.mono fun _ => .inl

theorem absorbed_syncEditor (session : Session) : Absorbed session session.syncEditor.2 := by
  unfold syncEditor
  split
  next => exact .of_same rfl rfl
  next editor opened =>
    split
    next => exact .of_same rfl rfl
    next =>
      split
      next => exact .of_same rfl rfl
      next index found =>
        have ⟨redrawn, within⟩ := session.redrawn_writeCell index editor.buffer.lines .burst
        rw [editor.buffer.unlines_lines] at within
        have held (c : Char) (there : StandsIn session.cells.cells c ∨ c ∈ editor.buffer.text) :
            session.Holds c := there.imp_right fun here => ⟨editor, opened, here⟩
        split
        next fault after refused =>
          rw [refused] at redrawn within
          refine ⟨redrawn.mono fun c known => ?_, fun c there => held c (within c there)⟩
          exact known.elim .inl fun there => held c (within c there)
        next span after done =>
          rw [done] at redrawn within
          let synced : Session :=
            { after with editor := after.editor.map fun editor => editor.markSynced span }
          have drawn : DrawnFrom (StandsIn session.cells.cells) session.shadow synced := redrawn
          have repaired := synced.repaired_ensured
          have known (c : Char) (there : StandsIn synced.ensured.cells.cells c) : session.Holds c := by
            rw [repaired.cells] at there
            exact held c (within c there)
          exact ⟨(drawn.repaired repaired).mono fun c => (·.elim .inl (known c)), known⟩

theorem cells_syncEditor (session : Session) : session.syncEditor.2.cells = session.cells ∨
    ∃ index source, session.syncEditor.2.cells =
      session.cells.modifyAt index fun cell => { cell with source } := by
  unfold syncEditor
  split
  next => exact .inl rfl
  next editor opened =>
    split
    next => exact .inl rfl
    next =>
      split
      next => exact .inl rfl
      next index found =>
        have written := session.cells_writeCell index editor.buffer.lines .burst
        split
        next fault after refused =>
          rw [refused] at written
          exact written.imp_right fun changed => ⟨index, changed⟩
        next span after done =>
          rw [done] at written
          rw [(repaired_ensured _).cells]
          exact written.imp_right fun changed => ⟨index, changed⟩

/-- Before anything else an operation brings in what the editor holds. It may end there. -/
theorem flushed_cases {α : Type} (session : Session) (next : Session → Outcome α) :
    ∃ middle, Absorbed session middle ∧
      ((∃ fault, session.flushed next = (.error fault, middle)) ∨
        session.flushed next = next middle) := by
  unfold flushed
  split
  next =>
    have absorbed := session.absorbed_syncEditor
    split
    next fault middle refused =>
      rw [refused] at absorbed
      exact ⟨middle, absorbed, .inl ⟨fault, rfl⟩⟩
    next flag middle done =>
      rw [done] at absorbed
      exact ⟨middle, absorbed, .inr rfl⟩
  next => exact ⟨session, .of_same rfl rfl, .inr rfl⟩

theorem trail_flushed {α : Type} (session : Session) {next : Session → Outcome α}
    (onward : ∀ middle, Redrawn middle (next middle).2) : Trail session (session.flushed next).2 := by
  obtain ⟨middle, absorbed, ⟨fault, refused⟩ | done⟩ := session.flushed_cases next
  · rw [refused]
    exact absorbed.trail
  · rw [done]
    refine (absorbed.written.mono fun _ => .inl).trans ?_
    exact (onward middle).mono fun c => Or.imp_left (absorbed.within c)

/-! ## The operations -/

theorem trail_restructured {α : Type} (session : Session)
    (change : CellList → Except Fault (α × CellList)) :
    Trail session (session.restructured change).2 := by
  refine session.trail_flushed fun middle => ?_
  split
  next => exact .of_same rfl
  next => exact middle.redrawn_rerender middle.facade _ .alone

theorem trail_editCell (session : Session) (id : Text) (expected : Span) (edits : List Edit) :
    Trail session (session.editCell id expected edits).2 := by
  refine session.trail_flushed fun middle => ?_
  dsimp only
  split
  next => exact .of_same rfl
  next =>
    split
    next =>
      split
      next => exact .of_same rfl
      next =>
        split
        next => exact .of_same rfl
        next =>
          split
          next => exact .of_same rfl
          next => exact middle.redrawn_replaceSource _ _
    next => exact .of_same rfl

theorem trail_editFacade (session : Session) (edits : List Edit) (grouping : Grouping) :
    Trail session (session.editFacade edits grouping).2 := by
  refine session.trail_flushed fun middle => ?_
  dsimp only
  split
  next => exact .of_same rfl
  next =>
    split
    next => exact .of_same rfl
    next =>
      split
      next => exact .of_same rfl
      next => exact middle.redrawn_rerender _ _ .amend

theorem redrawn_syncFromFacade (session : Session) (facade : Buffer) :
    Redrawn session ({ session with facade } : Session).syncFromFacade.2 := by
  unfold syncFromFacade
  split
  next => exact session.redrawn_refreshViews facade session.cells .amend
  next => exact session.redrawn_rerender facade _ .amend

theorem trail_travel (session : Session) (move : Buffer → Bool × Buffer) :
    Trail session (session.travel move).2 := by
  -- The facade moves through its history, and only reading it back touches the shadow.
  refine session.trail_flushed fun middle => ?_
  have redrawn := middle.redrawn_syncFromFacade (move middle.facade).2
  dsimp only
  split
  next => exact .of_same rfl
  next =>
    split
    next fault after refused =>
      rw [refused] at redrawn
      exact redrawn
    next after done =>
      rw [done] at redrawn
      exact redrawn

theorem trail_closeEditor (session : Session) : Trail session session.closeEditor := by
  unfold closeEditor
  split
  next => exact .of_redrawn (.of_same rfl)
  next => exact session.trail_flushed fun _ => .of_same rfl

theorem trail_openEditor (session : Session) (index : Nat) :
    Trail session (session.openEditor index).2 := by
  have closed := session.trail_closeEditor.repaired (session.closeEditor.repaired_spanOrRepair index)
  unfold openEditor
  split
  next fault after refused =>
    rw [refused] at closed
    exact closed
  next span after found =>
    rw [found] at closed
    split <;> exact closed

theorem trail_queue (session : Session) (index : Nat) : Trail session (session.queue index).2 := by
  refine session.trail_flushed fun middle => ?_
  split
  next => exact .of_same rfl
  next => split <;> exact .of_same rfl

/-- Whatever an operation does to the shadow is a row of splices that draw on the cells and the
editor. -/
theorem trail_perform (session : Session) (operation : Operation)
    (apart : operation.concernsRecord = false) : Trail session (operation.perform session).2 := by
  cases operation with
  | insertCell index kind source => exact session.trail_restructured _
  | deleteCell index => exact session.trail_restructured _
  | moveCell source target => exact session.trail_restructured _
  | setKind index kind => exact session.trail_restructured _
  | setSource index source =>
    exact session.trail_flushed fun middle => middle.redrawn_replaceSource index _
  | editCell id expected edits => exact session.trail_editCell id expected edits
  | editFacade edits grouping => exact session.trail_editFacade edits grouping
  | openEditor index => exact session.trail_openEditor index
  | closeEditor => exact session.trail_closeEditor
  | commitEditor => exact session.trail_flushed fun _ => .of_same rfl
  | syncEditor => exact session.absorbed_syncEditor.trail
  | editBuffer change => exact .of_redrawn (.of_same rfl)
  | undo => exact session.trail_travel Buffer.undo
  | redo => exact session.trail_travel Buffer.redo
  | syncFromFacade => exact .of_redrawn (session.redrawn_syncFromFacade session.facade)
  | repair => exact .of_redrawn (session.redrawn_refreshViews session.facade session.cells .amend)
  | queue index => exact session.trail_queue index
  | applyEvent event => exact .of_redrawn (.of_same (session.unshown_applyEvent event).shadow)
  | trackShadow | takeShadowSplices => cases apart

end Notebook.Session

import Mathlib.Logic.Relation
import Notebook.Proofs.Session.Operation
import Notebook.Proofs.Session.Views
/-!
# The phases of operations

Operations differ in what they check and in what they answer. What they do to a session consists of few
phases: all views are made anew after the cells or the facade were changed, the source of a cell is written
where the cell stands, or something changes that no view shows. What every phase keeps, every operation
keeps, whether it succeeds or is refused. This holds of any session, under any tag.
-/
namespace Notebook

open Text

/-- The facade after edits that were accepted: as a step of its own the batch forms a group. -/
def Edit.applyBatch (edits : List Edit) (grouping : Grouping) (facade : Buffer) : Buffer :=
  let separated (buffer : Buffer) : Buffer := if grouping = .alone then buffer.endGroup else buffer
  separated (Edit.applyAll edits .burst (separated facade))

namespace Session

variable {session before after : Session} {operation : Operation}

/-! ## What all views are made anew from -/

/-- The operation moves the facade through its history. -/
inductive Travels : Operation → (Buffer → Bool × Buffer) → Prop
  | undo : Travels .undo Buffer.undo
  | redo : Travels .redo Buffer.redo

/-- The facade that an operation reads the cells from, as it is or after it moved through its history. -/
inductive ReadsFrom (session : Session) : Operation → Buffer → Prop
  | here : ReadsFrom session .syncFromFacade session.facade
  | travelled {operation : Operation} {move : Buffer → Bool × Buffer} : Travels operation move →
      (move session.facade).1 = true → (move session.facade).2.revision ≠ session.facade.revision →
      ReadsFrom session operation (move session.facade).2

/-- What an operation has made of the cells and of the facade when all views are made anew, and how the
change that this takes is grouped. -/
inductive Draft (session : Session) : Operation → CellList → Buffer → Grouping → Prop
  | same {operation : Operation} : Draft session operation session.cells session.facade .amend
  | inserted {index : Nat} {kind : Kind} {source id : Text} {cells : CellList} :
      Markup.checkSource session.settings.tag source = .ok () →
      session.cells.insert index kind source = .ok (id, cells) →
      Draft session (.insertCell index kind source) cells session.facade .alone
  | removed {index : Nat} {gone : Cell} {cells : CellList} :
      session.cells.remove index = .ok (gone, cells) →
      Draft session (.deleteCell index) cells session.facade .alone
  | moved {source target : Nat} {cells : CellList} : session.cells.move source target = .ok cells →
      Draft session (.moveCell source target) cells session.facade .alone
  | retyped {index : Nat} {kind : Kind} {cells : CellList} :
      session.cells.setKind index kind = .ok cells →
      Draft session (.setKind index kind) cells session.facade .alone
  | edited {edits : List Edit} {grouping : Grouping} {blocks : List Block} :
      Markup.parseLines session.settings.tag
        (Edit.applyAll edits .alone (Buffer.ofText session.facade.text)).lines = .ok blocks →
      Draft session (.editFacade edits grouping) (session.cells.reconcile blocks)
        (Edit.applyBatch edits grouping session.facade) .amend
  | read {operation : Operation} {facade : Buffer} {blocks : List Block} :
      session.ReadsFrom operation facade →
      Markup.parseLines session.settings.tag facade.lines = .ok blocks →
      Draft session operation (session.cells.reconcile blocks) facade .amend
  | unread {operation : Operation} {facade : Buffer} {fault : MarkupFault} :
      session.ReadsFrom operation facade →
      Markup.parseLines session.settings.tag facade.lines = .error fault →
      Draft session operation session.cells facade .amend

/-- The facade of a draft is the one there was, edited or moved through its history. -/
theorem Draft.facade {cells : CellList} {facade : Buffer} {grouping : Grouping} {fits : Buffer → Prop}
    (draft : Draft session operation cells facade grouping) (still : fits session.facade)
    (edited : ∀ edits grouping, fits (Edit.applyBatch edits grouping session.facade))
    (travelled : ∀ {move}, Travels operation move → fits (move session.facade).2) : fits facade := by
  have reads {facade : Buffer} (reads : session.ReadsFrom operation facade) : fits facade := by
    cases reads with
    | here => exact still
    | travelled travels => exact travelled travels
  cases draft with
  | same | inserted | removed | moved | retyped => exact still
  | edited => exact edited _ _
  | read source | unread source => exact reads source

/-! ## The phases -/

/-- Facade, anchors or shadow disagree with the cells in this way. -/
def Disagrees (session : Session) (drift : Drift) : Prop :=
  session.checkInvariants = .error drift ∨ ∃ index cell, session.cells.get? index = some cell ∧
    session.spanOf? index = none ∧ drift = .missingAnchor cell.id

/-- The session after the source of a cell was written where the cell stands. -/
def withSource (session : Session) (index : Nat) (span : Span) (source : Text) (grouping : Grouping) :
    Session :=
  let cells := session.cells.modifyAt index fun cell => { cell with source }
  let facade :=
    session.facade.replaceLines span.contentStart span.contentStop (Text.lines source) grouping
  { session with
    cells
    facade := if (Text.lines source).length ≠ span.contentLength then Layout.place cells.cells facade
      else facade
    shadow := match cells.get? index with
      | some cell => Shadow.patch session.shadow span cell
      | none => session.shadow }

/-- A cell that was submitted for execution. -/
def submitted (cell : Cell) : Cell := { cell with outputs := [], progress := .queued }

/-- The session after a cell got the next ticket: of that cell no older execution is followed. -/
def ticketed (session : Session) (index : Nat) (id : Text) : Session :=
  { session with
    cells := session.cells.modifyAt index submitted
    nextTicket := session.nextTicket + 1
    executions := Table.set (session.executions.filter fun entry => entry.2 ≠ id)
      session.nextTicket id }

/-- An editor stays the same editor of the same cell, or it is closed. -/
def Attends (former latter : Option Editor) : Prop :=
  ∀ later, latter = some later →
    ∃ earlier, former = some earlier ∧ later.generation = earlier.generation ∧ later.cell = earlier.cell

/-- What an operation may do to a session at a time. -/
inductive Phase : Operation → Session → Session → Prop
  /-- All views are made anew, and the editor looks its cell up again. -/
  | refreshed {operation : Operation} {session : Session} {cells : CellList} {facade : Buffer}
      {grouping : Grouping} : Draft session operation cells facade grouping →
      Phase operation session ({ session with facade, cells }.refreshViews grouping)
  | noted {operation : Operation} {session : Session} {drift : Drift} : session.Disagrees drift →
      Phase operation session { session with drifts := drift :: session.drifts }
  | written {operation : Operation} {session : Session} {index : Nat} {span : Span} {source : Text}
      {grouping : Grouping} : Markup.checkSource session.settings.tag source = .ok () →
      session.spanOf? index = some span →
      Phase operation session (session.withSource index span source grouping)
  | attended {operation : Operation} {session : Session} {editor : Option Editor} :
      Attends session.editor editor → Phase operation session { session with editor }
  | opened {session : Session} {index : Nat} {cell : Cell} {span : Span} :
      session.cells.get? index = some cell → session.spanOf? index = some span →
      Phase (.openEditor index) session { session with
        generation := session.generation + 1
        editor := some (Editor.start cell.id (session.generation + 1) span cell.source) }
  /-- The open group of the facade ends. -/
  | ended {operation : Operation} {session : Session} :
      Phase operation session { session with facade := session.facade.endGroup }
  /-- There is nothing to take back or to make again. -/
  | idle {operation : Operation} {session : Session} {move : Buffer → Bool × Buffer} :
      Travels operation move →
      (move session.facade).1 = false ∨ (move session.facade).2.revision = session.facade.revision →
      Phase operation session { session with facade := (move session.facade).2 }
  | queued {session : Session} {index : Nat} {cell : Cell} :
      session.cells.get? index = some cell → cell.kind.isCode = true →
      Phase (.queue index) session (session.ticketed index cell.id)
  | reported {session : Session} {event : Event} :
      Phase (.applyEvent event) session (session.applyEvent event).2
  | tracked {session : Session} {on : Bool} : Phase (.trackShadow on) session (session.trackShadow on)
  | drained {session : Session} : Phase .takeShadowSplices session session.takeShadowSplices.2

/-- Phases of an operation lead from one session to another. -/
def Phases (operation : Operation) : Session → Session → Prop :=
  Relation.ReflTransGen (Phase operation)

theorem Phases.refl (session : Session) : Phases operation session session :=
  Relation.ReflTransGen.refl

theorem Phase.phases (phase : Phase operation before after) : Phases operation before after :=
  Relation.ReflTransGen.single phase

theorem Phases.trans {middle : Session} (there : Phases operation before middle)
    (onward : Phases operation middle after) : Phases operation before after :=
  Relation.ReflTransGen.trans there onward

/-- What every phase keeps is kept by all of them together. -/
theorem Phases.keep {holds : Session → Prop} (phases : Phases operation before after)
    (one : ∀ {session after : Session}, Phase operation session after → holds session → holds after)
    (start : holds before) : holds after := by
  induction phases with
  | refl => exact start
  | tail _ phase ih => exact one phase ih

/-! ## What an event touches -/

theorem exists_settleAll (session : Session) :
    ∃ cells, session.settleAll = { session with cells } := by
  have settles (entries : Table Nat Text) (session : Session) :
      ∃ cells, entries.foldl (fun session entry => session.withCell entry.2 settled) session =
        { session with cells } := by
    induction entries generalizing session with
    | nil => exact ⟨session.cells, rfl⟩
    | cons entry rest ih => exact ih (session.withCell entry.2 settled)
  exact settles session.executions session

/-- An event touches cells and what is known of executions, and nothing else. -/
theorem applyEvent_eq (session : Session) (event : Event) : ∃ cells executions namespaces,
    (session.applyEvent event).2 = { session with cells, executions, namespaces } := by
  obtain ⟨idle, settled⟩ := session.exists_settleAll
  unfold applyEvent
  split
  · cases event with
    | shutdown | restarted | interrupted =>
      simp only [applyGeneral, settled]
      exact ⟨idle, _, _, rfl⟩
    | _ => exact ⟨_, _, _, rfl⟩
  · split
    · exact ⟨_, _, _, rfl⟩
    · split
      · exact ⟨_, _, _, rfl⟩
      · unfold applyTo
        split
        next =>
          split
          · exact ⟨_, _, _, rfl⟩
          · split <;> exact ⟨_, _, _, rfl⟩
        all_goals exact ⟨_, _, _, rfl⟩

/-- No phase touches the settings or the document around the cells. -/
theorem Phase.frame (phase : Phase operation before after) :
    after.settings = before.settings ∧ after.file = before.file := by
  cases phase with
  | @refreshed _ _ cells facade grouping =>
    obtain ⟨editor, refreshed⟩ := refreshViews_eq { before with facade, cells } grouping
    rw [refreshed]
    exact ⟨rfl, rfl⟩
  | @reported _ event =>
    obtain ⟨cells, executions, namespaces, applied⟩ := before.applyEvent_eq event
    rw [applied]
    exact ⟨rfl, rfl⟩
  | _ => exact ⟨rfl, rfl⟩

theorem Phases.frame (phases : Phases operation before after) :
    after.settings = before.settings ∧ after.file = before.file := by
  induction phases with
  | refl => exact ⟨rfl, rfl⟩
  | tail _ phase ih => exact ⟨phase.frame.1.trans ih.1, phase.frame.2.trans ih.2⟩

theorem Phases.settings (phases : Phases operation before after) : after.settings = before.settings :=
  phases.frame.1

/-! ## Views made anew -/

/-- Bringing the editor in line with its cell may close it, but not open another. -/
theorem attends_reloadEditor (session : Session) :
    ∃ editor, session.reloadEditor = { session with editor } ∧ Attends session.editor editor := by
  unfold reloadEditor
  split
  next closed => exact ⟨session.editor, rfl, fun later opened => ⟨later, opened, rfl, rfl⟩⟩
  next earlier opened =>
    dsimp only
    split
    next => exact ⟨none, rfl, nofun⟩
    next =>
      split
      all_goals
        refine ⟨_, rfl, fun later known => ⟨earlier, opened, ?_⟩⟩
        cases known
        exact ⟨rfl, rfl⟩

theorem phases_reloadEditor (session : Session) (operation : Operation) :
    Phases operation session session.reloadEditor := by
  obtain ⟨editor, reloaded, attends⟩ := session.attends_reloadEditor
  rw [reloaded]
  exact (Phase.attended attends).phases

theorem phases_repairAfter {drift : Drift} (disagrees : session.Disagrees drift) (operation : Operation) :
    Phases operation session (session.repairAfter drift) :=
  (Phase.noted disagrees).phases.trans (Phase.refreshed .same).phases

theorem phases_ensured (session : Session) (operation : Operation) :
    Phases operation session session.ensured := by
  unfold ensured
  split
  next => exact .refl session
  next drift found => exact phases_repairAfter (.inl found) operation

theorem Draft.phases {cells : CellList} {facade : Buffer} {grouping : Grouping}
    (draft : Draft session operation cells facade grouping) :
    Phases operation session ({ session with facade, cells }.rerender grouping) :=
  (Phase.refreshed draft).phases.trans (phases_ensured _ operation)

/-! ## One cell -/

theorem spanOrRepair_ok {index : Nat} {span : Span} (found : session.spanOrRepair index = (.ok span, after)) :
    after.spanOf? index = some span := by
  unfold spanOrRepair at found
  split at found
  next => cases found
  next =>
    split at found
    next there =>
      cases found
      exact there
    next =>
      dsimp only at found
      split at found
      next there =>
        cases found
        exact there
      next => cases found

theorem phases_spanOrRepair (session : Session) (index : Nat) (operation : Operation) :
    Phases operation session (session.spanOrRepair index).2 := by
  unfold spanOrRepair
  split
  next => exact .refl session
  next cell here =>
    split
    next => exact .refl session
    next missing =>
      have repaired := phases_repairAfter (.inr ⟨index, cell, here, missing, rfl⟩) operation
      dsimp only
      split <;> exact repaired

/-- A source that can be rendered is written where the cell is found. -/
theorem writeCell_eq {index : Nat} {span : Span} {source : Text}
    (checked : Markup.checkSource session.settings.tag source = .ok ())
    (found : session.spanOf? index = some span) (grouping : Grouping) :
    (session.writeCell index (Text.lines source) grouping).2 =
      session.withSource index span source grouping := by
  have there : session.spanOrRepair index = (.ok span, session) := by
    cases here : session.cells.get? index with
    | none =>
      rw [Session.spanOf?, Layout.spanOf?, show session.cells.cells[index]? = none from here] at found
      cases found
    | some cell => simp only [spanOrRepair, here, found]
  unfold writeCell
  rw [if_neg (lines_ne_nil source)]
  dsimp only
  rw [unlines_lines, checked, there]
  dsimp only
  split <;> rfl

theorem phases_writeCell (session : Session) (index : Nat) (source : Text) (grouping : Grouping)
    (operation : Operation) :
    Phases operation session (session.writeCell index (Text.lines source) grouping).2 := by
  unfold writeCell
  rw [if_neg (lines_ne_nil source)]
  dsimp only
  rw [unlines_lines]
  split
  next => exact .refl session
  next checked =>
    have looked := session.phases_spanOrRepair index operation
    split
    next fault middle refused =>
      rw [refused] at looked
      exact looked
    next old middle found =>
      rw [found] at looked
      rw [← looked.settings] at checked
      have written : Phase operation middle (middle.withSource index old source grouping) :=
        .written checked (spanOrRepair_ok found)
      -- Whether the cell is found again makes no difference to the session.
      split <;> exact looked.trans written.phases

theorem phases_replaceSource (session : Session) (index : Nat) (source : Text) (operation : Operation) :
    Phases operation session (session.replaceSource index (Text.lines source)).2 := by
  have written := session.phases_writeCell index source .alone operation
  unfold replaceSource
  split
  next fault after refused =>
    rw [refused] at written
    exact written
  next span after done =>
    rw [done] at written
    exact (written.trans (after.phases_reloadEditor operation)).trans (phases_ensured _ operation)

/-! ## Pending changes of the editor -/

theorem attends_map (editor : Option Editor) {change : Editor → Editor}
    (number : ∀ editor, (change editor).generation = editor.generation)
    (cell : ∀ editor, (change editor).cell = editor.cell) : Attends editor (editor.map change) := by
  intro later opened
  obtain ⟨earlier, known, rfl⟩ := Option.map_eq_some_iff.mp opened
  exact ⟨earlier, known, number earlier, cell earlier⟩

theorem phases_syncEditor (session : Session) (operation : Operation) :
    Phases operation session session.syncEditor.2 := by
  unfold syncEditor
  split
  next => exact .refl session
  next editor opened =>
    split
    next => exact .refl session
    next =>
      split
      next =>
        have closed : Phase operation session { session with editor := none } := .attended nofun
        exact closed.phases
      -- What the editor typed is written into its cell as one burst, then marked as synced.
      next index found =>
        have written := session.phases_writeCell index editor.buffer.text .burst operation
        rw [show Text.lines editor.buffer.text = editor.buffer.lines from rfl] at written
        split
        next fault after refused =>
          rw [refused] at written
          exact written
        next span after done =>
          rw [done] at written
          have marked : Phase operation after
              { after with editor := after.editor.map fun editor => editor.markSynced span } :=
            .attended (attends_map after.editor (fun _ => rfl) fun _ => rfl)
          exact (written.trans marked.phases).trans (phases_ensured _ operation)

theorem phases_flushed {α : Type} (session : Session) {next : Session → Outcome α}
    (onward : ∀ middle, middle.settings = session.settings → Phases operation middle (next middle).2) :
    Phases operation session (session.flushed next).2 := by
  unfold flushed
  split
  next =>
    have synced := session.phases_syncEditor operation
    split
    next fault middle refused =>
      rw [refused] at synced
      exact synced
    next flag middle done =>
      rw [done] at synced
      exact synced.trans (onward middle synced.settings)
  next => exact onward session rfl

/-! ## The operations -/

theorem phases_restructured {α : Type} (session : Session)
    {change : CellList → Except Fault (α × CellList)}
    (drafts : ∀ (middle : Session) (result : α) (cells : CellList), middle.settings = session.settings →
      change middle.cells = .ok (result, cells) → Draft middle operation cells middle.facade .alone) :
    Phases operation session (session.restructured change).2 := by
  refine session.phases_flushed fun middle settings => ?_
  split
  next => exact .refl middle
  next result cells changed => exact (drafts middle result cells settings changed).phases

theorem phases_insertCell (session : Session) (index : Nat) (kind : Kind) (source : Text) :
    Phases (.insertCell index kind source) session (session.insertCell index kind source).2 := by
  refine session.phases_restructured fun middle id cells settings inserted => ?_
  split at inserted
  next => cases inserted
  next checked =>
    rw [← settings] at checked
    exact .inserted checked inserted

/-- A list of cells that comes with no result is the list that was made. -/
theorem ok_of_map_unit {made : Except Fault CellList} {result : Unit} {after : CellList}
    (known : made.map (fun cells => ((), cells)) = .ok (result, after)) : made = .ok after := by
  cases made with
  | error fault => cases known
  | ok cells =>
    cases known
    rfl

theorem phases_editCell (session : Session) (id : Text) (expected : Span) (edits : List Edit) :
    Phases (.editCell id expected edits) session (session.editCell id expected edits).2 := by
  refine session.phases_flushed fun middle _ => ?_
  dsimp only
  split
  next => exact .refl middle
  next =>
    split
    next =>
      split
      next => exact .refl middle
      next =>
        split
        next => exact .refl middle
        next =>
          split
          next => exact .refl middle
          next => exact middle.phases_replaceSource _ _ _
    next => exact .refl middle

theorem phases_editFacade (session : Session) (edits : List Edit) (grouping : Grouping) :
    Phases (.editFacade edits grouping) session (session.editFacade edits grouping).2 := by
  refine session.phases_flushed fun middle _ => ?_
  dsimp only
  split
  next => exact .refl middle
  next =>
    split
    next => exact .refl middle
    next blocks read =>
      split
      next => exact .refl middle
      next => exact (Draft.edited read).phases

theorem ReadsFrom.phases {facade : Buffer} (reads : session.ReadsFrom operation facade) :
    Phases operation session ({ session with facade } : Session).syncFromFacade.2 := by
  unfold syncFromFacade
  split
  next unread => exact (Phase.refreshed (.unread reads unread)).phases
  next read => exact (Draft.read reads read).phases

theorem phases_travel (session : Session) {move : Buffer → Bool × Buffer}
    (travels : Travels operation move) : Phases operation session (session.travel move).2 := by
  refine session.phases_flushed fun middle _ => ?_
  dsimp only
  split
  next still => exact (Phase.idle travels (by simpa using still)).phases
  next moved =>
    obtain ⟨moved, other⟩ : (move middle.facade).1 = true ∧
        (move middle.facade).2.revision ≠ middle.facade.revision := by simpa using moved
    have read := (ReadsFrom.travelled travels moved other).phases
    split
    next stopped =>
      rw [stopped] at read
      exact read
    next done =>
      rw [done] at read
      exact read

theorem phases_commitEditor (session : Session) (operation : Operation) :
    Phases operation session session.commitEditor.2 :=
  session.phases_flushed fun _ _ => Phase.ended.phases

theorem phases_closeEditor (session : Session) (operation : Operation) :
    Phases operation session session.closeEditor := by
  unfold closeEditor
  split
  next => exact .refl session
  next =>
    have closed : Phase operation session.commitEditor.2 { session.commitEditor.2 with editor := none } :=
      .attended nofun
    exact (session.phases_commitEditor operation).trans closed.phases

theorem phases_openEditor (session : Session) (index : Nat) :
    Phases (.openEditor index) session (session.openEditor index).2 := by
  have looked := (session.phases_closeEditor (.openEditor index)).trans
    (session.closeEditor.phases_spanOrRepair index _)
  unfold openEditor
  split
  next fault middle refused =>
    rw [refused] at looked
    exact looked
  next span middle found =>
    rw [found] at looked
    split
    next => exact looked
    next cell here => exact looked.trans (Phase.opened here (spanOrRepair_ok found)).phases

theorem phases_queue (session : Session) (index : Nat) :
    Phases (.queue index) session (session.queue index).2 := by
  refine session.phases_flushed fun middle _ => ?_
  split
  next => exact .refl middle
  next cell here =>
    split
    next => exact .refl middle
    next code => exact (Phase.queued here (by simpa using code)).phases

/-- Every operation consists of its phases, whether it succeeds or is refused. -/
theorem phases_perform (session : Session) (operation : Operation) :
    Phases operation session (operation.perform session).2 := by
  cases operation with
  | insertCell index kind source => exact session.phases_insertCell index kind source
  | deleteCell index =>
    -- Without its result the operation does what the function does.
    have phases : Phases (.deleteCell index) session (session.deleteCell index).2 :=
      session.phases_restructured fun _ _ _ _ removed => .removed removed
    exact phases
  | moveCell source target =>
    exact session.phases_restructured fun _ _ _ _ moved => .moved (ok_of_map_unit moved)
  | setKind index kind =>
    exact session.phases_restructured fun _ _ _ _ changed => .retyped (ok_of_map_unit changed)
  | setSource index source =>
    exact session.phases_flushed fun middle _ => middle.phases_replaceSource index source _
  | editCell id expected edits => exact session.phases_editCell id expected edits
  | editFacade edits grouping => exact session.phases_editFacade edits grouping
  | openEditor index => exact session.phases_openEditor index
  | closeEditor => exact session.phases_closeEditor _
  | commitEditor => exact session.phases_commitEditor _
  | syncEditor => exact session.phases_syncEditor _
  | editBuffer change =>
    have typed := attends_map session.editor (fun _ => rfl : ∀ editor : Editor,
      ({ editor with buffer := change editor.buffer } : Editor).generation = _) fun _ => rfl
    exact (Phase.attended typed).phases
  | undo => exact session.phases_travel .undo
  | redo => exact session.phases_travel .redo
  | syncFromFacade => exact ReadsFrom.here.phases
  | repair => exact (Phase.refreshed .same).phases
  | queue index => exact session.phases_queue index
  | applyEvent event => exact Phase.reported.phases
  | trackShadow on => exact Phase.tracked.phases
  | takeShadowSplices => exact Phase.drained.phases

end Session

end Notebook

import Notebook.Proofs.Session.Phases
import Notebook.Proofs.Session.Sound
/-!
# The views agree after every operation

Opening a notebook makes a sound session, and every phase of an operation leads from a sound session to
a sound one. So every operation does, whether it succeeds or is refused. In every session that is
reachable the views agree with the cells, and no repair ever had anything to do.
-/
namespace Notebook.Session

open Text Layout

variable {session after : Session} {settings : Settings} {operation : Operation}

/-! ## Opening -/

theorem blocks_ofCells (cells : List Cell) : (CellList.ofCells cells).blocks = cells.map Cell.block := by
  have loaded (list : CellList) :
      (cells.foldl CellList.load list).blocks = list.blocks ++ cells.map Cell.block := by
    induction cells generalizing list with
    | nil => exact (List.append_nil _).symm
    | cons cell rest ih =>
      have here : (list.load cell).blocks = list.blocks ++ [cell.block] := by
        unfold CellList.load
        split <;> simp [CellList.blocks, CellList.freshId, Cell.block]
      rw [List.foldl_cons, ih, here, List.append_assoc]
      rfl
  exact loaded {}

theorem checkSources_eq_ok {tag : Text} {cells : List Cell} (checked : checkSources tag cells = .ok ()) :
    ∀ cell ∈ cells, Markup.checkSource tag cell.source = .ok () := by
  unfold checkSources at checked
  induction cells with
  | nil => exact List.forall_mem_nil _
  | cons cell rest ih =>
    rw [List.forM_eq_forM] at ih checked
    rw [List.forM_cons] at checked
    cases here : Markup.checkSource tag cell.source with
    | error fault =>
      rw [here] at checked
      cases checked
    | ok =>
      rw [here] at checked
      exact List.forall_mem_cons.mpr ⟨here, ih checked⟩

theorem sound_build {file : File} {cells : List Cell} (plain : IsLine settings.tag)
    (built : build file cells settings = .ok session) :
    session.Sound ∧ session.settings = settings := by
  obtain ⟨checked, rfl⟩ := build_eq_ok built
  have coherent := CellList.coherent_ofCells cells
  have page : ((Buffer.ofText (Markup.render settings.tag (CellList.ofCells cells).blocks)).withHistory
      settings.maxUndo).lines = (facadeFace settings.tag).page (CellList.ofCells cells).cells := by
    rw [page_facadeFace]
    exact Markup.lines_render plain _
  refine ⟨⟨plain, coherent, ?_, ⟨?_, ?_, Shadow.lines_ofCells _⟩, ?_, rfl⟩, rfl⟩
  · rw [blocks_ofCells]
    intro block member
    obtain ⟨cell, there, rfl⟩ := List.mem_map.mp member
    exact checkSources_eq_ok checked cell there
  · exact (lines_place _ _).trans (Markup.lines_render plain _)
  · exact placed_place (regular_facadeFace plain) coherent.distinct_cells page
  · exact ⟨_, history_place _ _, History.numbered_empty _, rfl⟩

/-! ## What events leave to the views -/

/-- Two sessions differ in what no view shows. -/
structure Unshown (before after : Session) : Prop where
  settings : after.settings = before.settings
  coherent : before.cells.Coherent → after.cells.Coherent
  cells : after.cells.cells.map shown = before.cells.cells.map shown
  facade : after.facade = before.facade
  shadow : after.shadow = before.shadow
  drifts : after.drifts = before.drifts

theorem Unshown.refl (session : Session) : Unshown session session :=
  ⟨rfl, id, rfl, rfl, rfl, rfl⟩

theorem Unshown.trans {a b c : Session} (there : Unshown a b) (onward : Unshown b c) :
    Unshown a c :=
  ⟨onward.settings.trans there.settings, onward.coherent ∘ there.coherent,
    onward.cells.trans there.cells, onward.facade.trans there.facade,
    onward.shadow.trans there.shadow, onward.drifts.trans there.drifts⟩

theorem Sound.unshown (sound : session.Sound) {after : Session} (same : Unshown session after) :
    Move session after :=
  sound.aside same.settings (same.coherent sound.coherent) same.cells (by rw [same.facade])
    (by rw [same.facade]) (same.facade ▸ sound.keeps) same.shadow same.drifts

theorem unshown_modifyAt (session : Session) (index : Nat) {change : Cell → Cell}
    (hidden : ∀ cell, shown (change cell) = shown cell) :
    Unshown session { session with cells := session.cells.modifyAt index change } :=
  ⟨rfl, fun coherent => coherent.modifyAt index fun cell => (shown_eq (hidden cell)).1,
    CellList.map_modify shown hidden session.cells.cells index, rfl, rfl, rfl⟩

theorem unshown_withCell (session : Session) (id : Text) {change : Cell → Cell}
    (hidden : ∀ cell, shown (change cell) = shown cell) :
    Unshown session (session.withCell id change) := by
  unfold withCell CellList.modifyCell
  split
  next index found => exact session.unshown_modifyAt index hidden
  next => exact .refl session

theorem unshown_settleAll (session : Session) : Unshown session session.settleAll := by
  unfold settleAll
  generalize session.executions = entries
  induction entries generalizing session with
  | nil => exact .refl session
  | cons entry rest ih =>
    refine Unshown.trans ?_ (ih (session.withCell entry.2 settled))
    exact session.unshown_withCell entry.2 (by intro _; rfl)

theorem unshown_applyGeneral (session : Session) (event : Event) :
    Unshown session (session.applyGeneral event).2 := by
  have settled := session.unshown_settleAll
  cases event with
  | shutdown =>
    exact ⟨settled.settings, settled.coherent, settled.cells, settled.facade, settled.shadow,
      settled.drifts⟩
  | restarted =>
    exact ⟨settled.settings, settled.coherent, settled.cells, settled.facade, settled.shadow,
      settled.drifts⟩
  | interrupted => exact settled
  | _ => exact .refl session

theorem unshown_applyTo (session : Session) (ticket : Nat) (id : Text) (event : Event) :
    Unshown session (session.applyTo ticket id event).2 := by
  have hidden {change : Cell → Cell} (same : ∀ cell, shown (change cell) = shown cell) :=
    session.unshown_withCell id same
  unfold applyTo
  split
  next =>
    split
    · exact hidden (by intro _; rfl)
    · split
      · exact hidden (by intro _; rfl)
      · exact .refl session
  next => exact hidden (by intro _; rfl)
  next => exact hidden (by intro _; rfl)
  next => exact hidden (by intro _; rfl)
  next => exact ⟨rfl, fun coherent => coherent, rfl, rfl, rfl, rfl⟩
  next => exact hidden (by intro _; rfl)
  next => exact .refl session

/-- No view shows what an event changes. -/
theorem unshown_applyEvent (session : Session) (event : Event) :
    Unshown session (session.applyEvent event).2 := by
  unfold applyEvent
  split
  · exact session.unshown_applyGeneral event
  · split
    · exact .refl session
    · split
      · exact ⟨rfl, fun coherent => coherent, rfl, rfl, rfl, rfl⟩
      · exact session.unshown_applyTo _ _ event

/-! ## What stays in its place -/

/-- Writing a cell leaves every identity in its place. -/
theorem ids_withSource (session : Session) (index : Nat) (span : Span) (source : Text)
    (grouping : Grouping) : CellList.ids (session.withSource index span source grouping).cells.cells =
      CellList.ids session.cells.cells :=
  CellList.map_modify Cell.id (fun _ => rfl : ∀ cell : Cell, ({ cell with source } : Cell).id = cell.id)
    session.cells.cells index

theorem ids_ticketed (session : Session) (index : Nat) (id : Text) :
    CellList.ids (session.ticketed index id).cells.cells = CellList.ids session.cells.cells :=
  CellList.map_modify Cell.id (fun _ => rfl : ∀ cell, (submitted cell).id = cell.id)
    session.cells.cells index

/-- No event touches an identity: what is shown of a cell begins with it. -/
theorem ids_applyEvent (session : Session) (event : Event) :
    CellList.ids (session.applyEvent event).2.cells.cells = CellList.ids session.cells.cells := by
  have same := congrArg (List.map Prod.fst) (session.unshown_applyEvent event).cells
  rwa [List.map_map, List.map_map] at same

/-- The record of the shadow's changes is not part of its text. -/
theorem Sound.recorded (sound : session.Sound) {shadow : Buffer}
    (text : shadow.text = session.shadow.text) : Move session { session with shadow } := by
  refine ⟨⟨sound.plain, sound.coherent, sound.free, ?_, sound.keeps, sound.steady⟩, rfl⟩
  refine ⟨sound.inStep.facade, sound.inStep.anchors, ?_⟩
  rw [Buffer.lines, text]
  exact sound.inStep.shadow

/-! ## Every phase is a move -/

theorem Move.trans {before after : Session} (first : Move before session)
    (second : Move session after) : Move before after :=
  ⟨second.sound, second.settings.trans first.settings⟩

section History

variable {move : Buffer → Bool × Buffer} {buffer : Buffer}

theorem Travels.keeps {limit : Nat} (travels : Travels operation move) (keeps : buffer.Keeps limit) :
    (move buffer).2.Keeps limit := by
  cases travels with
  | undo => exact keeps.undo
  | redo => exact keeps.redo

/-- If nothing was moved, only the history may have changed. -/
theorem Travels.idle (travels : Travels operation move)
    (still : (move buffer).1 = false ∨ (move buffer).2.revision = buffer.revision) :
    (move buffer).2.text = buffer.text ∧ (move buffer).2.anchors = buffer.anchors := by
  cases travels with
  | undo => exact Buffer.undo_idle still
  | redo => exact Buffer.redo_idle still

end History

section Drafts

variable {cells : CellList} {facade : Buffer} {grouping : Grouping}

theorem Draft.keeps {limit : Nat} (draft : Draft session operation cells facade grouping)
    (keeps : session.facade.Keeps limit) : facade.Keeps limit := by
  refine draft.facade keeps (fun edits grouping => ?_) fun travels => travels.keeps keeps
  unfold Edit.applyBatch
  dsimp only
  split
  · exact (keeps.endGroup.applyAll edits .burst).endGroup
  · exact keeps.applyAll edits .burst

theorem Draft.coherent (draft : Draft session operation cells facade grouping)
    (coherent : session.cells.Coherent) : cells.Coherent := by
  cases draft with
  | same | unread => exact coherent
  | inserted _ inserted => exact coherent.insert inserted
  | removed removed => exact coherent.remove removed
  | moved moved => exact coherent.move moved
  | retyped retyped => exact coherent.setKind retyped
  | edited | read => exact coherent.reconcile _

/-- Blocks that were read from lines of a buffer can be rendered. -/
theorem free_of_parseLines {tag : Text} {buffer : Buffer} {blocks : List Block}
    (read : Markup.parseLines tag buffer.lines = .ok blocks) (list : CellList) :
    ∀ block ∈ (list.reconcile blocks).blocks, Markup.checkSource tag block.source = .ok () := by
  rw [CellList.blocks_reconcile]
  intro block member
  rw [Markup.checkSource_iff]
  exact Markup.parse_sources read block member

/-- The sources of a draft are old ones, or they were checked or read. -/
theorem Draft.free (draft : Draft session operation cells facade grouping)
    (free : ∀ block ∈ session.cells.blocks,
      Markup.checkSource session.settings.tag block.source = .ok ()) :
    ∀ block ∈ cells.blocks, Markup.checkSource session.settings.tag block.source = .ok () := by
  have kept (old : ∀ cell ∈ cells.cells, ∃ former ∈ session.cells.cells, former.source = cell.source) :
      ∀ block ∈ cells.blocks, Markup.checkSource session.settings.tag block.source = .ok () := by
    intro block member
    obtain ⟨cell, there, rfl⟩ := List.mem_map.mp member
    obtain ⟨former, before, same⟩ := old cell there
    have checked := free former.block (List.mem_map_of_mem before)
    rwa [Cell.block, same] at checked
  cases draft with
  | same | unread => exact free
  | edited read | read _ read => exact free_of_parseLines read _
  | inserted checked inserted =>
    unfold CellList.insert at inserted
    split at inserted
    · cases inserted
    next within =>
      cases inserted
      intro block member
      obtain ⟨cell, there, rfl⟩ := List.mem_map.mp member
      rcases (List.mem_insertIdx (Nat.le_of_not_lt within)).mp there with rfl | old
      · exact checked
      · exact free _ (List.mem_map_of_mem old)
  | removed removed =>
    unfold CellList.remove at removed
    split at removed
    · cases removed
    next =>
      cases removed
      exact kept fun cell there => ⟨cell, List.mem_of_mem_eraseIdx there, rfl⟩
  | moved moved =>
    exact kept fun cell there => ⟨cell, (CellList.perm_move moved).1.mem_iff.mp there, rfl⟩
  | retyped retyped =>
    -- The sources stay the same list, and whether one can be rendered does not depend on the kind.
    have sources : cells.cells.map Cell.source = session.cells.cells.map Cell.source := by
      rw [CellList.setKind_ok retyped]
      exact CellList.map_modify Cell.source (CellList.source_retyped _) session.cells.cells _
    exact kept fun cell there => List.mem_map.mp (sources ▸ List.mem_map_of_mem there)

end Drafts

/-- In a sound session there is nothing to repair. -/
theorem Sound.not_disagrees (sound : session.Sound) (drift : Drift) : ¬session.Disagrees drift := by
  rintro (found | ⟨index, cell, here, missing, -⟩)
  · rw [sound.inStep.checkInvariants sound.plain] at found
    cases found
  · obtain ⟨above, below, cells, rfl⟩ := exists_around here
    rw [sound.inStep.spanOf? sound.plain cells] at missing
    cases missing

/-- Every phase leads from a sound session to a sound one. -/
theorem Sound.phase (sound : session.Sound) (phase : Phase operation session after) :
    Move session after := by
  cases phase with
  | refreshed draft =>
    exact sound.refreshed (draft.keeps sound.keeps) (draft.coherent sound.coherent)
      (draft.free sound.free) _
  | noted disagrees => exact absurd disagrees (sound.not_disagrees _)
  | written checked found =>
    rw [← writeCell_eq checked found]
    exact sound.written _ _ _
  | attended | opened => exact sound.unseen rfl rfl rfl rfl rfl
  | ended => exact sound.aside rfl sound.coherent rfl rfl rfl sound.keeps.endGroup rfl rfl
  | idle travels still =>
    obtain ⟨text, anchors⟩ := travels.idle still
    exact sound.aside rfl sound.coherent rfl text anchors (travels.keeps sound.keeps) rfl rfl
  | @queued _ index =>
    have same := session.unshown_modifyAt index (fun _ => rfl : ∀ cell, shown (submitted cell) = _)
    exact sound.unshown ⟨same.settings, same.coherent, same.cells, rfl, rfl, rfl⟩
  | reported => exact sound.unshown (session.unshown_applyEvent _)
  | tracked | drained => exact sound.recorded rfl

theorem Sound.phases (sound : session.Sound) (phases : Phases operation session after) :
    Move session after :=
  phases.keep (fun phase there => there.trans (there.sound.phase phase)) sound.refl

/-- What every phase keeps that begins at a sound session, they keep together. -/
theorem Sound.keep {holds : Session → Prop} (sound : session.Sound)
    (phases : Phases operation session after)
    (one : ∀ {session after : Session}, session.Sound → Phase operation session after →
      holds session → holds after) (start : holds session) : holds after := by
  induction phases with
  | refl => exact start
  | tail there phase ih => exact one (sound.phases there).sound phase ih

/-- Bringing in what the editor holds is a move. -/
theorem Sound.synced (sound : session.Sound) : Move session session.syncEditor.2 :=
  sound.phases (session.phases_syncEditor .syncEditor)

theorem Sound.undo (sound : session.Sound) : Move session session.undo.2 :=
  sound.phases (session.phases_travel .undo)

/-- Every operation leads from a sound session to a sound one. -/
theorem Sound.perform (sound : session.Sound) (operation : Operation) :
    Move session (operation.perform session).2 :=
  sound.phases (session.phases_perform operation)

/-! ## Runs -/

theorem Reachable.sound (reachable : Reachable settings session) (plain : IsLine settings.tag) :
    session.Sound ∧ session.settings = settings := by
  induction reachable using Reachable.from_build with
  | built _ built => exact sound_build plain built
  | step _ operation ih =>
    obtain ⟨sound, same⟩ := ih
    have move := sound.perform operation
    exact ⟨move.sound, move.settings.trans same⟩

/-- Whatever was done to a notebook since it was opened, and whether it succeeded or was refused: the
check of the invariants passes, the facade is the rendering of the cells with every anchor on the
line where its cell starts, the shadow shows the cells line by line, and no disagreement was ever
found, neither by the check that follows a change nor by the search for a cell's place. -/
theorem Reachable.views_agree (reachable : Reachable settings session) (plain : '\n' ∉ settings.tag) :
    session.checkInvariants = .ok () ∧ session.drifts = [] ∧
      session.facade.lines = Markup.renderLines settings.tag session.cells.blocks ∧
      (∀ above cell below, session.cells.cells = above ++ cell :: below →
        session.facade.anchorLine cell.id = some (depth above)) ∧
      session.shadow.lines = Shadow.lines session.cells.cells ∧
      session.shadow.lineCount = session.facade.lineCount := by
  obtain ⟨sound, rfl⟩ := reachable.sound plain
  have inStep := sound.inStep
  refine ⟨inStep.checkInvariants sound.plain, sound.steady, inStep.facade, ?_, inStep.shadow, ?_⟩
  · exact fun above cell below split => (inStep.anchors cell _ ⟨above, below, split, rfl⟩).anchorLine
  · rw [← Buffer.length_lines, ← Buffer.length_lines, inStep.facade, inStep.shadow,
      session.renderedLines_eq, length_shadowLines sound.plain]

/-- So it is with a notebook of one cell after an insertion, a change and an undo. -/
theorem views_agree_after_undo : ∃ opened session : Session,
    Session.ofCells [{ id := "a", kind := .code, source := "x = 1" }] {} = .ok opened ∧
    session = (Operation.perform (Operation.perform (Operation.perform opened
      (.insertCell 1 .markdown "some\nprose")).2 (.setSource 0 "x = 2\ny = 3")).2 .undo).2 ∧
    session.cells.blocks = [⟨.code, "x = 1"⟩, ⟨.markdown, "some\nprose"⟩] ∧
    session.checkInvariants = .ok () := by
  have opened : Reachable {} _ := .cells (rfl :
    Session.ofCells [{ id := "a", kind := .code, source := "x = 1" }] {} = .ok _)
  refine ⟨_, _, rfl, rfl, by decide +kernel, ?_⟩
  exact (Reachable.views_agree (((opened.step (.insertCell 1 .markdown "some\nprose")).step
    (.setSource 0 "x = 2\ny = 3")).step .undo) (by decide)).1

end Notebook.Session

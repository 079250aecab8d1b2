import Notebook.Proofs.Buffer.Stops
import Notebook.Proofs.Session.Undo
/-!
# Undo comes to an end

Between two operations the facade is the rendering of the cells, and an operation begins its group at such
a text. So undo stops at a rendered text, reading it back changes nothing, and what was undone can be
redone, as long as anything is left to undo. At the bottom undo stops at the floor of the history. If that
is a rendered text too, which it is until the limit forgets a step, then undo comes to its end. If it is
not, because the limit has cut a group in two, then reading it back is a change that is recorded in place
of what was undone, and undo goes round in a circle for ever.
-/
namespace Notebook

open Text Layout

namespace Markup

variable {tag text : Text}

/-- The text is the rendering of the cells that are read from it. -/
def IsRendered (tag text : Text) : Prop := (parse tag text).map (render tag) = .ok text

instance (tag text : Text) : Decidable (IsRendered tag text) := inferInstanceAs (Decidable (_ = _))

theorem isRendered_iff :
    IsRendered tag text ↔ ∃ blocks, parse tag text = .ok blocks ∧ render tag blocks = text := by
  unfold IsRendered
  cases parse tag text with
  | error fault => simp [Except.map]
  | ok blocks => simp [Except.map]

end Markup

namespace Session

variable {session after : Session} {operation : Operation}

/-! ## Every operation begins at a rendered text -/

/-- Undo of the facade stops at rendered texts. -/
def Stops (session : Session) : Prop :=
  session.facade.StopsAt (Markup.IsRendered session.settings.tag) (max session.settings.maxUndo 1)

theorem Sound.isRendered (sound : session.Sound) :
    Markup.IsRendered session.settings.tag session.facade.text := by
  refine Markup.isRendered_iff.mpr ⟨session.cells.blocks, sound.reads, ?_⟩
  rw [Markup.render, ← session.facade.unlines_lines, sound.inStep.facade]
  rfl

/-- Only the first edit of a batch is made at a rendered text. The others join its group. -/
theorem Stops.applyBatch (stops : session.Stops)
    (rendered : Markup.IsRendered session.settings.tag session.facade.text) (edits : List Edit)
    (grouping : Grouping) :
    (Edit.applyBatch edits grouping session.facade).StopsAt (Markup.IsRendered session.settings.tag)
      (max session.settings.maxUndo 1) := by
  unfold Edit.applyBatch
  dsimp only
  split
  · exact (stops.endGroup.applyAll (.inr rendered) edits).endGroup
  · exact stops.applyAll (.inr rendered) edits

theorem Travels.stopsAt {move : Buffer → Bool × Buffer} (travels : Travels operation move)
    {form : Text → Prop} {limit : Nat} {buffer : Buffer} (stops : buffer.StopsAt form limit) :
    (move buffer).2.StopsAt form limit := by
  cases travels with
  | undo => exact stops.undo
  | redo => exact stops.redo

theorem Sound.stops_refreshViews (sound : session.Sound) (stops : session.Stops) {cells : CellList}
    {facade : Buffer} {grouping : Grouping} (draft : Draft session operation cells facade grouping) :
    ({ session with facade, cells }.refreshViews grouping).Stops := by
  have drafted : { session with facade, cells }.Stops :=
    draft.facade stops (fun edits grouping => stops.applyBatch sound.isRendered edits grouping)
      fun travels => travels.stopsAt stops
  -- What is a step of its own is drafted from the facade as it is, which is a rendered text.
  have fits : grouping = .amend ∨ Markup.IsRendered session.settings.tag facade.text := by
    cases draft with
    | inserted | removed | moved | retyped => exact .inr sound.isRendered
    | same | edited | read | unread => exact .inl rfl
  obtain ⟨editor, refreshed⟩ := refreshViews_eq { session with facade, cells } grouping
  rw [refreshed]
  exact (drafted.setLines _ fits).still (text_place _ _) (revision_place _ _)
    (.inl (history_place _ _))

theorem Sound.stops_withSource (sound : session.Sound) (stops : session.Stops) (index : Nat)
    (span : Span) (source : Text) (grouping : Grouping) :
    (session.withSource index span source grouping).Stops := by
  have written := stops.replaceLines span.contentStart span.contentStop (Text.lines source)
    (.inr sound.isRendered : grouping = .amend ∨ _)
  unfold Session.withSource
  dsimp only
  split
  · exact written.still (text_place _ _) (revision_place _ _) (.inl (history_place _ _))
  · exact written

theorem Sound.stops_phase (sound : session.Sound) (stops : session.Stops)
    (phase : Phase operation session after) : after.Stops := by
  cases phase with
  | refreshed draft => exact sound.stops_refreshViews stops draft
  | written => exact sound.stops_withSource stops _ _ _ _
  | noted | attended | opened | queued | tracked | drained => exact stops
  | ended => exact Buffer.StopsAt.endGroup stops
  | idle travels => exact travels.stopsAt stops
  | @reported _ event =>
    have same := session.unshown_applyEvent event
    rw [Stops, same.facade, same.settings]
    exact stops

theorem Sound.stops_perform (sound : session.Sound) (stops : session.Stops) (operation : Operation) :
    (operation.perform session).2.Stops :=
  sound.keep (session.phases_perform operation)
    (fun sound phase stops => sound.stops_phase stops phase) stops

theorem stops_build {settings : Settings} {file : File} {cells : List Cell} (plain : IsLine settings.tag)
    (built : build file cells settings = .ok session) : session.Stops := by
  have rendered := (sound_build plain built).1.isRendered
  obtain ⟨-, rfl⟩ := build_eq_ok built
  rw [text_place] at rendered
  exact (Buffer.stopsAt_start rendered _).still (text_place _ _) (revision_place _ _)
    (.inl (history_place _ _))

theorem Reachable.stops {settings : Settings} (reachable : Reachable settings session)
    (plain : IsLine settings.tag) : session.Stops := by
  induction reachable using Reachable.from_build with
  | built _ built => exact stops_build plain built
  | step before operation ih => exact (before.sound plain).1.stops_perform ih operation

/-! ## One undo -/

/-- Writing the rendering of cells into a facade that shows something else records one step. -/
theorem setLines_rendering {tag : Text} (plain : IsLine tag) (facade : Buffer) (blocks : List Block) :
    (Markup.render tag blocks = facade.text →
      (facade.setLines (Markup.renderLines tag blocks) .amend).2 = facade) ∧
    (Markup.render tag blocks ≠ facade.text → ∃ start stop inserted,
      (facade.setLines (Markup.renderLines tag blocks) .amend).2 =
        facade.replace start stop inserted .amend) := by
  constructor
  · intro same
    rw [← Markup.lines_render plain, same]
    exact congrArg Prod.snd (facade.setLines_self .amend)
  · intro other
    rcases facade.setLines_cases (Markup.renderLines tag blocks) .amend with
      idle | ⟨start, stop, inserted, replaced, -⟩
    · have text := facade.text_setLines (Markup.renderLines tag blocks) .amend
      rw [idle] at text
      exact absurd text.symm other
    · exact ⟨start, stop, inserted, replaced⟩

/-- Reading the cells from a facade gives the fault of the reading, if there is one. It leaves a facade
alone that is a rendered text, and otherwise records one step that joins the newest group. -/
theorem Sound.reread (sound : session.Sound) (facade : Buffer) :
    ∃ after, ({ session with facade } : Session).syncFromFacade =
        (((Markup.parse session.settings.tag facade.text).mapError .markup).map fun _ => (), after) ∧
      after.editorIsDirty = false ∧
      (Markup.IsRendered session.settings.tag facade.text → after.facade.text = facade.text ∧
        after.facade.history = facade.history) ∧
      (¬Markup.IsRendered session.settings.tag facade.text → ∃ start stop inserted,
        let changed := facade.replace start stop inserted .amend
        after.facade.text = changed.text ∧ after.facade.history = changed.history) := by
  have settled {after : Session} {cells : List Cell} {blocks : List Block} (placed : after.facade =
        place cells (facade.setLines (Markup.renderLines session.settings.tag blocks) .amend).2)
      (same : Markup.render session.settings.tag blocks = facade.text ↔
        Markup.IsRendered session.settings.tag facade.text) :
      (Markup.IsRendered session.settings.tag facade.text → after.facade.text = facade.text ∧
        after.facade.history = facade.history) ∧
      (¬Markup.IsRendered session.settings.tag facade.text → ∃ start stop inserted,
        let changed := facade.replace start stop inserted .amend
        after.facade.text = changed.text ∧ after.facade.history = changed.history) := by
    obtain ⟨idle, busy⟩ := setLines_rendering sound.plain facade blocks
    rw [placed, text_place, history_place, ← same]
    constructor
    · intro rendered
      rw [idle rendered]
      exact ⟨rfl, rfl⟩
    · intro other
      obtain ⟨start, stop, inserted, replaced⟩ := busy other
      exact ⟨start, stop, inserted, by rw [replaced], by rw [replaced]⟩
  unfold Session.syncFromFacade
  cases read : Markup.parse session.settings.tag facade.text with
  | error fault =>
    have unread : Markup.parseLines session.settings.tag facade.lines = .error fault := read
    obtain ⟨editor, refreshed⟩ := refreshViews_eq { session with facade } .amend
    have placed := congrArg Session.facade refreshed
    simp only [unread]
    refine ⟨_, rfl, reloadEditor_clean _, settled placed ⟨fun same => ?_, fun rendered => ?_⟩⟩
    · -- The rendering of the cells is a text that is read.
      have reads := sound.reads
      rw [sound.inStep.facade] at reads
      rw [Markup.parse, ← same, Markup.lines_render sound.plain] at read
      cases read.symm.trans reads
    · obtain ⟨blocks, reads, -⟩ := Markup.isRendered_iff.mp rendered
      cases read.symm.trans reads
  | ok blocks =>
    have reads : Markup.parseLines session.settings.tag facade.lines = .ok blocks := read
    let next : Session := { session with facade, cells := session.cells.reconcile blocks }
    have shown : next.cells.blocks = blocks := CellList.blocks_reconcile _ _
    have distinct : (CellList.ids next.cells.cells).Nodup :=
      (sound.coherent.reconcile blocks).distinct_cells
    have plain : IsLine next.settings.tag := sound.plain
    obtain ⟨placed, -, still⟩ := rerender_spec plain distinct .amend
    rw [renderedLines, shown] at placed
    simp only [reads]
    refine ⟨_, rfl, still, settled placed ?_⟩
    rw [Markup.isRendered_iff]
    constructor
    · exact fun same => ⟨blocks, read, same⟩
    · rintro ⟨others, again, same⟩
      obtain rfl := Except.ok.inj (read.symm.trans again)
      exact same

/-- With nothing to undo, undo says so. Otherwise the facade moves back by a group and is read again. -/
theorem undo_eq (clean : session.editorIsDirty = false) : session.undo =
    if session.facade.undoDepth = 0 then
      (.ok false, { session with facade := session.facade.undo.2 })
    else
      let read := ({ session with facade := session.facade.undo.2 } : Session).syncFromFacade
      (read.1.map fun _ => true, read.2) := by
  obtain ⟨moved, -, -⟩ := session.facade.stacks_undo
  have revision := session.facade.revision_undo
  rw [Session.undo, Session.travel, flushed_of_clean clean]
  -- Whether anything moved is read off the revision, which counts the splices undone.
  cases stack : session.facade.undoSteps with
  | nil =>
    have bottom : session.facade.undoDepth = 0 := by rw [Buffer.undoDepth_eq, stack]; rfl
    simp [moved, stack, bottom]
  | cons step rest =>
    have some : session.facade.undoDepth ≠ 0 := by simp [Buffer.undoDepth_eq, stack]
    have other : session.facade.undo.2.revision ≠ session.facade.revision := by
      simp only [revision, stack, newestGroup, List.length_cons]
      omega
    simp only [moved, stack, other, some, List.isEmpty_cons, Bool.not_false, if_false]
    rcases ({ session with facade := session.facade.undo.2 } : Session).syncFromFacade with
      ⟨result, after⟩
    cases result <;> rfl

/-- What there is to undo and to redo after one undo. -/
theorem Sound.undo_spec (sound : session.Sound) (stops : session.Stops)
    (clean : session.editorIsDirty = false) (some : 0 < session.facade.undoDepth) :
    let back := session.facade.undo.2
    let after := session.undo.2
    session.undo.1 =
        ((Markup.parse session.settings.tag back.text).mapError .markup).map (fun _ => true) ∧
      after.editorIsDirty = false ∧ after.facade.floor = session.facade.floor ∧
      back.undoDepth < session.facade.undoDepth ∧
      (Markup.IsRendered session.settings.tag back.text →
        after.facade.undoDepth = back.undoDepth ∧ after.facade.canRedo = true) ∧
      (¬Markup.IsRendered session.settings.tag back.text →
        back.undoDepth = 0 ∧ after.facade.undoDepth = 1 ∧ after.facade.canRedo = false) := by
  intro back after
  obtain ⟨read, reread, still, kept, made⟩ := sound.reread back
  obtain ⟨-, below, undone⟩ := session.facade.stacks_undo
  have some' : session.facade.undoSteps ≠ [] := by
    rwa [Buffer.undoDepth_eq, List.length_pos_iff] at some
  have undoes := undo_eq clean
  rw [if_neg (Nat.ne_of_gt some), reread] at undoes
  have result := congrArg Prod.fst undoes
  obtain rfl : after = read := congrArg Prod.snd undoes
  obtain ⟨form, bottom⟩ := stops.text_undo
  have fewer : back.undoDepth < session.facade.undoDepth := by
    have all := congrArg List.length (newestGroup_append_belowNewest session.facade.undoSteps)
    have moved := List.length_pos_of_ne_nil (mt newestGroup_eq_nil some')
    rw [List.length_append] at all
    rw [Buffer.undoDepth_eq, Buffer.undoDepth_eq, below]
    omega
  have floor := session.facade.floor_undo
  by_cases rendered : Markup.IsRendered session.settings.tag back.text
  · obtain ⟨text, history⟩ := kept rendered
    have steps := Buffer.undoSteps_of_history history
    refine ⟨?_, still, (Buffer.floor_of_same text steps).trans floor, fewer, fun _ => ⟨?_, ?_⟩,
      absurd rendered⟩
    · rw [result]
      cases Markup.parse session.settings.tag back.text <;> rfl
    · rw [Buffer.undoDepth_eq, Buffer.undoDepth_eq, steps]
    · have redo : after.facade.redoSteps = back.redoSteps := by
        rw [Buffer.redoSteps, Buffer.redoSteps, history]
      rw [Buffer.canRedo_eq, redo, undone]
      simp [mt newestGroup_eq_nil some']
  · -- The text is that of the floor, and the step that reading it records is all that can be undone.
    have none : back.undoDepth = 0 := Nat.eq_zero_of_not_pos fun left => rendered (form left)
    obtain ⟨start, stop, inserted, text, history⟩ := made rendered
    obtain ⟨one, redo, ground⟩ := (Buffer.StopsAt.undo stops).replace_floor none start stop inserted
      .amend
    have steps := Buffer.undoSteps_of_history history
    refine ⟨?_, still, ?_, fewer, fun yes => absurd yes rendered, fun _ => ⟨none, ?_, ?_⟩⟩
    · rw [result]
      cases Markup.parse session.settings.tag back.text <;> rfl
    · rw [Buffer.floor_of_same text steps, ground]
      exact bottom none
    · rw [Buffer.undoDepth_eq, steps, ← Buffer.undoDepth_eq, one]
    · rw [← redo, Buffer.canRedo, Buffer.canRedo, history]

theorem undo_bottom (clean : session.editorIsDirty = false) :
    session.undo.1 = .ok false ↔ session.facade.undoDepth = 0 := by
  rw [undo_eq clean]
  split
  next bottom => exact iff_of_true rfl bottom
  next some =>
    refine iff_of_false ?_ some
    dsimp only
    generalize ({ session with facade := session.facade.undo.2 } : Session).syncFromFacade = read
    rcases read with ⟨result, after⟩
    cases result <;> simp [Except.map]

theorem Sound.stops_undo (sound : session.Sound) (stops : session.Stops) : session.undo.2.Stops :=
  sound.stops_perform stops .undo

/-! ## Undo over and over -/

/-- The session after so many undos. -/
def undoTimes : Nat → Session → Session
  | 0, session => session
  | calls + 1, session => undoTimes calls session.undo.2

/-- Over a floor that is a rendered text undo stops at rendered texts only. -/
theorem Stops.rendered (stops : session.Stops)
    (ground : Markup.IsRendered session.settings.tag session.facade.floor) :
    Markup.IsRendered session.settings.tag session.facade.undo.2.text := by
  obtain ⟨form, bottom⟩ := stops.text_undo
  rcases Nat.eq_zero_or_pos session.facade.undo.2.undoDepth with none | left
  · rwa [bottom none]
  · exact form left

/-- What was taken back from a rendered text is there to redo, and less is left to undo. -/
theorem Sound.undo_rendered (sound : session.Sound) (stops : session.Stops)
    (clean : session.editorIsDirty = false) (some : 0 < session.facade.undoDepth)
    (rendered : Markup.IsRendered session.settings.tag session.facade.undo.2.text) :
    session.undo.1 = .ok true ∧
      session.undo.2.facade.undoDepth < session.facade.undoDepth ∧
      session.undo.2.facade.canRedo = true := by
  obtain ⟨result, -, -, fewer, kept, -⟩ := sound.undo_spec stops clean some
  obtain ⟨depth, redo⟩ := kept rendered
  obtain ⟨blocks, read, -⟩ := Markup.isRendered_iff.mp rendered
  refine ⟨?_, depth ▸ fewer, redo⟩
  rw [result, read]
  rfl

theorem Sound.undo_ends (sound : session.Sound) (stops : session.Stops)
    (clean : session.editorIsDirty = false)
    (ground : Markup.IsRendered session.settings.tag session.facade.floor) (bound : Nat)
    (within : session.facade.undoDepth ≤ bound) :
    ∃ calls ≤ bound, (undoTimes calls session).undo.1 = .ok false ∧
      ∀ earlier < calls, (undoTimes earlier session).undo.1 = .ok true := by
  -- On a bound for the steps: over rendered ground each undo takes some and adds none.
  induction bound generalizing session with
  | zero =>
    exact ⟨0, Nat.le_refl 0, (undo_bottom clean).mpr (Nat.eq_zero_of_le_zero within), by simp⟩
  | succ bound ih =>
    rcases Nat.eq_zero_or_pos session.facade.undoDepth with none | some
    · exact ⟨0, Nat.zero_le _, (undo_bottom clean).mpr none, by simp⟩
    · obtain ⟨-, still, floor, -⟩ := sound.undo_spec stops clean some
      obtain ⟨first, fewer, -⟩ := sound.undo_rendered stops clean some (stops.rendered ground)
      have move := sound.undo
      obtain ⟨calls, few, last, before⟩ := ih move.sound (sound.stops_undo stops) still
        (by rw [move.settings, floor]; exact ground) (by omega)
      refine ⟨calls + 1, Nat.succ_le_succ few, last, fun earlier sooner => ?_⟩
      cases earlier with
      | zero => exact first
      | succ earlier => exact before earlier (Nat.lt_of_succ_lt_succ sooner)

/-- Over a floor that is no rendered text there is always something to undo. -/
theorem Sound.undo_circles (sound : session.Sound) (stops : session.Stops)
    (clean : session.editorIsDirty = false)
    (ground : ¬Markup.IsRendered session.settings.tag session.facade.floor) (calls : Nat) :
    (undoTimes calls session).undo.1 ≠ .ok false := by
  have some : 0 < session.facade.undoDepth := by
    apply Nat.pos_of_ne_zero
    intro none
    apply ground
    rw [Buffer.undoDepth_eq, List.length_eq_zero_iff] at none
    rw [Buffer.floor_of_none none]
    exact sound.isRendered
  -- On the calls: a text that is no rendering is read back as a change of its own, so a step to undo
  -- is always left, whether undo came to the ground or stopped above it.
  induction calls generalizing session with
  | zero => exact mt (undo_bottom clean).mp (Nat.ne_of_gt some)
  | succ calls ih =>
    obtain ⟨-, still, floor, -, kept, changed⟩ := sound.undo_spec stops clean some
    have move := sound.undo
    refine ih move.sound (sound.stops_undo stops) still ?_ ?_
    · rw [move.settings, floor]
      exact ground
    · by_cases rendered : Markup.IsRendered session.settings.tag session.facade.undo.2.text
      · rw [(kept rendered).1]
        apply Nat.pos_of_ne_zero
        intro none
        exact ground (stops.text_undo.2 none ▸ rendered)
      · rw [(changed rendered).2.1]
        exact Nat.one_pos

/-- In every state of a notebook without pending changes of the editor: undo says that there is nothing to
do exactly if no step is left. Otherwise the facade goes back over the newest group, which is read, and
that fails as reading the text fails. If the text is a rendered one, undo succeeds, fewer steps are left,
and a redo is there. That is so as long as anything lies below the group. At the bottom it depends on the
floor of the history: if the floor is a rendered text, and it is one until more splices were made than the
limit allows steps, then no undo fails, and after at most as many as there are steps nothing is left. If it
is none, then reading it back is recorded as the one step that is left, no redo is there, and undo never
comes to an end. -/
theorem Reachable.undo_ends_iff {settings : Settings} (reachable : Reachable settings session)
    (plain : '\n' ∉ settings.tag) (clean : session.editorIsDirty = false) :
    let facade := session.facade
    let back := facade.undo.2
    let after := session.undo.2.facade
    (session.undo.1 = .ok false ↔ facade.undoDepth = 0) ∧
    (0 < facade.undoDepth → session.undo.1 =
        ((Markup.parse settings.tag back.text).mapError .markup).map (fun _ => true) ∧
      (Markup.IsRendered settings.tag back.text → session.undo.1 = .ok true ∧
        after.undoDepth < facade.undoDepth ∧ after.canRedo = true) ∧
      (¬Markup.IsRendered settings.tag back.text → after.undoDepth = 1 ∧ after.canRedo = false)) ∧
    (0 < back.undoDepth → Markup.IsRendered settings.tag back.text) ∧
    (back.undoDepth = 0 → back.text = facade.floor) ∧
    (facade.revision ≤ max settings.maxUndo 1 → Markup.IsRendered settings.tag facade.floor) ∧
    (Markup.IsRendered settings.tag facade.floor → ∃ calls ≤ facade.undoDepth,
      (undoTimes calls session).undo.1 = .ok false ∧
        ∀ earlier < calls, (undoTimes earlier session).undo.1 = .ok true) ∧
    (¬Markup.IsRendered settings.tag facade.floor → ∀ calls,
      (undoTimes calls session).undo.1 ≠ .ok false) := by
  intro facade back after
  obtain ⟨sound, rfl⟩ := reachable.sound plain
  have stops := reachable.stops plain
  obtain ⟨form, bottom⟩ := stops.text_undo
  refine ⟨undo_bottom clean, fun some => ?_, form, bottom, stops.floor, fun ground => ?_, fun ground => ?_⟩
  · obtain ⟨result, -, -, -, -, changed⟩ := sound.undo_spec stops clean some
    exact ⟨result, sound.undo_rendered stops clean some, fun other => (changed other).2⟩
  · exact sound.undo_ends stops clean ground _ (Nat.le_refl _)
  · exact sound.undo_circles stops clean ground

/-- With room for one step only, two edits in one batch leave a floor that is no rendered text: undo brings
back the text after the first of them, which is rendered anew, over and over. -/
theorem undo_circles_over_cut_batch : ∃ opened session : Session,
    Session.ofCells [{ id := "a", kind := .code, source := "x = 1" }] { maxUndo := 1 } = .ok opened ∧
    session = (Operation.perform opened
      (.editFacade [⟨⟨0, 0⟩, ⟨0, 0⟩, "\n"⟩, ⟨⟨1, 4⟩, ⟨1, 5⟩, "2"⟩] .alone)).2 ∧
    session.facade.undoDepth = 1 ∧ session.undo.1 = .ok true ∧
    session.undo.2.facade.undoDepth = 1 ∧ session.undo.2.facade.canRedo = false ∧
    ∀ calls, (undoTimes calls session).undo.1 ≠ .ok false := by
  have opened : Reachable { maxUndo := 1 } _ := .cells (rfl :
    Session.ofCells [{ id := "a", kind := .code, source := "x = 1" }] { maxUndo := 1 } = .ok _)
  have session := opened.step (.editFacade [⟨⟨0, 0⟩, ⟨0, 0⟩, "\n"⟩, ⟨⟨1, 4⟩, ⟨1, 5⟩, "2"⟩] .alone)
  obtain ⟨-, once, -, -, -, -, circles⟩ := session.undo_ends_iff (by decide) (by decide +kernel)
  obtain ⟨result, -, changed⟩ := once (by decide +kernel)
  obtain ⟨depth, redo⟩ := changed (by decide +kernel)
  exact ⟨_, _, rfl, rfl, by decide +kernel, result.trans (by decide +kernel), depth, redo,
    circles (by decide +kernel)⟩

end Session

end Notebook

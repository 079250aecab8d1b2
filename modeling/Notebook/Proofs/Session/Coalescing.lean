import Notebook.Proofs.Session.Restore
import Notebook.Proofs.Session.SyncFirst
/-!
# Changes of the editor, one by one or all at once

Bringing in every change of the editor by itself writes the cell as often as the buffer moved on, with
fewer lines or more each time. Bringing in all of them together writes it once. The cells come out the
same, and the views are made of the cells; what was typed is one burst, so undo takes back the same.
-/
namespace Notebook.Session

open Text Layout

variable {session one other : Session} {settings : Settings}

/-! ## Sessions that cannot be told apart by what they show -/

/-- Two sessions are the same, but for how their facades and shadows came to hold what they hold. -/
structure Twins (one other : Session) : Prop where
  besides : one = { other with facade := one.facade, shadow := one.shadow }
  facade : one.facade.text = other.facade.text
  anchors : one.facade.anchors = other.facade.anchors
  shadow : one.shadow.text = other.shadow.text

theorem Twins.refl (session : Session) : Twins session session := ⟨rfl, rfl, rfl, rfl⟩

theorem Twins.cells (twins : Twins one other) : one.cells = other.cells := by
  rw [twins.besides]

theorem Twins.editor (twins : Twins one other) : one.editor = other.editor := by
  rw [twins.besides]

theorem Twins.anchorLine (twins : Twins one other) (id : Text) :
    one.facade.anchorLine id = other.facade.anchorLine id := by
  rw [Buffer.anchorLine, Buffer.anchorLine, twins.facade, twins.anchors]

/-- Sessions in step whose anchors are placed are twins if they differ in the facade and the shadow at
most. -/
theorem twins_of_inStep (here : one.InStep) (there : other.InStep)
    (placed : place one.cells.cells one.facade = one.facade)
    (placed' : place other.cells.cells other.facade = other.facade)
    (besides : one = { other with facade := one.facade, shadow := one.shadow }) : Twins one other := by
  have cells : one.cells = other.cells := by rw [besides]
  have rendered : one.renderedLines = other.renderedLines := by rw [besides]; rfl
  have text : one.facade.text = other.facade.text :=
    lines_injective (here.facade.trans (rendered.trans there.facade.symm))
  refine ⟨besides, text, ?_, lines_injective ?_⟩
  · rw [← placed, ← placed', cells]
    exact anchors_place_of_text _ text
  · rw [show lines one.shadow.text = _ from here.shadow, cells]
    exact there.shadow.symm

/-- The cell of the editor is found in the same place, so twins remain twins. -/
theorem Twins.reloadEditor (twins : Twins one other) :
    Twins one.reloadEditor other.reloadEditor := by
  have spans (cell : Cell) : spanOfCell? one.facade cell = spanOfCell? other.facade cell := by
    have count : one.facade.lineCount = other.facade.lineCount := congrArg lineCount twins.facade
    rw [spanOfCell?, spanOfCell?, twins.anchorLine, count]
  have same : one.reloadEditor.editor = other.reloadEditor.editor := by
    simp only [Session.reloadEditor, twins.editor, twins.cells, spans]
    split
    · exact twins.editor
    · split
      · rfl
      · split <;> rfl
  obtain ⟨left, reloaded⟩ := one.reloadEditor_eq
  obtain ⟨right, reloaded'⟩ := other.reloadEditor_eq
  rw [reloaded, reloaded'] at same ⊢
  obtain rfl : left = right := same
  exact ⟨by rw [twins.besides], twins.facade, twins.anchors, twins.shadow⟩

/-- Views that are made anew do not show what they were made from. -/
theorem twins_refreshViews (besides : one = { other with facade := one.facade, shadow := one.shadow })
    (grouping : Grouping) : Twins (one.refreshViews grouping) (other.refreshViews grouping) := by
  have cells : one.cells = other.cells := by rw [besides]
  have rendered : one.renderedLines = other.renderedLines := by rw [besides]; rfl
  have text : (one.facade.setLines one.renderedLines grouping).2.text =
      (other.facade.setLines other.renderedLines grouping).2.text := by
    rw [Buffer.text_setLines, Buffer.text_setLines, rendered]
  refine Twins.reloadEditor ⟨?_, ?_, ?_, lines_injective ?_⟩
  · rw [besides]
  · rw [text_place, text_place]
    exact text
  · rw [cells]
    exact anchors_place_of_text _ text
  · rw [cells]
    exact (Shadow.lines_refresh _ _).trans (Shadow.lines_refresh _ _).symm

/-! ## What becomes of the editor's changes -/

/-- Make changes of the editor's buffer, and bring in each of them. -/
def syncedEach (session : Session) (changes : List Buffer.Action) : Session :=
  changes.foldl (fun session change => (session.editBuffer fun buffer => change.perform buffer).syncEditor.2)
    session

/-- Make changes of the editor's buffer, and bring them in together. -/
def syncedOnce (session : Session) (changes : List Buffer.Action) : Session :=
  (changes.foldl (fun session change => session.editBuffer fun buffer => change.perform buffer)
    session).syncEditor.2

/-- A session in which a cell has the source that the editor holds, which knows about it. -/
def rewritten (session : Session) (editor : Editor) (above : List Cell) (cell : Cell)
    (below : List Cell) (facade shadow : Buffer) : Session :=
  let other : Cell := { cell with source := editor.buffer.text }
  { session with
    cells := { session.cells with cells := above ++ other :: below }
    facade, shadow
    editor := some (editor.markSynced ⟨depth above, depth above + other.height - 1⟩) }

/-- What a session became when the editor of a cell came to hold a buffer, and that was brought in by so
many splices of the facade. -/
inductive Brought (session : Session) (editor : Editor) (above : List Cell) (cell : Cell)
    (below : List Cell) (buffer : Buffer) : List Splice → Session → Prop
  /-- The buffer did not move on. -/
  | still : buffer.revision = editor.buffer.revision →
      Brought session editor above cell below buffer []
        { session with editor := some { editor with buffer } }
  | written {splices : List Splice} {facade shadow : Buffer} :
      editor.buffer.revision < buffer.revision → splices ≠ [] → session.facade.Typed facade splices →
      Brought session editor above cell below buffer splices
        (session.rewritten { editor with buffer } above cell below facade shadow)

variable {editor : Editor} {above below : List Cell} {cell : Cell} {buffer : Buffer}

/-- Bringing in a source that can be rendered writes it to its cell, as one more splice of the facade. -/
theorem Reachable.syncEditor_writes (reachable : Reachable settings session)
    (plain : '\n' ∉ settings.tag) (opened : session.editor = some editor)
    (dirty : editor.isDirty = true) (cells : session.cells.cells = above ++ cell :: below)
    (id : cell.id = editor.cell)
    (passes : Markup.checkSource settings.tag editor.buffer.text = .ok ()) {before : Buffer}
    {splices : List Splice} (typed : before.Typed session.facade splices) :
    ∃ facade shadow splice, before.Typed facade (splices ++ [splice]) ∧
      session.syncEditor.2 = session.rewritten editor above cell below facade shadow := by
  obtain ⟨sound, same⟩ := reachable.sound plain
  obtain ⟨anchors, anchored, done⟩ :=
    reachable.posed.syncEditor_ok opened dirty cells id (same ▸ passes)
  have inStep := sound.inStep.overwritten sound.plain cells anchored rfl
  have step : (session.absorbed editor above below cell anchors).InStep :=
    ⟨inStep.facade, inStep.anchors, inStep.shadow⟩
  rw [step.ensured sound.plain] at done
  obtain ⟨-, splice, typed⟩ := reachable.typed_syncEditor plain done typed
  exact ⟨_, _, splice, typed, congrArg Prod.snd done⟩

/-- An editor that is not dirty is left alone. -/
theorem syncEditor_idle (opened : session.editor = some editor) (clean : editor.isDirty = false) :
    session.syncEditor = (.ok false, session) := by
  simp [syncEditor, opened, clean]

/-- One more change is brought in by one more splice, or by none if the buffer stays where it is. -/
theorem Brought.next {splices : List Splice} {middle : Session}
    (brought : Brought session editor above cell below buffer splices middle)
    (reachable : Reachable settings session) (later : Reachable settings middle)
    (plain : '\n' ∉ settings.tag) (clean : editor.isDirty = false)
    (cells : session.cells.cells = above ++ cell :: below) (id : cell.id = editor.cell)
    (change : Buffer → Buffer) (revised : Buffer.Revised buffer (change buffer))
    (passes : (change buffer).revision ≠ buffer.revision →
      Markup.checkSource settings.tag (change buffer).text = .ok ()) :
    ∃ more, more.length ≤ 1 ∧ Brought session editor above cell below (change buffer)
      (splices ++ more) (middle.editBuffer change).syncEditor.2 := by
  have synced : editor.buffer.revision = editor.synced := by simpa [Editor.isDirty] using clean
  have changed : Reachable settings (middle.editBuffer change) := later.step (.editBuffer change)
  obtain ⟨history, known, tidy⟩ := reachable.tidy
  by_cases moved : (change buffer).revision = buffer.revision
  · refine ⟨[], Nat.zero_le _, ?_⟩
    rw [List.append_nil]
    cases brought with
    | still same =>
      rw [syncEditor_idle rfl (by simp [Editor.isDirty, moved, same, synced])]
      exact .still (moved.trans same)
    | @written _ facade shadow other some typed =>
      rw [syncEditor_idle rfl (by simp [Editor.isDirty, Editor.markSynced, moved])]
      have written : Brought session editor above cell below (change buffer) splices
          (session.rewritten { editor with buffer := change buffer } above cell below facade shadow) :=
        .written (moved ▸ other) some typed
      -- The text stays with the revision, and both are what the session knows.
      simp only [rewritten, Editor.markSynced, moved, revised.text moved] at written
      exact written
  · have onward : buffer.revision < (change buffer).revision :=
      Nat.lt_of_le_of_ne revised.revision (Ne.symm moved)
    cases brought with
    | still same =>
      obtain ⟨facade, shadow, splice, typed, done⟩ := changed.syncEditor_writes plain rfl
        (by simp [Editor.isDirty, ← synced, ← same, moved]) cells id (passes moved)
        (Buffer.typed_refl known tidy)
      rw [done]
      exact ⟨[splice], Nat.le_refl _, .written (same ▸ onward) (List.cons_ne_nil _ _) typed⟩
    | @written _ facade shadow other some typed =>
      obtain ⟨facade, shadow, splice, typed, done⟩ := changed.syncEditor_writes plain rfl
        (by simp [Editor.isDirty, Editor.markSynced, moved]) rfl id (passes moved) typed
      rw [done]
      exact ⟨[splice], Nat.le_refl _, .written (Nat.lt_trans other onward) (by simp) typed⟩

/-! ## Runs of changes -/

theorem editBuffer_foldl (session : Session) (changes : List Buffer.Action) :
    changes.foldl (fun session change => session.editBuffer fun buffer => change.perform buffer) session =
      session.editBuffer fun buffer => changes.foldl Buffer.Action.perform buffer := by
  induction changes generalizing session with
  | nil => simp [editBuffer]
  | cons change rest ih =>
    rw [List.foldl_cons, ih]
    simp [editBuffer, Option.map_map, Function.comp_def]

theorem revised_changes (buffer : Buffer) (changes : List Buffer.Action) :
    Buffer.Revised buffer (changes.foldl Buffer.Action.perform buffer) := by
  induction changes generalizing buffer with
  | nil => exact .refl buffer
  | cons change rest ih => exact (buffer.revised_perform change).trans (ih _)

section Runs

variable (reachable : Reachable settings session) (plain : '\n' ∉ settings.tag)
  (opened : session.editor = some editor) (clean : editor.isDirty = false)
  (cells : session.cells.cells = above ++ cell :: below) (id : cell.id = editor.cell)

include opened

theorem brought_refl : Brought session editor above cell below editor.buffer [] session := by
  have still : Brought session editor above cell below editor.buffer []
    { session with editor := some editor } := .still rfl
  rwa [← opened] at still

include reachable plain clean cells id

/-- However many changes are brought in one by one, what the buffer holds in the end is in the cell. -/
theorem brought_each (changes : List Buffer.Action) (passes : ∀ some, some ≠ [] → some <+: changes →
      Markup.checkSource settings.tag (some.foldl Buffer.Action.perform editor.buffer).text = .ok ()) :
    Reachable settings (session.syncedEach changes) ∧ ∃ splices,
      Brought session editor above cell below (changes.foldl Buffer.Action.perform editor.buffer)
        splices (session.syncedEach changes) := by
  induction changes using List.reverseRecOn with
  | nil => exact ⟨reachable, [], brought_refl opened⟩
  | append_singleton few last ih =>
    obtain ⟨later, splices, brought⟩ := ih fun some nonempty front =>
      passes some nonempty (front.trans (List.prefix_append few [last]))
    have whole := passes (few ++ [last]) (by simp) List.prefix_rfl
    rw [List.foldl_append] at whole ⊢
    rw [syncedEach, List.foldl_append]
    obtain ⟨more, -, brought⟩ := brought.next reachable later plain clean cells id
      (fun buffer => last.perform buffer) (Buffer.revised_perform _ last) fun _ => whole
    exact ⟨(later.step (.editBuffer fun buffer => last.perform buffer)).step .syncEditor, _, brought⟩

/-- All changes are brought in together by one splice, or by none. -/
theorem brought_once (changes : List Buffer.Action) (passes : changes ≠ [] →
      Markup.checkSource settings.tag (changes.foldl Buffer.Action.perform editor.buffer).text = .ok ()) :
    Reachable settings (session.syncedOnce changes) ∧ ∃ splices, splices.length ≤ 1 ∧
      Brought session editor above cell below (changes.foldl Buffer.Action.perform editor.buffer)
        splices (session.syncedOnce changes) := by
  have whole : (changes.foldl Buffer.Action.perform editor.buffer).revision ≠ editor.buffer.revision →
      changes ≠ [] := by
    rintro moved rfl
    exact moved rfl
  have start : Brought session editor above cell below editor.buffer [] session := brought_refl opened
  obtain ⟨more, short, brought⟩ := start.next reachable reachable plain clean cells id
    (fun buffer => changes.foldl Buffer.Action.perform buffer)
    (revised_changes editor.buffer changes) fun moved => passes (whole moved)
  rw [syncedOnce, editBuffer_foldl]
  exact ⟨(reachable.step (.editBuffer _)).step .syncEditor, more, short, brought⟩

end Runs

/-! ## Undo -/

/-- Undo to a facade that sound cells are rendered to reads these cells from it, and makes the views. -/
theorem Sound.undo_to (sound : session.Sound) (clean : session.editorIsDirty = false) (target : other.Sound)
    (settings : other.settings = session.settings) {facade : Buffer}
    (moved : session.facade.undo = (true, facade)) (text : facade.text = other.facade.text)
    (changed : facade.revision ≠ session.facade.revision) :
    session.undo = (.ok true, { session with
      facade, cells := session.cells.reconcile other.cells.blocks }.refreshViews .amend) := by
  have read : Markup.parseLines session.settings.tag facade.lines = .ok other.cells.blocks := by
    rw [Buffer.lines, text, ← settings]
    exact target.reads
  have remade := @rerender_eq
    { session with facade, cells := session.cells.reconcile other.cells.blocks } sound.plain
    (sound.coherent.reconcile _).distinct_cells .amend
  rw [Session.undo, Session.travel, flushed_of_clean clean]
  simp only [moved, changed, Session.syncFromFacade, read, remade]
  rfl

/-- What was brought in while no burst was open is committed as it is, and undo makes the cells and all
views from what the facade showed before. -/
theorem Brought.undo {splices : List Splice} {after : Session}
    (brought : Brought session editor above cell below buffer splices after)
    (reachable : Reachable settings session) (later : Reachable settings after)
    (plain : '\n' ∉ settings.tag) (nonempty : splices ≠ []) (apart : session.facade.hasOpenGroup = false)
    (room : splices.length ≤ max settings.maxUndo 1) :
    ∃ facade, after.commitEditor = (.ok (), { after with facade := after.facade.endGroup }) ∧
      after.commitEditor.2.undo = (.ok true, { after with
        facade, cells := after.cells.reconcile session.cells.blocks }.refreshViews .amend) := by
  cases brought with
  | still => exact absurd rfl nonempty
  | @written _ facade shadow _ _ typed =>
    let after := session.rewritten { editor with buffer } above cell below facade shadow
    have clean : after.editorIsDirty = false := by
      simp [after, rewritten, editorIsDirty, Editor.isDirty, Editor.markSynced]
    have commits : after.commitEditor = (.ok (), { after with facade := after.facade.endGroup }) :=
      flushed_of_clean clean _
    obtain ⟨sound, same⟩ := reachable.sound plain
    obtain ⟨soundDone, kept⟩ := (later.step .commitEditor).sound plain
    have done : (Operation.perform after .commitEditor).2 =
      { after with facade := after.facade.endGroup } := congrArg Prod.snd commits
    rw [show session.rewritten { editor with buffer } above cell below facade shadow = after from rfl,
      done] at soundDone kept
    obtain ⟨history, known, numbered, limit⟩ := sound.keeps
    have closed : history.openGroup = none := by
      simpa [Buffer.hasOpenGroup, known] using apart
    obtain ⟨back, undo, text, changed, -⟩ := typed.undo_apart nonempty known numbered
      (by rw [limit, same]; exact room) (.inl closed)
    refine ⟨back, commits, ?_⟩
    rw [show (session.rewritten { editor with buffer } above cell below facade shadow).commitEditor =
      _ from commits]
    exact soundDone.undo_to clean sound (same.trans kept.symm) undo text changed

theorem Brought.eq_nil_iff {splices : List Splice} {after : Session}
    (brought : Brought session editor above cell below buffer splices after) :
    splices = [] ↔ buffer.revision = editor.buffer.revision := by
  cases brought with
  | still same => exact iff_of_true rfl same
  | written moved some => exact iff_of_false some (Nat.ne_of_gt moved)

theorem Brought.eq_of_nil {after : Session}
    (brought : Brought session editor above cell below buffer [] after) :
    after = { session with editor := some { editor with buffer } } := by
  cases brought with
  | still => rfl
  | written _ some => exact absurd rfl some

theorem Brought.revision {splices : List Splice} {after : Session}
    (brought : Brought session editor above cell below buffer splices after) :
    after.facade.revision = session.facade.revision + splices.length := by
  cases brought with
  | still => rfl
  | written _ _ typed => exact typed.revision

/-- In how many steps a buffer was brought in makes no difference to what a session became. -/
theorem Brought.twins {splices others : List Splice}
    (brought : Brought session editor above cell below buffer splices one)
    (again : Brought session editor above cell below buffer others other)
    (here : Reachable settings one) (there : Reachable settings other) (plain : '\n' ∉ settings.tag) :
    Twins one other := by
  have views := twins_of_inStep (here.sound plain).1.inStep (there.sound plain).1.inStep
    (here.place_facade plain) (there.place_facade plain)
  cases brought with
  | still same =>
    cases again with
    | still => exact .refl _
    | written moved => exact absurd same (Nat.ne_of_gt moved)
  | written moved =>
    cases again with
    | still same => exact absurd same (Nat.ne_of_gt moved)
    | written => exact views rfl

/-- Each change of the editor's buffer may be brought in by itself, or all of them together when the last
one is made: if every text in between can be rendered, the sessions that this makes are twins. They have
the same cells, what facade and shadow show is the same, the anchors are on the same lines, and the editor
is in the same place. If no burst was open before and no step is dropped, they are still twins after what
was typed is committed and undone. -/
theorem Reachable.coalesced (reachable : Reachable settings session) (plain : '\n' ∉ settings.tag)
    (opened : session.editor = some editor) (clean : editor.isDirty = false)
    (changes : List Buffer.Action) (passes : ∀ some, some ≠ [] → some <+: changes →
      Markup.checkSource settings.tag (some.foldl Buffer.Action.perform editor.buffer).text = .ok ()) :
    let each := session.syncedEach changes
    let once := session.syncedOnce changes
    Twins each once ∧ (session.facade.hasOpenGroup = false →
      each.facade.revision ≤ session.facade.revision + settings.maxUndo →
      each.commitEditor.1 = .ok () ∧ once.commitEditor.1 = .ok () ∧
      each.commitEditor.2.undo.1 = once.commitEditor.2.undo.1 ∧
      Twins each.commitEditor.2.undo.2 once.commitEditor.2.undo.2) := by
  dsimp only
  obtain ⟨above, cell, below, cells, id, -⟩ := reachable.posed.seated editor opened
  obtain ⟨here, splices, broughtEach⟩ :=
    brought_each reachable plain opened clean cells id changes passes
  obtain ⟨there, single, short, broughtOnce⟩ := brought_once reachable plain opened clean cells id
    changes fun nonempty => passes changes nonempty List.prefix_rfl
  have twins := broughtEach.twins broughtOnce here there plain
  generalize session.syncedEach changes = each at here broughtEach twins ⊢
  generalize session.syncedOnce changes = once at there broughtOnce twins ⊢
  refine ⟨twins, fun apart room => ?_⟩
  rw [broughtEach.revision] at room
  by_cases idle : splices = []
  · -- Nothing was brought in, so the buffer is all that changed.
    obtain rfl := idle
    obtain rfl : single = [] := broughtOnce.eq_nil_iff.mpr (broughtEach.eq_nil_iff.mp rfl)
    have same := broughtEach.eq_nil_iff.mp rfl
    obtain rfl := broughtEach.eq_of_nil
    obtain rfl := broughtOnce.eq_of_nil
    have settled : { session with editor := some { editor with
        buffer := changes.foldl Buffer.Action.perform editor.buffer } }.editorIsDirty = false := by
      simpa [editorIsDirty, Editor.isDirty, same] using clean
    have commits := congrArg Prod.fst (flushed_of_clean settled
      fun session => (.ok (), { session with facade := session.facade.endGroup }))
    exact ⟨commits, commits, rfl, .refl _⟩
  · have busy : single ≠ [] := fun none =>
      idle (broughtEach.eq_nil_iff.mpr (broughtOnce.eq_nil_iff.mp none))
    obtain ⟨facade, commits, undoes⟩ := broughtEach.undo reachable here plain idle apart (by omega)
    obtain ⟨facade', commits', undoes'⟩ := broughtOnce.undo reachable there plain busy apart (by omega)
    rw [undoes, undoes', commits, commits']
    exact ⟨rfl, rfl, rfl, twins_refreshViews (by rw [twins.besides]) .amend⟩

/-- So it is with a cell between two others that gains two lines, loses them again, and then has another
text: three steps in the one case, and one in the other. -/
theorem coalesced_growing_and_shrinking : ∃ opened session : Session, ∃ changes : List Buffer.Action,
    Session.ofCells [{ id := "a", kind := .code, source := "x = 1" },
      { id := "b", kind := .markdown, source := "some\nprose" },
      { id := "c", kind := .code, source := "y = 2" }] {} = .ok opened ∧
    session = (Operation.perform opened (.openEditor 1)).2 ∧
    changes = [.replace 0 0 "more\nand\n" .alone, .replaceLines 0 2 [] .alone, .endGroup,
      .setText "other\nprose\n" .burst] ∧
    (session.syncedEach changes).facade.revision = session.facade.revision + 3 ∧
    (session.syncedOnce changes).facade.revision = session.facade.revision + 1 ∧
    Twins (session.syncedEach changes) (session.syncedOnce changes) ∧
    Twins (session.syncedEach changes).commitEditor.2.undo.2
      (session.syncedOnce changes).commitEditor.2.undo.2 := by
  have opened : Reachable {} _ := .cells (rfl :
    Session.ofCells [{ id := "a", kind := .code, source := "x = 1" },
      { id := "b", kind := .markdown, source := "some\nprose" },
      { id := "c", kind := .code, source := "y = 2" }] {} = .ok _)
  obtain ⟨twins, undone⟩ := (opened.step (.openEditor 1)).coalesced (by decide)
    (Option.some_get (by decide +kernel)).symm (by decide +kernel)
    [.replace 0 0 "more\nand\n" .alone, .replaceLines 0 2 [] .alone, .endGroup,
      .setText "other\nprose\n" .burst] fun some _ front => by
        have member := (List.mem_inits _ _).mpr front
        clear * - member
        revert some
        decide +kernel
  exact ⟨_, _, _, rfl, rfl, rfl, by decide +kernel, by decide +kernel, twins,
    (undone (by decide +kernel) (by decide +kernel)).2.2.2⟩

end Notebook.Session

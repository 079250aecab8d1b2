import Notebook.Proofs.Session.Passage
import Notebook.Proofs.Session.Refusal
import Notebook.Proofs.Session.Undo
/-!
# Undo of what was typed

Each time the changes of the editor are brought in, the cell is written as one step of the burst. Opening
the editor ends a burst only if it closes another editor whose last changes are accepted; otherwise the
burst that edits of the facade left open goes on, and what is typed joins it.
-/
namespace Notebook

theorem Buffer.exists_replaceLines (buffer : Buffer) (start stop : Nat) {new : List Text}
    (nonempty : new ≠ []) (grouping : Grouping) : ∃ first last inserted,
      buffer.replaceLines start stop new grouping = buffer.replace first last inserted grouping := by
  unfold replaceLines
  dsimp only
  rw [if_neg fun none => nonempty none.2]
  split
  · exact ⟨_, _, _, rfl⟩
  · split
    · exact ⟨_, _, _, rfl⟩
    · exact ⟨_, _, _, rfl⟩

@[simp] theorem Buffer.hasOpenGroup_endGroup (buffer : Buffer) : buffer.endGroup.hasOpenGroup = false := by
  cases known : buffer.history with
  | none => simp [hasOpenGroup, endGroup, known]
  | some history => simp [hasOpenGroup, endGroup, known, History.endGroup]

namespace Session

open Text

variable {settings : Settings} {session opened middle after : Session} {rounds : Nat}

/-- The editor was changed and its changes were brought in, so many times and with nothing in between. -/
inductive Typed (opened : Session) : Nat → Session → Prop
  | none : Typed opened 0 opened
  | round {rounds : Nat} {middle after : Session} (change : Buffer → Buffer) :
      Typed opened rounds middle → (middle.editBuffer change).syncEditor = (.ok true, after) →
      Typed opened (rounds + 1) after

theorem Typed.reachable (reachable : Reachable settings opened) (typed : opened.Typed rounds after) :
    Reachable settings after := by
  induction typed with
  | none => exact reachable
  | @round _ middle after change _ synced ih =>
    have left : (middle.editBuffer change).syncEditor.2 = after := congrArg Prod.snd synced
    exact left ▸ (ih.step (.editBuffer change)).step .syncEditor

/-! ## The history of a reachable session -/

/-- Every operation leads the history of the facade on. -/
theorem continues_perform (session : Session) (operation : Operation) :
    session.facade.Continues (operation.perform session).2.facade :=
  (session.phases_perform operation).continues

theorem history_of_build {file : File} {cells : List Cell}
    (built : build file cells settings = .ok session) :
    session.facade.history = some (.empty settings.maxUndo) := by
  obtain ⟨-, rfl⟩ := build_eq_ok built
  exact Layout.history_place _ _

theorem Reachable.tidy (reachable : Reachable settings session) :
    ∃ history, session.facade.history = some history ∧ history.Tidy := by
  induction reachable using Reachable.from_build with
  | built _ built => exact ⟨_, history_of_build built, History.tidy_empty _⟩
  | @step session _ operation ih =>
    obtain ⟨history, known, tidy⟩ := ih
    obtain ⟨later, found, leads⟩ := session.continues_perform operation history known
    exact ⟨later, found, leads.tidy tidy⟩

/-! ## Rounds of typing -/

/-- Bringing in a change of the editor writes the facade once, as a step of the burst. -/
theorem Reachable.typed_syncEditor (reachable : Reachable settings session) (plain : '\n' ∉ settings.tag)
    (synced : session.syncEditor = (.ok true, after)) {before : Buffer} {splices : List Splice}
    (typed : before.Typed session.facade splices) : after.editorIsDirty = false ∧
      ∃ splice, before.Typed after.facade (splices ++ [splice]) := by
  obtain ⟨sound, -⟩ := reachable.sound plain
  rcases sound.syncEditor_cases (reachable.seated plain) with ⟨fault, refused, -⟩ | idle |
    ⟨editor, above, cell, below, anchors, -, -, done⟩
  · cases refused.symm.trans synced
  · cases idle.symm.trans synced
  · obtain rfl := congrArg Prod.snd (done.symm.trans synced)
    refine ⟨by simp [editorIsDirty, Editor.markSynced, Editor.isDirty], ?_⟩
    -- Even an emptied cell has one line, so there is always something to be written.
    obtain ⟨first, last, inserted, written⟩ := session.facade.exists_replaceLines
      (Layout.depth above + 1) (Layout.depth above + 1 + cell.lineCount)
      (lines_ne_nil editor.buffer.text) .burst
    have text := congrArg Buffer.text written
    have revision := congrArg Buffer.revision written
    have history := congrArg Buffer.history written
    exact ⟨_, (typed.replace first last inserted).of_same text revision history⟩

/-- After some rounds the facade holds one step more for each, and nothing is left to be brought in. -/
theorem Typed.facade (typed : opened.Typed rounds after) (reachable : Reachable settings opened)
    (plain : '\n' ∉ settings.tag) : (0 < rounds → after.editorIsDirty = false) ∧
      ∃ splices, splices.length = rounds ∧ opened.facade.Typed after.facade splices := by
  induction typed with
  | none =>
    obtain ⟨history, known, tidy⟩ := reachable.tidy
    exact ⟨nofun, [], rfl, Buffer.typed_refl known tidy⟩
  | @round _ middle _ change before synced ih =>
    obtain ⟨-, splices, length, typed⟩ := ih
    have changed : Reachable settings (middle.editBuffer change) :=
      (before.reachable reachable).step (.editBuffer change)
    obtain ⟨clean, splice, typed⟩ := changed.typed_syncEditor plain synced typed
    exact ⟨fun _ => clean, _, by rw [List.length_append, length, List.length_singleton], typed⟩

/-! ## Opening -/

/-- Opening the editor of a cell closes the one before, and does nothing else to the facade. -/
theorem Sound.facade_openEditor (sound : session.Sound) (index : Nat) :
    (session.openEditor index).2.facade = session.closeEditor.facade := by
  have closed := (sound.phases (session.phases_closeEditor .closeEditor)).sound
  unfold Session.openEditor
  rcases closed.inStep.spanOrRepair closed.plain index with
    ⟨-, missing⟩ | ⟨above, cell, below, -, -, found⟩
  · rw [missing]
  · rw [found]
    dsimp only
    split <;> rfl

/-- The facade is not written by opening the editor of a cell, unless changes of another one are brought
in. A burst goes on if there was no other editor, or its changes are refused. -/
theorem Sound.hasOpenGroup_openEditor (sound : session.Sound) {agrees : Editor → Text → Prop}
    (seated : Seated agrees session) {index generation : Nat}
    (opens : session.openEditor index = (.ok generation, opened)) :
    opened.facade.hasOpenGroup = true ↔ session.facade.hasOpenGroup = true ∧
      (session.editor = none ∨ ∃ fault, session.flush.1 = .error fault) := by
  have facade : opened.facade = session.closeEditor.facade := by
    rw [← sound.facade_openEditor index, opens]
  rw [facade, Session.closeEditor]
  cases editor : session.editor with
  | none => simp
  | some editor =>
    rw [if_neg (by simp), Session.commitEditor, flushed_eq]
    -- The burst is ended behind the flush, so a refusal leaves it open.
    cases result : session.flush.1 with
    | error fault =>
      have same := sound.flush_refused seated result
      rw [show session.flush = (.error fault, session) from Prod.ext result same]
      simp
    | ok =>
      rw [show session.flush = (.ok (), session.flush.2) from Prod.ext result rfl]
      simp

/-! ## Undo -/

/-- After some rounds of typing the session is committed as it is, and undo takes back these rounds and
nothing else if no burst was open when the editor was opened, or if the rounds filled the history. Then
facade, shadow, kinds and sources are as they were right after opening, and so are the older steps, as
far as they are kept. Otherwise what undo takes back begins earlier: steps of the open burst, of which
there is at least one, go with the rounds. The burst was open if it was so before, unless opening closed
an editor whose changes were accepted. -/
theorem Reachable.undo_typing (reachable : Reachable settings session) (plain : '\n' ∉ settings.tag)
    {index generation : Nat} (opens : session.openEditor index = (.ok generation, opened))
    (typed : opened.Typed rounds after) (some : 0 < rounds) (room : rounds ≤ settings.maxUndo) :
    let kept := opened.facade.undoSteps.take (settings.maxUndo - rounds)
    (opened.facade.hasOpenGroup = true ↔ session.facade.hasOpenGroup = true ∧
      (session.editor = none ∨ ∃ fault, session.flush.1 = .error fault)) ∧
    ∃ done, after.commitEditor = (.ok (), done) ∧
      (opened.facade.hasOpenGroup = false ∨ rounds = settings.maxUndo →
        ∃ undone, done.undo = (.ok true, undone) ∧ undone.ShowsAs opened ∧
          undone.facade.undoSteps = kept) ∧
      (opened.facade.hasOpenGroup = true → rounds < settings.maxUndo →
        ∃ newest, newest.length = rounds ∧
          newestGroup done.facade.undoSteps = newest ++ newestGroup kept ∧ newestGroup kept ≠ [] ∧
          done.facade.undo.2.text =
            ((newestGroup kept).foldl (fun b step => b.revert step.splice) opened.facade).text) := by
  dsimp only
  obtain ⟨sound, -⟩ := reachable.sound plain
  refine ⟨sound.hasOpenGroup_openEditor (reachable.seated plain) opens, ?_⟩
  have start : Reachable settings opened := by
    have left : (session.openEditor index).2 = opened := congrArg Prod.snd opens
    exact left ▸ reachable.step (.openEditor index)
  have last := typed.reachable start
  obtain ⟨clean, splices, length, written⟩ := typed.facade start plain
  have clean := clean some
  -- Everything was brought in, so committing does nothing but end the burst.
  let done : Session := { after with facade := after.facade.endGroup }
  have commits : after.commitEditor = (.ok (), done) := flushed_of_clean clean _
  obtain ⟨history, known, tidy⟩ := start.tidy
  obtain ⟨target, settings'⟩ := start.sound plain
  obtain ⟨_, found, numbered, limit⟩ := target.keeps
  obtain rfl := Option.some.inj (known.symm.trans found)
  rw [settings', Nat.max_eq_left (by omega)] at limit
  have opening : opened.facade.hasOpenGroup = history.openGroup.isSome := by
    rw [Buffer.hasOpenGroup, known]
    rfl
  refine ⟨done, commits, fun apart => ?_, fun joined short => ?_⟩
  · have apart : history.openGroup = none ∨ splices.length = history.limit := by
      rwa [opening, Option.isSome_eq_false_iff, Option.isNone_iff_eq_none, ← limit, ← length] at apart
    obtain ⟨facade, undo, text, changed, below⟩ := written.undo_apart
      (List.ne_nil_of_length_pos (by omega)) known numbered (by omega) apart
    obtain ⟨soundDone, settingsDone⟩ : done.Sound ∧ done.settings = settings := by
      have committed : after.commitEditor.2 = done := congrArg Prod.snd commits
      exact committed ▸ (last.step .commitEditor).sound plain
    obtain ⟨undone, undoes, shows, -, kept, -⟩ := soundDone.travel_to clean target
      (settings'.trans settingsDone.symm) undo text changed
    refine ⟨undone, undoes, shows, ?_⟩
    rw [Buffer.undoSteps, kept, ← Buffer.undoSteps, below, limit, length]
  · obtain ⟨busy, newest, text⟩ := written.undo_joined known tidy (by omega) (opening ▸ joined)
    rw [limit, length] at busy newest text
    exact ⟨_, by simp [History.steps, length], newest, busy, text⟩

/-- So typing is taken back alone where no burst was open. After an edit of the facade that left one open
it is taken back together with that edit, and the cell is as it was before either of them. -/
theorem undo_typing_alone_and_joined :
    (∃ session opened after done : Session,
      Session.ofCells [{ id := "a", kind := .code, source := "x = 1" }] {} = .ok session ∧
      session.openEditor 0 = (.ok 1, opened) ∧
      (opened.editBuffer fun buffer => buffer.replace 4 5 "2" .burst).syncEditor = (.ok true, after) ∧
      after.commitEditor = (.ok (), done) ∧
      ∃ undone, done.undo = (.ok true, undone) ∧ undone.ShowsAs opened) ∧
    ∃ first session opened after done : Session,
      Session.ofCells [{ id := "a", kind := .code, source := "x = 1" }] {} = .ok first ∧
      session = (Operation.perform first (.editFacade [⟨⟨1, 4⟩, ⟨1, 5⟩, "2"⟩] .burst)).2 ∧
      session.openEditor 0 = (.ok 1, opened) ∧
      (opened.editBuffer fun buffer => buffer.replace 4 5 "3" .burst).syncEditor = (.ok true, after) ∧
      after.commitEditor = (.ok (), done) ∧
      1 < (newestGroup done.facade.undoSteps).length ∧
      opened.cells.blocks = [⟨.code, "x = 2"⟩] ∧
      ∃ undone, done.undo = (.ok true, undone) ∧ undone.cells.blocks = [⟨.code, "x = 1"⟩] := by
  have start : Reachable {} _ := .cells (rfl :
    Session.ofCells [{ id := "a", kind := .code, source := "x = 1" }] {} = .ok _)
  constructor
  · obtain ⟨-, done, commits, apart, -⟩ := start.undo_typing (by decide)
      (Prod.ext (by decide +kernel) rfl : Session.openEditor _ 0 = (.ok 1, _))
      (.round (fun buffer => buffer.replace 4 5 "2" .burst) .none (Prod.ext (by decide +kernel) rfl))
      (by decide) (by decide)
    obtain ⟨undone, undoes, shows, -⟩ := apart (.inl (by decide +kernel))
    exact ⟨_, _, _, done, rfl, Prod.ext (by decide +kernel) rfl, Prod.ext (by decide +kernel) rfl,
      commits, undone, undoes, shows⟩
  · obtain ⟨-, done, commits, -, joined⟩ :=
      (start.step (.editFacade [⟨⟨1, 4⟩, ⟨1, 5⟩, "2"⟩] .burst)).undo_typing (by decide)
        (Prod.ext (by decide +kernel) rfl : Session.openEditor _ 0 = (.ok 1, _))
        (.round (fun buffer => buffer.replace 4 5 "3" .burst) .none (Prod.ext (by decide +kernel) rfl))
        (by decide) (by decide)
    obtain ⟨newest, length, all, busy, -⟩ := joined (by decide +kernel) (by decide)
    have more : 1 < (newestGroup done.facade.undoSteps).length := by
      have positive := List.length_pos_of_ne_nil busy
      rw [all, List.length_append, length]
      omega
    obtain rfl := congrArg Prod.snd commits
    exact ⟨_, _, _, _, _, rfl, rfl, Prod.ext (by decide +kernel) rfl,
      Prod.ext (by decide +kernel) rfl, commits, more, by decide +kernel, _,
      Prod.ext (by decide +kernel) rfl, by decide +kernel⟩

end Session

end Notebook

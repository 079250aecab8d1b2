import Notebook.Proofs.Session.Course
import Notebook.Proofs.Session.Seat
/-!
# How long an editor stays

Each time the editor is opened it gets a number, higher than all before. Whatever is done to a
notebook, its editor is the one from before, on the same cell, or has a number that was not given
out yet. And it never outlasts its cell. This holds of any session, under any tag.
-/
namespace Notebook.Session

variable {session before middle after : Session} {operation : Operation}

/-- If there is an editor, its cell exists. -/
def Housed (session : Session) : Prop :=
  ∀ editor, session.editor = some editor → editor.cell ∈ session.cells.cells.map Cell.id

/-- One session became another: the editor stayed, was closed, or was opened anew. -/
structure Tenure (before after : Session) : Prop where
  generation : before.generation ≤ after.generation
  editor : ∀ later, after.editor = some later →
    (∃ earlier, before.editor = some earlier ∧ later.generation = earlier.generation ∧
      later.cell = earlier.cell) ∨
    before.generation < later.generation ∧ later.generation ≤ after.generation
  housed : before.Housed → after.Housed

theorem Tenure.trans (there : Tenure before middle) (onward : Tenure middle after) :
    Tenure before after := by
  refine ⟨there.generation.trans onward.generation, ?_, onward.housed ∘ there.housed⟩
  intro later opened
  rcases onward.editor later opened with ⟨between, known, number, cell⟩ | ⟨new, bound⟩
  · rcases there.editor between known with ⟨earlier, before, number', cell'⟩ | ⟨new, bound⟩
    · exact .inl ⟨earlier, before, number.trans number', cell.trans cell'⟩
    · exact .inr ⟨number ▸ new, number ▸ bound.trans onward.generation⟩
  · exact .inr ⟨Nat.lt_of_le_of_lt there.generation new, bound⟩

/-- The editor may have been attended to, and each cell has its identity from before. -/
theorem Tenure.of_attends (generation : after.generation = before.generation)
    (attends : Attends before.editor after.editor)
    (cells : after.cells.cells.map Cell.id = before.cells.cells.map Cell.id) : Tenure before after := by
  refine ⟨generation.ge, fun later opened => .inl (attends later opened), fun housed later opened => ?_⟩
  obtain ⟨earlier, known, -, cell⟩ := attends later opened
  rw [cell, cells]
  exact housed earlier known

theorem Tenure.of_same (generation : after.generation = before.generation)
    (editor : after.editor = before.editor)
    (cells : after.cells.cells.map Cell.id = before.cells.cells.map Cell.id) : Tenure before after :=
  .of_attends generation (fun later opened => ⟨later, editor ▸ opened, rfl, rfl⟩) cells

theorem Tenure.refl (session : Session) : Tenure session session := .of_same rfl rfl rfl

theorem housed_of_none (closed : session.editor = none) : session.Housed := by
  intro editor opened
  rw [closed] at opened
  cases opened

theorem tenure_of_none (generation : after.generation = before.generation)
    (closed : after.editor = none) : Tenure before after := by
  refine ⟨generation.ge, fun later opened => ?_, fun _ => housed_of_none closed⟩
  rw [closed] at opened
  cases opened

/-- An editor that is open after it was closed was opened in between. -/
theorem Tenure.of_closed (tenure : Tenure before after) (closed : before.editor = none)
    {later : Editor} (opened : after.editor = some later) : before.generation < later.generation := by
  rcases tenure.editor later opened with ⟨earlier, known, -⟩ | ⟨new, -⟩
  · rw [closed] at known
    cases known
  · exact new

/-! ## Views made anew -/

/-- The editor that looks its cell up again is the same, or finds no cell and is closed. -/
theorem tenure_reloadEditor (generation : session.generation = before.generation)
    (editor : session.editor = before.editor) : Tenure before session.reloadEditor := by
  unfold reloadEditor
  split
  next closed => exact tenure_of_none generation closed
  next known opened =>
    dsimp only
    split
    next => exact tenure_of_none generation rfl
    next cell span current =>
      have house : known.cell ∈ session.cells.cells.map Cell.id := by
        obtain ⟨found, live, -⟩ := Option.bind_eq_some_iff.mp current
        refine List.mem_map.mpr ⟨found, List.mem_of_find?_eq_some live, ?_⟩
        simpa using List.find?_some live
      have before := editor.symm.trans opened
      -- Whether the buffer is written or not, it is the same editor.
      split
      all_goals
        refine ⟨generation.ge, ?_, fun _ => ?_⟩
        · rintro _ ⟨⟩
          exact .inl ⟨known, before, rfl, rfl⟩
        · rintro _ ⟨⟩
          exact house

/-! ## Every phase -/

theorem generation_applyEvent (session : Session) (event : Event) :
    (session.applyEvent event).2.generation = session.generation := by
  obtain ⟨cells, executions, namespaces, applied⟩ := session.applyEvent_eq event
  rw [applied]

theorem Phase.tenure (phase : Phase operation before after) : Tenure before after := by
  cases phase with
  | refreshed => exact tenure_reloadEditor rfl rfl
  | attended attends => exact .of_attends rfl attends rfl
  | noted | ended | idle | tracked | drained => exact .of_same rfl rfl rfl
  | written => exact .of_same rfl rfl (before.ids_withSource _ _ _ _)
  | queued => exact .of_same rfl rfl (before.ids_ticketed _ _)
  | reported =>
    exact .of_same (before.generation_applyEvent _) (before.editor_applyEvent _) (before.ids_applyEvent _)
  | opened here =>
    refine ⟨Nat.le_succ _, ?_, fun _ => ?_⟩
    · rintro _ ⟨⟩
      exact .inr ⟨Nat.lt_succ_self _, Nat.le_refl _⟩
    · rintro _ ⟨⟩
      exact List.mem_map_of_mem (List.mem_of_getElem? here)

theorem Phases.tenure (phases : Phases operation before after) : Tenure before after :=
  phases.keep (fun phase there => there.trans phase.tenure) (.refl before)

/-- Every operation lets the editor stay, closes it, or opens it anew. -/
theorem tenure_perform (session : Session) (operation : Operation) :
    Tenure session (operation.perform session).2 :=
  (session.phases_perform operation).tenure

/-! ## Opening and closing -/

theorem editor_closeEditor (session : Session) : session.closeEditor.editor = none := by
  unfold closeEditor
  split
  next none => exact Option.isNone_iff_eq_none.mp none
  next => rfl

/-- Opening the editor gives it the next number, or leaves it closed. -/
theorem openEditor_cases (session : Session) (index : Nat) :
    let looked := (session.closeEditor.spanOrRepair index).2
    (∃ fault, session.openEditor index = (.error fault, looked)) ∨
    ∃ editor, session.openEditor index = (.ok editor.generation,
        { looked with generation := editor.generation, editor := some editor }) ∧
      editor.generation = looked.generation + 1 ∧ editor.cell ∈ looked.cells.cells.map Cell.id := by
  intro looked
  unfold openEditor
  split
  next fault after refused =>
    exact .inl ⟨fault, by simp [looked, refused]⟩
  next span after found =>
    obtain rfl : looked = after := congrArg Prod.snd found
    split
    next => exact .inl ⟨_, rfl⟩
    next cell here =>
      refine .inr ⟨Editor.start cell.id (looked.generation + 1) span cell.source, rfl, rfl, ?_⟩
      exact List.mem_map_of_mem (List.mem_of_getElem? here)

/-- An editor that is open after the editor was to be opened is a new one. -/
theorem editor_openEditor (session : Session) (index : Nat) {later : Editor}
    (opened : (session.openEditor index).2.editor = some later) :
    session.generation < later.generation := by
  have closed := (session.phases_closeEditor .closeEditor).tenure.generation
  have looked := (session.closeEditor.phases_spanOrRepair index .closeEditor).tenure
  rcases session.openEditor_cases index with ⟨fault, same⟩ | ⟨editor, same, number, -⟩
  · rw [same] at opened
    exact Nat.lt_of_le_of_lt closed (looked.of_closed session.editor_closeEditor opened)
  · rw [same] at opened
    obtain rfl := Option.some.inj opened
    have bound := looked.generation
    omega

/-! ## Runs -/

theorem Leads.tenure (leads : before.Leads after) : Tenure before after := by
  induction leads with
  | still => exact .refl before
  | step _ operation ih => exact ih.trans (tenure_perform _ operation)

theorem Reachable.housed {settings : Settings} (reachable : Reachable settings session) :
    session.Housed := by
  induction reachable with
  | cells opened => exact housed_of_none (editor_of_build opened)
  | text opened => exact housed_of_none (editor_of_ofText opened)
  | @step before _ operation ih => exact (before.tenure_perform operation).housed ih

end Notebook.Session

import Notebook.Proofs.Session.Seat
/-!
# Refused requests change nothing

A request first brings in what the editor holds. Then it checks what it was asked for, and writes only
what passed, so a refusal leaves the notebook as the changes of the editor left it. There are two late
checks: a cell must be found again after it was written, and an editor whose cell is gone is closed.
The views are in step and the editor sits on its cell, so neither finds anything.
-/
namespace Notebook

open Text

/-- The operation is a request: it changes the notebook or queues a cell, unless it is refused. -/
def Operation.isRequest : Operation → Bool
  | insertCell _ _ _ | deleteCell _ | moveCell _ _ | setKind _ _ | setSource _ _ | editCell _ _ _
  | editFacade _ _ | queue _ => true
  | _ => false

namespace Session

variable {session after : Session} {fault : Fault}

/-! ## Bringing in what the editor holds -/

/-- Bring changes of the editor into the notebook and do nothing else. -/
def flush (session : Session) : Outcome Unit := session.flushed fun session => (.ok (), session)

theorem flush_of_clean (clean : session.editorIsDirty = false) : session.flush = (.ok (), session) := by
  simp [flush, flushed, clean]

/-- Whatever follows the changes of the editor follows on bringing them in alone. -/
theorem flushed_eq {α : Type} (session : Session) (next : Session → Outcome α) :
    session.flushed next = match session.flush with
      | (.error fault, middle) => (.error fault, middle)
      | (.ok _, middle) => next middle := by
  unfold flush flushed
  split
  next =>
    rcases session.syncEditor with ⟨result, middle⟩
    cases result <;> rfl
  next => rfl

theorem phases_flush (session : Session) (operation : Operation) :
    Phases operation session session.flush.2 :=
  session.phases_flushed fun middle _ => .refl middle

theorem Sound.flush (sound : session.Sound) : session.flush.2.Sound :=
  (sound.phases (session.phases_flush .commitEditor)).sound

/-- Changes of the editor that are refused leave everything as it was, the editor included. -/
theorem Sound.flush_refused (sound : session.Sound) {agrees : Editor → Text → Prop}
    (seated : Seated agrees session) (refused : session.flush.1 = .error fault) :
    session.flush.2 = session := by
  unfold Session.flush Session.flushed at refused ⊢
  split
  next dirty =>
    rw [if_pos dirty] at refused
    rcases sound.syncEditor_cases seated with ⟨_, known, -⟩ | known | ⟨_, _, _, _, _, _, _, known⟩
    · rw [known]
    · rw [known]
    · -- Changes that were written were not refused.
      rw [known] at refused
      cases refused
  next => rfl

/-! ## What is refused after that -/

theorem Sound.refused_flushed {α : Type} (sound : session.Sound) {next : Session → Outcome α}
    (still : ∀ middle : Session, middle.Sound → ∀ fault after,
      next middle = (.error fault, after) → after = middle)
    (refused : session.flushed next = (.error fault, after)) : after = session.flush.2 := by
  have flushed := sound.flush
  rw [flushed_eq] at refused
  split at refused
  next known =>
    cases refused
    rw [known]
  next middle known =>
    rw [known] at flushed ⊢
    exact still middle flushed fault after refused

theorem Sound.refused_restructured {α : Type} (sound : session.Sound)
    {change : CellList → Except Fault (α × CellList)}
    (refused : session.restructured change = (.error fault, after)) : after = session.flush.2 := by
  apply sound.refused_flushed _ refused
  intro middle _ fault after refused
  split at refused
  next =>
    cases refused
    rfl
  next => cases refused

/-- The one place where a check comes after the writing: the written cell is always found again. -/
theorem Sound.refused_replaceSource (sound : session.Sound) {index : Nat} {source : Text}
    (refused : session.replaceSource index (Text.lines source) = (.error fault, after)) :
    after = session := by
  unfold Session.replaceSource at refused
  rcases sound.inStep.writeCell sound.plain sound.coherent.distinct_cells index source .alone with
    ⟨fault, known⟩ | ⟨_, _, _, _, _, _, _, _, known, _⟩
  · rw [known] at refused
    cases refused
    rfl
  · rw [known] at refused
    cases refused

theorem Sound.refused_editCell (sound : session.Sound) {id : Text} {expected : Span}
    {edits : List Edit} (refused : session.editCell id expected edits = (.error fault, after)) :
    after = session.flush.2 := by
  apply sound.refused_flushed _ refused
  intro middle sound fault after
  dsimp only
  split
  next =>
    rintro ⟨⟩
    rfl
  next =>
    split
    next =>
      split
      next =>
        rintro ⟨⟩
        rfl
      next =>
        split
        next =>
          rintro ⟨⟩
          rfl
        next =>
          split
          next => nofun
          next => exact sound.refused_replaceSource
    next =>
      rintro ⟨⟩
      rfl

theorem Sound.refused_editFacade (sound : session.Sound) {edits : List Edit} {grouping : Grouping}
    (refused : session.editFacade edits grouping = (.error fault, after)) :
    after = session.flush.2 := by
  apply sound.refused_flushed _ refused
  intro middle _ fault after
  dsimp only
  split
  next => nofun
  next =>
    split
    next =>
      -- The edits were tried on a copy of the facade.
      rintro ⟨⟩
      rfl
    next =>
      split
      next => nofun
      next => nofun

theorem Sound.refused_queue (sound : session.Sound) {index : Nat}
    (refused : session.queue index = (.error fault, after)) : after = session.flush.2 := by
  apply sound.refused_flushed _ refused
  intro middle _ fault after
  split
  next =>
    rintro ⟨⟩
    rfl
  next =>
    split
    next =>
      rintro ⟨⟩
      rfl
    next => nofun

theorem Sound.refused_perform (sound : session.Sound) {operation : Operation}
    (request : operation.isRequest = true)
    (refused : operation.perform session = (.error fault, after)) : after = session.flush.2 := by
  cases operation with
  | insertCell index kind source =>
    exact sound.refused_restructured (Operation.settle_eq_error refused)
  | deleteCell index => exact sound.refused_restructured (Operation.settle_eq_error refused)
  | moveCell source target => exact sound.refused_restructured (Operation.settle_eq_error refused)
  | setKind index kind => exact sound.refused_restructured (Operation.settle_eq_error refused)
  | setSource index source =>
    apply sound.refused_flushed _ (Operation.settle_eq_error refused)
    intro middle sound fault after refused
    exact sound.refused_replaceSource refused
  | editCell id expected edits => exact sound.refused_editCell (Operation.settle_eq_error refused)
  | editFacade edits grouping => exact sound.refused_editFacade (Operation.settle_eq_error refused)
  | queue index => exact sound.refused_queue (Operation.settle_eq_error refused)
  | _ => cases request

/-- A request that is refused, for whatever it was given, leaves the session exactly as bringing in the
changes of the editor alone leaves it. So if there are none, or if they are what is refused, it leaves
the session as it was. -/
theorem Reachable.refused_request {settings : Settings} (reachable : Reachable settings session)
    (plain : '\n' ∉ settings.tag) (operation : Operation) (request : operation.isRequest = true)
    (refused : operation.perform session = (.error fault, after)) :
    after = session.flush.2 ∧
      (session.editorIsDirty = false ∨ (∃ fault, session.flush.1 = .error fault) → after = session) := by
  obtain ⟨sound, -⟩ := reachable.sound plain
  have left := sound.refused_perform request refused
  refine ⟨left, ?_⟩
  rintro (clean | ⟨fault, stuck⟩)
  · rw [left, flush_of_clean clean]
  · rw [left]
    exact sound.flush_refused (reachable.seated plain) stuck

/-- So it is with an insertion behind the end of the notebook while the editor holds a change: the
change is brought in, and nothing is inserted. -/
theorem refused_request_with_change : ∃ opened session after : Session,
    Session.ofCells [{ id := "a", kind := .code, source := "x = 1" }] {} = .ok opened ∧
    session = (Operation.perform (Operation.perform opened (.openEditor 0)).2
      (.editBuffer fun buffer => buffer.replace 4 5 "2" .burst)).2 ∧
    Operation.perform session (.insertCell 5 .code "y = 1") =
      (.error (.indexOutOfRange 5 1), after) ∧
    after.cells.blocks = [⟨.code, "x = 2"⟩] ∧ after = session.flush.2 := by
  have opened : Reachable {} _ := .cells (rfl :
    Session.ofCells [{ id := "a", kind := .code, source := "x = 1" }] {} = .ok _)
  have session := (opened.step (.openEditor 0)).step
    (.editBuffer fun buffer => buffer.replace 4 5 "2" .burst)
  refine ⟨_, _, _, rfl, rfl, Prod.ext (by decide +kernel) rfl, by decide +kernel, ?_⟩
  exact (session.refused_request (by decide) (.insertCell 5 .code "y = 1") rfl
    (Prod.ext (by decide +kernel) rfl :
      _ = ((.error (.indexOutOfRange 5 1), _) : Outcome Unit))).1

end Session

end Notebook

import Notebook.Proofs.Buffer.Splice
/-!
# Whatever is done to a buffer is a row of splices

Every action on a buffer is a row of splices, undo and redo included, and a buffer that records its
splices records this row. Each splice makes a revision. So the revision never goes down, and it goes up
whenever the text becomes another one: whoever remembers the revision at which the buffer held a text
knows when it still does.
-/
namespace Notebook.Buffer

/-- What a caller can do to a buffer, named like the functions that do it. -/
inductive Action where
  | replace (start stop : Nat) (inserted : Text) (grouping : Grouping)
  | replaceSpan (start stop : Position) (inserted : Text) (grouping : Grouping)
  | replaceLines (start stop : Nat) (new : List Text) (grouping : Grouping)
  | setLines (new : List Text) (grouping : Grouping)
  | setText (text : Text) (grouping : Grouping)
  | endGroup
  | undo
  | redo
  | withHistory (limit : Nat)
  | track (on : Bool)
  | drain
  | bindAnchor (id : Text) (line : Nat)
  | clearAnchors

def Action.perform (buffer : Buffer) : Action → Buffer
  | replace start stop inserted grouping => buffer.replace start stop inserted grouping
  | replaceSpan start stop inserted grouping => buffer.replaceSpan start stop inserted grouping
  | replaceLines start stop new grouping => buffer.replaceLines start stop new grouping
  | setLines new grouping => (buffer.setLines new grouping).2
  | setText text grouping => (buffer.setText text grouping).2
  | endGroup => buffer.endGroup
  | undo => buffer.undo.2
  | redo => buffer.redo.2
  | withHistory limit => buffer.withHistory limit
  | track on => buffer.track on
  | drain => buffer.drain
  | bindAnchor id line => buffer.bindAnchor id line
  | clearAnchors => buffer.clearAnchors

/-- What the buffer has recorded is not dropped, and it goes on recording if it did. -/
def Action.keepsRecord : Action → Bool
  | .track _ | .drain => false
  | _ => true

/-! ## Splices -/

theorem Direction.spliced (direction : Direction) (buffer : Buffer) :
    ∃ splices, Spliced buffer (direction.travel buffer).2 splices := by
  refine @Direction.travel_keeps (fun after => ∃ splices, Spliced buffer after splices) direction buffer
    ⟨[], .refl buffer⟩ ?_ ?_
  · rintro after history ⟨splices, row⟩
    exact ⟨splices, row.leads, row.revision, row.pending⟩
  · rintro after splice fits ⟨splices, row⟩
    exact ⟨splices ++ [splice], row.trans (spliced_apply fits)⟩

theorem spliced_undo (buffer : Buffer) : ∃ splices, Spliced buffer buffer.undo.2 splices :=
  Direction.back.spliced buffer

theorem spliced_redo (buffer : Buffer) : ∃ splices, Spliced buffer buffer.redo.2 splices :=
  Direction.forth.spliced buffer

theorem spliced_replaceLines (buffer : Buffer) (start stop : Nat) (new : List Text)
    (grouping : Grouping) :
    ∃ splices, Spliced buffer (buffer.replaceLines start stop new grouping) splices :=
  replaceLines_keeps (fun after => ∃ splices, Spliced buffer after splices) ⟨[], .refl buffer⟩
    (fun first last inserted => ⟨_, buffer.spliced_replace first last inserted grouping⟩) start stop new

theorem spliced_setLines (buffer : Buffer) (new : List Text) (grouping : Grouping) :
    ∃ splices, Spliced buffer (buffer.setLines new grouping).2 splices :=
  setLines_keeps (fun after => ∃ splices, Spliced buffer after splices) ⟨[], .refl buffer⟩
    (fun first last inserted => ⟨_, buffer.spliced_replace first last inserted grouping⟩) new

/-- Whatever is done to a buffer is a row of splices, which it records if it records any. -/
theorem spliced_perform (buffer : Buffer) {action : Action} (keeps : action.keepsRecord = true) :
    ∃ splices, Spliced buffer (action.perform buffer) splices := by
  cases action with
  | replace start stop inserted grouping => exact ⟨_, buffer.spliced_replace start stop inserted grouping⟩
  | replaceSpan start stop inserted grouping => exact ⟨_, buffer.spliced_replace _ _ inserted grouping⟩
  | replaceLines start stop new grouping => exact buffer.spliced_replaceLines start stop new grouping
  | setLines new grouping => exact buffer.spliced_setLines new grouping
  | setText text grouping => exact buffer.spliced_setLines _ grouping
  | undo => exact buffer.spliced_undo
  | redo => exact buffer.spliced_redo
  | track on => cases keeps
  | drain => cases keeps
  | _ => exact ⟨[], .done _, rfl, by simp [Action.perform, endGroup, withHistory, bindAnchor, clearAnchors]⟩

/-! ## Revisions -/

/-- A buffer became another one, and its revision tells whether its text may have changed. -/
structure Revised (before after : Buffer) : Prop where
  revision : before.revision ≤ after.revision
  text : after.revision = before.revision → after.text = before.text

variable {a b c : Buffer}

theorem Revised.refl (buffer : Buffer) : Revised buffer buffer := ⟨Nat.le_refl _, fun _ => rfl⟩

theorem Revised.trans (there : Revised a b) (onward : Revised b c) : Revised a c := by
  refine ⟨Nat.le_trans there.revision onward.revision, fun same => ?_⟩
  -- The revision of the buffer in between lies between two equal ones.
  have here : b.revision = a.revision :=
    Nat.le_antisymm (same ▸ onward.revision) there.revision
  rw [onward.text (same.trans here.symm), there.text here]

/-- Each splice makes a revision. -/
theorem Spliced.revised {splices : List Splice} (spliced : Spliced a b splices) : Revised a b := by
  refine ⟨by rw [spliced.revision]; omega, fun same => ?_⟩
  obtain rfl : splices = [] := by
    rw [spliced.revision] at same
    exact List.length_eq_zero_iff.mp (by omega)
  exact spliced.leads.foldl_eq.symm

theorem revised_replace (buffer : Buffer) (start stop : Nat) (inserted : Text)
    (grouping : Grouping) : Revised buffer (buffer.replace start stop inserted grouping) :=
  (buffer.spliced_replace start stop inserted grouping).revised

theorem revised_replaceLines (buffer : Buffer) (start stop : Nat) (new : List Text)
    (grouping : Grouping) : Revised buffer (buffer.replaceLines start stop new grouping) :=
  have ⟨_, spliced⟩ := buffer.spliced_replaceLines start stop new grouping
  spliced.revised

theorem revised_setLines (buffer : Buffer) (new : List Text) (grouping : Grouping) :
    Revised buffer (buffer.setLines new grouping).2 :=
  have ⟨_, spliced⟩ := buffer.spliced_setLines new grouping
  spliced.revised

theorem revised_undo (buffer : Buffer) : Revised buffer buffer.undo.2 :=
  have ⟨_, spliced⟩ := buffer.spliced_undo
  spliced.revised

theorem revised_redo (buffer : Buffer) : Revised buffer buffer.redo.2 :=
  have ⟨_, spliced⟩ := buffer.spliced_redo
  spliced.revised

/-- Whatever is done to a buffer, its revision tells whether its text may have changed. -/
theorem revised_perform (buffer : Buffer) (action : Action) :
    Revised buffer (action.perform buffer) := by
  cases keeps : action.keepsRecord with
  | true =>
    obtain ⟨_, spliced⟩ := buffer.spliced_perform keeps
    exact spliced.revised
  | false =>
    cases action with
    | track on => exact ⟨Nat.le_refl _, fun _ => rfl⟩
    | drain => exact ⟨Nat.le_refl _, fun _ => rfl⟩
    | _ => cases keeps

end Notebook.Buffer

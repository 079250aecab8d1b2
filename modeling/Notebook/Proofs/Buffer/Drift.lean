import Notebook.Proofs.Buffer.Action
import Notebook.Proofs.Buffer.Anchors
/-!
# Anchors drift with the text

A splice takes the anchors behind it along, leaves those in front of it and drops those in its span. So
an anchor never passes another one and never leaves the text. Whatever is done to a buffer moves its
anchors by splices alone, undo and redo included, unless anchors are bound or cleared.
-/
namespace Notebook.Buffer

open Text

/-! ## One splice -/

section Shift

variable {start stop inserted offset moved : Nat}

theorem shiftAnchor_lt {other otherMoved : Nat} (inOrder : start ≤ stop) (before : offset < other)
    (first : shiftAnchor start stop inserted offset = some moved)
    (second : shiftAnchor start stop inserted other = some otherMoved) : moved < otherMoved := by
  unfold shiftAnchor at first second
  grind

/-- An anchor moves no further than the end of the text does. -/
theorem shiftAnchor_le {length : Nat} (inOrder : start ≤ stop) (within : stop ≤ length)
    (bound : offset ≤ length) (shifted : shiftAnchor start stop inserted offset = some moved) :
    moved ≤ start + (inserted + (length - stop)) := by
  unfold shiftAnchor at shifted
  grind

end Shift

/-- After a splice an anchor is where the splice has moved it. -/
theorem get?_shifted {anchors : Table Text Nat} (distinct : anchors.Distinct)
    (start stop inserted : Nat) (id : Text) :
    Table.get? (shiftAnchors anchors start stop inserted) id =
      (Table.get? anchors id).bind (shiftAnchor start stop inserted) :=
  distinct.get?_filterMap (shiftAnchor start stop inserted) id

theorem length_apply {buffer : Buffer} {splice : Splice} (fits : splice.Fits buffer.text) :
    (buffer.apply splice).text.length =
      splice.start + (splice.inserted.length + (buffer.text.length - splice.stop)) := by
  have within := fits.stop_le
  have inOrder : splice.start ≤ splice.stop := Nat.le_add_right ..
  simp only [apply, List.length_append, List.length_take, List.length_drop]
  omega

theorem distinct_apply {buffer : Buffer} (distinct : buffer.anchors.Distinct) (splice : Splice) :
    (buffer.apply splice).anchors.Distinct :=
  List.Nodup.sublist (buffer.anchored_apply splice) distinct

/-! ## A row of splices -/

/-- What is done does not bind or clear anchors. -/
def Action.keepsAnchors : Action → Bool
  | .bindAnchor .. | .clearAnchors => false
  | _ => true

/-- Splices lead from the text and the anchors of one buffer to those of another. -/
inductive Carried (before : Buffer) : Buffer → Prop
  | still : Carried before before
  | splice {after : Buffer} {splice : Splice} : Carried before after → splice.Fits after.text →
      Carried before (after.apply splice)
  | beside {after other : Buffer} : Carried before after → other.text = after.text →
      other.anchors = after.anchors → Carried before other

variable {before middle after buffer : Buffer}

theorem Carried.trans (there : Carried before middle) (onward : Carried middle after) :
    Carried before after := by
  induction onward with
  | still => exact there
  | splice _ fits ih => exact ih.splice fits
  | beside _ text anchors ih => exact ih.beside text anchors

theorem carried_replace (buffer : Buffer) (start stop : Nat) (inserted : Text)
    (grouping : Grouping) : Carried buffer (buffer.replace start stop inserted grouping) :=
  (Carried.still.splice (buffer.spliceAt_fits start stop inserted)).beside rfl rfl

theorem carried_replaceLines (buffer : Buffer) (start stop : Nat) (new : List Text)
    (grouping : Grouping) : Carried buffer (buffer.replaceLines start stop new grouping) :=
  replaceLines_keeps (Carried buffer) .still (buffer.carried_replace · · · grouping) start stop new

theorem carried_setLines (buffer : Buffer) (new : List Text) (grouping : Grouping) :
    Carried buffer (buffer.setLines new grouping).2 :=
  setLines_keeps (Carried buffer) .still (buffer.carried_replace · · · grouping) new

theorem Direction.carried (direction : Direction) (buffer : Buffer) :
    Carried buffer (direction.travel buffer).2 :=
  direction.travel_keeps .still (fun _ carried => carried.beside rfl rfl)
    fun fits carried => carried.splice fits

theorem carried_undo (buffer : Buffer) : Carried buffer buffer.undo.2 := Direction.back.carried buffer

theorem carried_redo (buffer : Buffer) : Carried buffer buffer.redo.2 := Direction.forth.carried buffer

/-- Whatever is done to a buffer, its anchors go with its text. -/
theorem carried_perform (buffer : Buffer) {action : Action} (keeps : action.keepsAnchors = true) :
    Carried buffer (action.perform buffer) := by
  cases action with
  | replace start stop inserted grouping => exact buffer.carried_replace start stop inserted grouping
  | replaceSpan start stop inserted grouping => exact buffer.carried_replace _ _ inserted grouping
  | replaceLines start stop new grouping => exact buffer.carried_replaceLines start stop new grouping
  | setLines new grouping => exact buffer.carried_setLines new grouping
  | setText text grouping => exact buffer.carried_setLines _ grouping
  | undo => exact buffer.carried_undo
  | redo => exact buffer.carried_redo
  | bindAnchor id line => cases keeps
  | clearAnchors => cases keeps
  | _ => exact Carried.still.beside rfl rfl

/-! ## What splices keep -/

theorem Carried.anchored (carried : Carried before after) :
    after.anchored.Sublist before.anchored := by
  induction carried with
  | still => exact List.Sublist.refl _
  | @splice after splice _ _ ih => exact (after.anchored_apply splice).trans ih
  | beside _ _ anchors ih => rwa [Buffer.anchored, anchors]

theorem Carried.distinct (carried : Carried before after) (distinct : before.anchors.Distinct) :
    after.anchors.Distinct :=
  List.Nodup.sublist carried.anchored distinct

/-- What becomes of a text when one thing after the other is done to it as a buffer. -/
def used (text : Text) (actions : List Action) : Buffer :=
  actions.foldl Action.perform (ofText text)

/-- No name is bound twice at a time. -/
theorem distinct_used (text : Text) (actions : List Action) :
    (used text actions).anchors.Distinct := by
  have one (buffer : Buffer) (action : Action) (distinct : buffer.anchors.Distinct) :
      (action.perform buffer).anchors.Distinct := by
    cases keeps : action.keepsAnchors with
    | true => exact (buffer.carried_perform keeps).distinct distinct
    | false =>
      cases action with
      | bindAnchor id line => exact distinct.set id _
      | clearAnchors => exact List.nodup_nil
      | _ => cases keeps
  exact List.foldlRecOn actions Action.perform List.nodup_nil
    fun buffer distinct action _ => one buffer action distinct

/-- Every anchor lies within the text, no name is bound twice, and those of a row of names lie one behind
the other. -/
structure Rising (names : List Text) (buffer : Buffer) : Prop where
  distinct : buffer.anchors.Distinct
  within : ∀ id offset, Table.get? buffer.anchors id = some offset → offset ≤ buffer.text.length
  rising : (names.filterMap (Table.get? buffer.anchors)).Pairwise (· < ·)

theorem Rising.lt {names : List Text} (rising : buffer.Rising names) {above below : Nat}
    (inOrder : above < below) {name other : Text} (first : names[above]? = some name)
    (second : names[below]? = some other) {offset further : Nat}
    (found : Table.get? buffer.anchors name = some offset)
    (next : Table.get? buffer.anchors other = some further) : offset < further := by
  obtain ⟨_, rfl⟩ := List.getElem?_eq_some_iff.mp first
  obtain ⟨_, rfl⟩ := List.getElem?_eq_some_iff.mp second
  have pairs := List.pairwise_iff_getElem.mp (List.pairwise_filterMap.mp rising.rising)
  exact pairs above below _ _ inOrder offset found further next

/-- An anchor that is still there has a line. -/
theorem Rising.anchorLine {names : List Text} (rising : buffer.Rising names) (id : Text) :
    buffer.anchorLine id = (Table.get? buffer.anchors id).map (lineOf buffer.text) := by
  unfold Buffer.anchorLine
  cases found : Table.get? buffer.anchors id with
  | none => rfl
  | some offset => exact if_pos (rising.within id offset found)

theorem Rising.apply {names : List Text} (rising : buffer.Rising names) {splice : Splice}
    (fits : splice.Fits buffer.text) : (buffer.apply splice).Rising names := by
  have inOrder : splice.start ≤ splice.stop := Nat.le_add_right ..
  have moved (id : Text) : Table.get? (buffer.apply splice).anchors id =
      (Table.get? buffer.anchors id).bind
        (shiftAnchor splice.start splice.stop splice.inserted.length) :=
    get?_shifted rising.distinct _ _ _ id
  refine ⟨distinct_apply rising.distinct splice, fun id offset found => ?_, ?_⟩
  · rw [moved] at found
    obtain ⟨earlier, known, shifted⟩ := Option.bind_eq_some_iff.mp found
    rw [length_apply fits]
    exact shiftAnchor_le inOrder fits.stop_le (rising.within id earlier known) shifted
  · -- The offsets afterwards are those from before, moved one by one.
    rw [funext moved, ← List.filterMap_filterMap]
    refine List.Pairwise.filterMap _ ?_ rising.rising
    intro offset other earlier _ first _ second
    exact shiftAnchor_lt inOrder earlier first second

theorem Carried.rising {names : List Text} (carried : Carried before after)
    (rising : before.Rising names) : after.Rising names := by
  induction carried with
  | still => exact rising
  | splice _ fits ih => exact ih.apply fits
  | beside _ text anchors ih => exact ⟨anchors ▸ ih.distinct, anchors ▸ text ▸ ih.within, anchors ▸ ih.rising⟩

end Notebook.Buffer

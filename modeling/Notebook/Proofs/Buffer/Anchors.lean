import Notebook.Proofs.Buffer.Lines
import Notebook.Proofs.Table
/-!
# Anchors and lines

An anchor that was bound to the start of a line sits on that line until lines above it come or go,
and then moves with it. This holds for writing lines above the last line of the text. A splice binds no
anchor.
-/
namespace Notebook.Buffer

open Text

/-- An anchor is bound to the start of a line. -/
structure AnchoredAt (buffer : Buffer) (id : Text) (line : Nat) : Prop where
  /-- The offset of the anchor is that of the line. -/
  offset : Table.get? buffer.anchors id = some (lineStart buffer.text line)
  below : line < buffer.lineCount

theorem AnchoredAt.anchorLine {buffer : Buffer} {id : Text} {line : Nat}
    (anchored : AnchoredAt buffer id line) : buffer.anchorLine id = some line := by
  simp only [Buffer.anchorLine, anchored.offset, if_pos (lineStart_le_length anchored.below),
    lineOf_lineStart anchored.below]

/-- An anchor that survives a splice is found where it went. -/
theorem get?_shiftAnchors {anchors : Table Text Nat} {id : Text} {offset moved : Nat}
    {start stop inserted : Nat} (found : Table.get? anchors id = some offset)
    (survives : shiftAnchor start stop inserted offset = some moved) :
    Table.get? (shiftAnchors anchors start stop inserted) id = some moved := by
  induction anchors with
  | nil => cases found
  | cons anchor rest ih =>
    rw [Table.get?_cons] at found
    -- Only the first anchor of a name counts, and it survives; others may be dropped around it.
    by_cases here : anchor.1 = id
    · rw [if_pos here, Option.some.injEq] at found
      simp only [shiftAnchors, List.filterMap_cons, found, survives, Option.map_some,
        Table.get?_cons, if_pos here]
    · rw [if_neg here] at found
      have later := ih found
      simp only [shiftAnchors, List.filterMap_cons] at later ⊢
      cases lost : (shiftAnchor start stop inserted anchor.2).map fun o => (anchor.1, o) with
      | none => exact later
      | some entry =>
        obtain ⟨o, -, rfl⟩ := Option.map_eq_some_iff.mp lost
        rw [Table.get?_cons, if_neg here]
        exact later

section Write

variable {buffer : Buffer} {start stop line : Nat} {new : List Text} {id : Text}

/-- Where a line starts, from the lines of its buffer. -/
theorem lineStart_text {buffer : Buffer} (below : line < buffer.lineCount) :
    lineStart buffer.text line = (terminated (buffer.lines.take line)).length :=
  lineStart_eq below

theorem lines_replaceLines_inside (inOrder : start ≤ stop) (inside : stop < buffer.lineCount)
    (areLines : ∀ line ∈ new, IsLine line) (grouping : Grouping) :
    (buffer.replaceLines start stop new grouping).lines =
      buffer.lines.take start ++ (new ++ buffer.lines.drop stop) := by
  rw [lines_replaceLines buffer start stop areLines, Nat.min_eq_left inOrder, orBlank_of_ne_nil]
  have nonempty : buffer.lines.drop stop ≠ [] := by
    simp [List.drop_eq_nil_iff, length_lines, inside]
  simp [nonempty]

/-- Writing lines leaves the anchors above them alone. -/
theorem AnchoredAt.replaceLines_above (anchored : AnchoredAt buffer id line)
    (inOrder : start ≤ stop) (inside : stop < buffer.lineCount)
    (areLines : ∀ line ∈ new, IsLine line) (grouping : Grouping) (above : line < start) :
    (buffer.replaceLines start stop new grouping).AnchoredAt id line := by
  have after := lines_replaceLines_inside inOrder inside areLines grouping
  have below : line < (buffer.replaceLines start stop new grouping).lineCount := by
    rw [← length_lines, after, List.length_append, List.length_take, length_lines]
    omega
  refine ⟨?_, below⟩
  by_cases idle : start = stop ∧ new = []
  · have same : buffer.replaceLines start stop new grouping = buffer := by
      simp [replaceLines, idle]
    rw [same]
    exact anchored.offset
  have change : start ≠ stop ∨ new ≠ [] := by tauto
  have before : lineStart buffer.text line < lineStart buffer.text start :=
    lineStart_lt above (Nat.lt_of_le_of_lt inOrder inside)
  have inSpan : lineStart buffer.text start ≤ lineStart buffer.text stop :=
    lineStart_le inOrder inside
  -- The anchor sits before the span that is replaced.
  have survives : shiftAnchor (lineStart buffer.text start) (lineStart buffer.text stop)
      (terminated new).length (lineStart buffer.text line) =
        some (lineStart buffer.text line) := by
    rw [shiftAnchor, if_neg (by omega), if_pos before]
  rw [lineStart_text below, after, List.take_append_of_le_length (by
      rw [List.length_take, length_lines]; omega), List.take_take,
    Nat.min_eq_left (Nat.le_of_lt above), ← lineStart_text anchored.below,
    replaceLines_inside inOrder inside change,
    anchors_replace _ inSpan (lineStart_le_length inside)]
  exact get?_shiftAnchors anchored.offset survives

/-- Writing lines moves the anchors below them as far as the number of lines changes. -/
theorem AnchoredAt.replaceLines_below (anchored : AnchoredAt buffer id line)
    (inOrder : start ≤ stop) (inside : stop < buffer.lineCount)
    (areLines : ∀ line ∈ new, IsLine line) (grouping : Grouping) (under : stop ≤ line) :
    (buffer.replaceLines start stop new grouping).AnchoredAt id
      (line - (stop - start) + new.length) := by
  have after := lines_replaceLines_inside inOrder inside areLines grouping
  have bound := anchored.below
  have below : line - (stop - start) + new.length <
      (buffer.replaceLines start stop new grouping).lineCount := by
    rw [← length_lines, after, List.length_append, List.length_append, List.length_take,
      List.length_drop, length_lines]
    omega
  refine ⟨?_, below⟩
  by_cases idle : start = stop ∧ new = []
  · have same : buffer.replaceLines start stop new grouping = buffer := by
      simp [replaceLines, idle]
    rw [same, idle.1, idle.2, Nat.sub_self]
    exact anchored.offset
  have change : start ≠ stop ∨ new ≠ [] := by tauto
  have inSpan : lineStart buffer.text start ≤ lineStart buffer.text stop :=
    lineStart_le inOrder inside
  have behind : lineStart buffer.text stop ≤ lineStart buffer.text line :=
    lineStart_le under anchored.below
  -- The anchor sits behind the span, and moves by the difference in length.
  have survives : shiftAnchor (lineStart buffer.text start) (lineStart buffer.text stop)
      (terminated new).length (lineStart buffer.text line) =
        some (lineStart buffer.text line -
          (lineStart buffer.text stop - lineStart buffer.text start) +
            (terminated new).length) := by
    rw [shiftAnchor, if_pos behind]
  -- What lies between the span and the anchored line is the same before and after.
  have between : buffer.lines.take line =
      buffer.lines.take stop ++ (buffer.lines.drop stop).take (line - stop) := by
    rw [← List.take_add, Nat.add_sub_cancel' under]
  have upto : (buffer.replaceLines start stop new grouping).lines.take
      (line - (stop - start) + new.length) =
        buffer.lines.take start ++ (new ++ (buffer.lines.drop stop).take (line - stop)) := by
    have front : (buffer.lines.take start).length = start := by
      rw [List.length_take, length_lines]; omega
    have index : line - (stop - start) + new.length = start + (new.length + (line - stop)) := by
      omega
    rw [after, index, List.take_append, List.take_of_length_le (by rw [front]; omega), front,
      Nat.add_sub_cancel_left, List.take_append, List.take_of_length_le (Nat.le_add_right ..),
      Nat.add_sub_cancel_left]
  have here : lineStart buffer.text line = lineStart buffer.text stop +
      (terminated ((buffer.lines.drop stop).take (line - stop))).length := by
    rw [lineStart_text anchored.below, between, terminated_append, List.length_append,
      ← lineStart_text inside]
  rw [lineStart_text below, upto, terminated_append, terminated_append, List.length_append,
    List.length_append, ← lineStart_text (Nat.lt_of_le_of_lt inOrder inside),
    replaceLines_inside inOrder inside change,
    anchors_replace _ inSpan (lineStart_le_length inside), get?_shiftAnchors anchored.offset survives]
  congr 1
  omega

end Write

/-! ## Which anchors there are -/

/-- The names of the anchors. -/
def anchored (buffer : Buffer) : List Text := buffer.anchors.map (·.1)

/-- A splice leaves some of the anchors, in their order. -/
theorem anchored_apply (buffer : Buffer) (splice : Splice) :
    (buffer.apply splice).anchored.Sublist buffer.anchored := by
  have shifted (anchors : Table Text Nat) (start stop inserted : Nat) :
      ((shiftAnchors anchors start stop inserted).map (·.1)).Sublist (anchors.map (·.1)) := by
    induction anchors with
    | nil => simp [shiftAnchors]
    | cons anchor rest ih =>
      simp only [shiftAnchors, List.filterMap_cons] at ih ⊢
      cases shiftAnchor start stop inserted anchor.2 with
      | none => exact ih.cons _
      | some offset => exact ih.cons_cons _
  exact shifted buffer.anchors splice.start splice.stop splice.inserted.length

end Notebook.Buffer

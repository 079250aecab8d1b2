import Notebook.Proofs.Buffer.Difference
import Notebook.Proofs.Buffer.Drift
/-!
# Anchors where lines are written at the tail

When lines are written, an anchor goes with its line and is lost with it. At the tail of the text, where the
line feed above the span goes with the span, offsets tell this apart only for lines that hold something. An
empty line above the span starts where the span does, so its anchor is lost though the line stays; and an
empty last line starts at the end of the text, so its anchor goes to the new end, whatever became of the
line. Nowhere else does an anchor stray.
-/
namespace Notebook.Buffer

open Text

variable {buffer : Buffer} {start stop line : Nat} {new : List Text} {id : Text}

/-! ## Where lines start -/

theorem length_unlines_le (parts : List Text) : (unlines parts).length ≤ (terminated parts).length := by
  rcases eq_or_ne parts [] with rfl | nonempty
  · exact Nat.le_refl _
  · rw [terminated_eq nonempty, List.length_append]
    exact Nat.le_add_right ..

/-- A line starts before the end of the first few lines if it is one of them, unless it is the last one
and empty. -/
theorem lineStart_lt_iff {few : Nat} (below : line < buffer.lineCount) (bound : few ≤ buffer.lineCount) :
    lineStart buffer.text line < (unlines (buffer.lines.take few)).length ↔
      line < few ∧ ¬(line + 1 = few ∧ buffer.lines[line]? = some []) := by
  rw [lineStart_text below]
  rcases Nat.lt_or_ge line few with inside | outside
  · have here : line < buffer.lines.length := by rwa [length_lines]
    have few_le : few ≤ buffer.lines.length := by rwa [length_lines]
    -- Behind the lines above it comes the line itself, and then those that are left of the few.
    have split : buffer.lines.take few = buffer.lines.take line ++
        buffer.lines[line] :: (buffer.lines.take few).drop (line + 1) := by
      have bound : line < (buffer.lines.take few).length := by
        rw [List.length_take]
        omega
      conv_lhs => rw [← take_append_between _ (Nat.le_of_lt inside), List.drop_eq_getElem_cons bound,
        List.getElem_take]
    have left : ((buffer.lines.take few).drop (line + 1)).length = few - (line + 1) := by
      rw [List.length_drop, List.length_take, Nat.min_eq_left few_le]
    rw [split, unlines_append (List.cons_ne_nil _ _), unlines_cons, List.length_append,
      List.length_append, List.getElem?_eq_getElem here, Option.some.injEq, ← List.length_eq_zero_iff]
    cases rest : (buffer.lines.take few).drop (line + 1) with
    | nil =>
      rw [rest, List.length_nil] at left
      rw [preceded_nil, List.length_nil]
      omega
    | cons next more =>
      rw [rest, List.length_cons] at left
      rw [preceded_cons, List.length_cons]
      omega
  · have parts := take_append_between buffer.lines outside
    have above := length_unlines_le (buffer.lines.take few)
    rw [← parts, terminated_append, List.length_append]
    omega

/-! ## What becomes of an anchor -/

/-- After a splice an anchor is on the line to which the splice has moved it. -/
theorem anchorLine_edited (distinct : buffer.anchors.Distinct) {splice : Splice}
    (fits : splice.Fits buffer.text) (anchored : buffer.AnchoredAt id line) (grouping : Grouping) :
    (buffer.edited splice grouping).anchorLine id =
      (shiftAnchor splice.start splice.stop splice.inserted.length (lineStart buffer.text line)).map
        (lineOf (buffer.apply splice).text) := by
  have found : Table.get? (buffer.edited splice grouping).anchors id =
      shiftAnchor splice.start splice.stop splice.inserted.length (lineStart buffer.text line) := by
    have moved := get?_shifted distinct splice.start splice.stop splice.inserted.length id
    rwa [anchored.offset, Option.bind_some] at moved
  rw [Buffer.anchorLine, found]
  cases shifted : shiftAnchor splice.start splice.stop splice.inserted.length
      (lineStart buffer.text line) with
  | none => rfl
  | some offset =>
    have within : offset ≤ (buffer.apply splice).text.length := by
      rw [length_apply fits]
      exact shiftAnchor_le (Nat.le_add_right ..) fits.stop_le (lineStart_le_length anchored.below) shifted
    exact if_pos within

theorem lineOf_length (text : Text) : lineOf text text.length = Text.lineCount text - 1 := by
  rw [lineOf, List.take_length, Text.lineCount, Nat.add_sub_cancel]

/-- Above a splice the lines stay as they are. -/
theorem lineOf_apply {splice : Splice} (fits : splice.Fits buffer.text) {offset : Nat}
    (above : offset ≤ splice.start) :
    lineOf (buffer.apply splice).text offset = lineOf buffer.text offset := by
  obtain ⟨front, back, split, place⟩ := fits
  have short : offset ≤ front.length := place ▸ above
  have text : (buffer.apply splice).text = front ++ (splice.inserted ++ back) := by
    rw [← Splice.applyTo_append splice back place, ← split, apply, Splice.applyTo, List.append_assoc]
  rw [lineOf, lineOf, text, split, List.take_append_of_le_length short,
    List.take_append_of_le_length short]

/-- At the tail an anchor on an empty last line goes to the last line there is afterwards. Of the others,
those above the span stay, but for one on an empty line right above it. -/
theorem anchorLine_tail (distinct : buffer.anchors.Distinct) (anchored : buffer.AnchoredAt id line)
    (inOrder : start ≤ buffer.lineCount) (change : start ≠ buffer.lineCount ∨ new ≠ [])
    (grouping : Grouping) :
    let after := buffer.replaceLines start buffer.lineCount new grouping
    after.anchorLine id =
      if line + 1 = buffer.lineCount ∧ buffer.lines[line]? = some [] then some (after.lineCount - 1)
      else if line < start ∧ ¬(line + 1 = start ∧ buffer.lines[line]? = some []) then some line
      else none := by
  intro after
  have fits := fits_lineSplice inOrder (Nat.le_refl buffer.lineCount) new
  obtain ⟨first, last⟩ := lineSplice_span buffer start new
  have upTo := lineStart_lt_iff anchored.below inOrder
  have ends := lineStart_lt_iff anchored.below (Nat.le_refl buffer.lineCount)
  rw [← first] at upTo
  rw [← length_lines, List.take_length, unlines_lines, length_lines, ← last] at ends
  have edit : after = buffer.edited (lineSplice buffer.lines start buffer.lineCount new) grouping :=
    replaceLines_eq_edited inOrder (Nat.le_refl _) change grouping
  generalize lineSplice buffer.lines start buffer.lineCount new = splice at fits first last upTo ends edit
  have within := lineStart_le_length anchored.below
  rw [edit, anchorLine_edited distinct fits anchored, shiftAnchor]
  by_cases atEnd : splice.stop ≤ lineStart buffer.text line
  · -- The anchor is at the end of the text and goes to the new end.
    have moved : lineStart buffer.text line - (splice.stop - splice.start) + splice.inserted.length =
        (buffer.apply splice).text.length := by
      have inOrder : splice.start ≤ splice.stop := Nat.le_add_right ..
      rw [length_apply fits]
      omega
    have blank : line + 1 = buffer.lineCount ∧ buffer.lines[line]? = some [] := by
      by_contra other
      exact Nat.not_le_of_lt (ends.mpr ⟨anchored.below, other⟩) atEnd
    rw [if_pos atEnd, if_pos blank, moved, Option.map_some, lineOf_length]
    rfl
  · have other : ¬(line + 1 = buffer.lineCount ∧ buffer.lines[line]? = some []) :=
      (ends.mp (Nat.lt_of_not_le atEnd)).2
    rw [if_neg atEnd, if_neg other]
    by_cases above : lineStart buffer.text line < splice.start
    · rw [if_pos above, if_pos (upTo.mp above), Option.map_some,
        lineOf_apply fits (Nat.le_of_lt above), lineOf_lineStart anchored.below]
    · rw [if_neg above, if_neg fun stays => above (upTo.mpr stays)]
      rfl

/-! ## Where an anchor belongs -/

/-- Where the anchor of a line belongs after lines `start` up to `stop` have become `count` others: it goes
with its line, and is lost with it. -/
def lineAfter (start stop count line : Nat) : Option Nat :=
  if line < start then some line
  else if line < stop then none
  else some (line - (stop - start) + count)

/-- The anchor of an empty line strays where lines are written at the tail: if the line is the last one, or
stands right above lines that go. -/
structure Strays (buffer : Buffer) (start stop : Nat) (new : List Text) (line : Nat) : Prop where
  tail : stop = buffer.lineCount
  blank : buffer.lines[line]? = some []
  touches : line + 1 = stop ∧ (start < stop ∨ new ≠ []) ∨ line + 1 = start ∧ start < stop

/-- Above the last line every anchor goes where it belongs. -/
theorem anchorLine_inside (distinct : buffer.anchors.Distinct) (anchored : buffer.AnchoredAt id line)
    (inOrder : start ≤ stop) (inside : stop < buffer.lineCount)
    (areLines : ∀ line ∈ new, IsLine line) (grouping : Grouping) :
    (buffer.replaceLines start stop new grouping).anchorLine id =
      lineAfter start stop new.length line := by
  unfold lineAfter
  split
  next above => exact (anchored.replaceLines_above inOrder inside areLines grouping above).anchorLine
  next notAbove =>
    split
    next goes =>
      -- The line lies in the replaced range, so its anchor is dropped with it.
      have lost : shiftAnchor (lineStart buffer.text start) (lineStart buffer.text stop)
          (terminated new).length (lineStart buffer.text line) = none := by
        rw [shiftAnchor, if_neg (Nat.not_le_of_lt (lineStart_lt goes inside)),
          if_neg (Nat.not_lt_of_le (lineStart_le (Nat.le_of_not_lt notAbove) anchored.below))]
      have gone : Table.get? (buffer.replaceLines start stop new grouping).anchors id = none := by
        rw [replaceLines_inside inOrder inside (.inl (by omega)),
          anchors_replace _ (lineStart_le inOrder inside) (lineStart_le_length inside),
          get?_shifted distinct, anchored.offset, Option.bind_some, lost]
      rw [Buffer.anchorLine, gone]
    next under =>
      exact (anchored.replaceLines_below inOrder inside areLines grouping
        (Nat.le_of_not_lt under)).anchorLine

/-- Lines that are written behind the last one make the text longer by as many. -/
theorem lineCount_append (areLines : ∀ line ∈ new, IsLine line) (grouping : Grouping) :
    (buffer.replaceLines buffer.lineCount buffer.lineCount new grouping).lineCount =
      buffer.lineCount + new.length := by
  rw [← length_lines, lines_replaceLines _ _ _ areLines, Nat.min_self, ← length_lines,
    List.take_length, List.drop_length, List.append_nil, orBlank_of_ne_nil, List.length_append]
  exact fun none => lines_ne_nil buffer.text (List.append_eq_nil_iff.mp none).1

/-- At the tail an anchor goes where it belongs exactly if it does not stray. -/
theorem anchorLine_tail_iff (distinct : buffer.anchors.Distinct) (anchored : buffer.AnchoredAt id line)
    (inOrder : start ≤ buffer.lineCount) (change : start ≠ buffer.lineCount ∨ new ≠ [])
    (areLines : ∀ line ∈ new, IsLine line) (grouping : Grouping) :
    let after := buffer.replaceLines start buffer.lineCount new grouping
    (after.anchorLine id = lineAfter start buffer.lineCount new.length line ↔
      ¬buffer.Strays start buffer.lineCount new line) ∧
    (buffer.Strays start buffer.lineCount new line → after.anchorLine id =
      if line + 1 = buffer.lineCount then some (after.lineCount - 1) else none) := by
  intro after
  have below := anchored.below
  have value := anchorLine_tail distinct anchored inOrder change grouping
  by_cases last : line + 1 = buffer.lineCount ∧ buffer.lines[line]? = some []
  · have strays : buffer.Strays start buffer.lineCount new line :=
      ⟨rfl, last.2, .inl ⟨last.1, change.imp_left (Nat.lt_of_le_of_ne inOrder)⟩⟩
    have found : after.anchorLine id = some (after.lineCount - 1) := value.trans (if_pos last)
    refine ⟨iff_of_false ?_ (not_not.mpr strays), fun _ => by rw [found, if_pos last.1]⟩
    rw [found, lineAfter]
    split
    next above =>
      -- The line stays, but others have come behind it.
      obtain rfl : start = buffer.lineCount := by omega
      have longer : after.lineCount = buffer.lineCount + new.length := lineCount_append areLines grouping
      have more : 0 < new.length := List.length_pos_of_ne_nil (by tauto)
      rw [Option.some.injEq]
      omega
    next => exact Option.some_ne_none _
  have value := value.trans (if_neg last)
  by_cases above : line + 1 = start ∧ buffer.lines[line]? = some []
  · have other : line + 1 ≠ buffer.lineCount := fun ends => last ⟨ends, above.2⟩
    have strays : buffer.Strays start buffer.lineCount new line :=
      ⟨rfl, above.2, .inr ⟨above.1, by omega⟩⟩
    have lost : after.anchorLine id = none := value.trans (if_neg fun stays => stays.2 above)
    refine ⟨iff_of_false ?_ (not_not.mpr strays), fun _ => by rw [lost, if_neg other]⟩
    rw [lost, lineAfter, if_pos (by omega)]
    exact (Option.some_ne_none _).symm
  · have fine : ¬buffer.Strays start buffer.lineCount new line := by
      rintro ⟨-, blank, ⟨ends, -⟩ | ⟨right, -⟩⟩
      · exact last ⟨ends, blank⟩
      · exact above ⟨right, blank⟩
    refine ⟨iff_of_true (value.trans ?_) fine, fun strays => absurd strays fine⟩
    simp only [lineAfter, above, not_false_iff, and_true, if_pos below]

/-- Whatever was done to a buffer: where lines are written, an anchor that is bound to the start of a line
goes with its line and is lost with it, exactly if it does not stray. If it strays, it goes to the last line
that there is afterwards, or, from a line right above those that go, it is lost. -/
theorem anchor_follows_line_iff (text : Text) (actions : List Action) {id : Text}
    {line start stop : Nat} {new : List Text} (anchored : (used text actions).AnchoredAt id line)
    (inOrder : start ≤ stop) (bound : stop ≤ (used text actions).lineCount)
    (areLines : ∀ line ∈ new, IsLine line) (grouping : Grouping) :
    let buffer := used text actions
    let after := buffer.replaceLines start stop new grouping
    (after.anchorLine id = lineAfter start stop new.length line ↔
      ¬buffer.Strays start stop new line) ∧
    (buffer.Strays start stop new line →
      after.anchorLine id = if line + 1 = stop then some (after.lineCount - 1) else none) := by
  intro buffer after
  have distinct : buffer.anchors.Distinct := distinct_used text actions
  have below : line < buffer.lineCount := anchored.below
  rcases Nat.lt_or_eq_of_le bound with inside | atTail
  · have fine : ¬buffer.Strays start stop new line := fun strays => Nat.ne_of_lt inside strays.tail
    exact ⟨iff_of_true (anchorLine_inside distinct anchored inOrder inside areLines grouping) fine,
      fun strays => absurd strays fine⟩
  have atTail : stop = buffer.lineCount := atTail
  subst atTail
  -- Putting no lines after the last one changes nothing; any other change there reaches the tail.
  by_cases idle : start = buffer.lineCount ∧ new = []
  · have same : after = buffer := by
      simp only [after, replaceLines, Nat.min_self, idle.1, idle.2, and_self, if_true]
    have fine : ¬buffer.Strays start buffer.lineCount new line := by
      rintro ⟨-, -, ⟨-, busy⟩ | ⟨-, busy⟩⟩
      · exact busy.elim (by omega) (fun some => some idle.2)
      · omega
    refine ⟨iff_of_true ?_ fine, fun strays => absurd strays fine⟩
    rw [same, anchored.anchorLine, lineAfter, if_pos (by omega)]
  exact anchorLine_tail_iff distinct anchored inOrder (by tauto) areLines grouping

/-- An anchor stays behind when its empty last line goes, runs ahead when a line is written behind its empty
one, and is lost with the line below its empty one. -/
theorem anchor_on_blank_line_strays :
    ((used "a\n" [.bindAnchor "id" 1]).replaceLines 1 2 [] .alone).anchorLine "id" = some 0 ∧
    ((used "" [.bindAnchor "id" 0]).replaceLines 1 1 ["x"] .alone).anchorLine "id" = some 1 ∧
    ((used "\nb" [.bindAnchor "id" 0]).replaceLines 1 2 [] .alone).anchorLine "id" = none ∧
    lineAfter 1 2 0 1 = none ∧ lineAfter 1 1 1 0 = some 0 ∧ lineAfter 1 2 0 0 = some 0 := by
  have plain : ∀ line ∈ ([['x']] : List Text), IsLine line := by decide
  have none : ∀ line ∈ ([] : List Text), IsLine line := List.forall_mem_nil IsLine
  refine ⟨?_, ?_, ?_, rfl, rfl, rfl⟩
  · exact (anchor_follows_line_iff "a\n" [.bindAnchor "id" 1] ⟨by decide, by decide⟩ (by decide)
      (by decide) none .alone).2 ⟨by decide, by decide, .inl ⟨rfl, .inl (by decide)⟩⟩
  · exact (anchor_follows_line_iff "" [.bindAnchor "id" 0] ⟨by decide, by decide⟩ (by decide)
      (by decide) plain .alone).2 ⟨by decide, by decide, .inl ⟨rfl, .inr (by decide)⟩⟩
  · exact (anchor_follows_line_iff "\nb" [.bindAnchor "id" 0] ⟨by decide, by decide⟩ (by decide)
      (by decide) none .alone).2 ⟨by decide, by decide, .inr ⟨rfl, by decide⟩⟩

end Notebook.Buffer

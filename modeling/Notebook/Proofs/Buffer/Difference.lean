import Notebook.Proofs.Buffer.Lines
import Notebook.Proofs.Buffer.Undo
/-!
# Lines are written by one splice

Which splice it is that replaces some of the lines of a text is told by the lines alone. Setting all lines
replaces those between the longest common beginning and the longest common end of what remains, and does
nothing if nothing lies between them.
-/
namespace Notebook.Buffer

open Text

/-! ## The splice of some lines -/

/-- Carry out a splice and record it for undo. -/
def edited (buffer : Buffer) (splice : Splice) (grouping : Grouping) : Buffer :=
  { buffer.apply splice with history := buffer.history.map (·.record splice grouping) }

/-- The splice that replaces lines `start` up to `stop` of a text by others. With each line goes or comes
the line feed behind it; at the tail of the text, the one in front of it. When all lines go, only those
between the lines do. -/
def lineSplice (old : List Text) (start stop : Nat) (new : List Text) : Splice :=
  let gone := (old.take stop).drop start
  if stop < old.length then ⟨(terminated (old.take start)).length, terminated gone, terminated new⟩
  else if 0 < start then ⟨(unlines (old.take start)).length, preceded gone, preceded new⟩
  else ⟨0, unlines gone, unlines new⟩

variable {buffer : Buffer} {start stop : Nat} {new : List Text}

theorem replace_of_fits {splice : Splice} (fits : splice.Fits buffer.text) (grouping : Grouping) :
    buffer.replace splice.start splice.stop splice.inserted grouping = buffer.edited splice grouping := by
  rw [replace, spliceAt_of_fits fits, edited]

theorem fits_lineSplice (inOrder : start ≤ stop) (bound : stop ≤ buffer.lineCount) (new : List Text) :
    (lineSplice buffer.lines start stop new).Fits buffer.text := by
  have whole := take_append_between buffer.lines inOrder
  simp only [lineSplice, length_lines]
  split
  next inside =>
    refine ⟨terminated (buffer.lines.take start), unlines (buffer.lines.drop stop), ?_, rfl⟩
    dsimp only
    rw [← List.append_assoc, ← terminated_append, whole]
    exact eq_terminated_append inside
  next outside =>
    have all : buffer.lines.take stop = buffer.lines :=
      List.take_of_length_le (by rw [length_lines]; omega)
    split
    next positive =>
      refine ⟨unlines (buffer.lines.take start), [], ?_, rfl⟩
      rw [all, List.append_nil]
      exact text_eq_unlines_append buffer positive
    next none =>
      refine ⟨[], [], ?_, rfl⟩
      rw [all, Nat.eq_zero_of_not_pos none, List.drop_zero, List.append_nil, List.nil_append,
        unlines_lines]

theorem lineSplice_inside (inside : stop < buffer.lineCount) (start : Nat) (new : List Text) :
    lineSplice buffer.lines start stop new = ⟨(terminated (buffer.lines.take start)).length,
      terminated ((buffer.lines.take stop).drop start), terminated new⟩ :=
  if_pos (by rwa [length_lines])

theorem lineSplice_tail (positive : 0 < start) (new : List Text) :
    lineSplice buffer.lines start buffer.lineCount new =
      ⟨(unlines (buffer.lines.take start)).length, preceded (buffer.lines.drop start),
        preceded new⟩ := by
  simp only [lineSplice, ← length_lines, Nat.lt_irrefl, if_false, if_pos positive, List.take_length]

theorem lineSplice_all (buffer : Buffer) (new : List Text) :
    lineSplice buffer.lines 0 buffer.lineCount new = ⟨0, buffer.text, unlines new⟩ := by
  simp only [lineSplice, ← length_lines, Nat.lt_irrefl, if_false, List.take_length, List.drop_zero,
    unlines_lines]

/-- At the tail the span reaches from the end of the lines above it to the end of the text. -/
theorem lineSplice_span (buffer : Buffer) (start : Nat) (new : List Text) :
    (lineSplice buffer.lines start buffer.lineCount new).start =
      (unlines (buffer.lines.take start)).length ∧
    (lineSplice buffer.lines start buffer.lineCount new).stop = buffer.text.length := by
  rcases Nat.eq_zero_or_pos start with rfl | positive
  · rw [lineSplice_all, Splice.stop, Nat.zero_add]
    exact ⟨rfl, rfl⟩
  · rw [lineSplice_tail positive, Splice.stop, ← List.length_append,
      ← text_eq_unlines_append buffer positive]
    exact ⟨rfl, rfl⟩

/-- Writing lines carries out their splice and nothing else. -/
theorem replaceLines_eq_edited (inOrder : start ≤ stop) (bound : stop ≤ buffer.lineCount)
    (change : start ≠ stop ∨ new ≠ []) (grouping : Grouping) :
    buffer.replaceLines start stop new grouping =
      buffer.edited (lineSplice buffer.lines start stop new) grouping := by
  rw [← replace_of_fits (fits_lineSplice inOrder bound new)]
  rcases Nat.lt_or_eq_of_le bound with inside | rfl
  · rw [replaceLines_inside inOrder inside change, lineSplice_inside inside, Splice.stop,
      ← List.length_append, ← terminated_append, take_append_between _ inOrder]
    congr 1
    · exact lineStart_eq (Nat.lt_of_le_of_lt inOrder inside)
    · exact lineStart_eq inside
  · rcases Nat.eq_zero_or_pos start with rfl | positive
    · rw [replaceLines_all, lineSplice_all, Splice.stop, Nat.zero_add]
    · rw [replaceLines_tail positive inOrder change, lineSplice_tail positive, Splice.stop,
        ← List.length_append, ← text_eq_unlines_append buffer positive]

/-! ## All lines -/

/-- Setting other lines than a buffer holds is one splice. -/
theorem setLines_eq_edited (other : buffer.lines ≠ new) (grouping : Grouping) :
    ∃ front back, Shared buffer.lines new front back ∧
      let splice := lineSplice buffer.lines front (buffer.lines.length - back)
        ((new.take (new.length - back)).drop front)
      splice.Fits buffer.text ∧
        buffer.setLines new grouping = (true, buffer.edited splice grouping) := by
  have shared := shared_commonPrefix buffer.lines new
  refine ⟨_, _, shared, ?_⟩
  unfold setLines
  dsimp only at shared ⊢
  -- Of the two lengths only what `Shared` says of them is used.
  generalize commonPrefix buffer.lines new = front at shared ⊢
  generalize commonPrefix (buffer.lines.drop front).reverse (new.drop front).reverse = back
    at shared ⊢
  obtain ⟨inOrder, inNew, -⟩ := shared.pieces
  have bound : buffer.lines.length - back ≤ buffer.lineCount := by
    rw [length_lines]
    exact Nat.sub_le _ _
  have busy : ¬(buffer.lines.length - back = front ∧ new.length - back = front) :=
    fun same => other (shared.eq_of_adjacent same.1 same.2)
  have change : front ≠ buffer.lines.length - back ∨
      (new.take (new.length - back)).drop front ≠ [] := by
    rw [ne_eq, ne_eq, List.drop_eq_nil_iff, List.length_take]
    omega
  rw [if_neg busy, replaceLines_eq_edited inOrder bound change]
  exact ⟨fits_lineSplice inOrder bound _, rfl⟩

/-- Writing lines makes them stand in the place of those of the span, cut to the lines that there are;
where none is left, an empty one. Setting the lines makes them the lines of the buffer. If they are
already, it says so and leaves the buffer as it is, records included. Otherwise it is one splice, of the
lines between the longest common beginning and the longest common end of what remains. -/
theorem writes_lines (buffer : Buffer) {new : List Text} (areLines : ∀ line ∈ new, IsLine line)
    (grouping : Grouping) :
    (∀ start stop, (buffer.replaceLines start stop new grouping).lines =
      orBlank (buffer.lines.take (min start stop) ++ (new ++ buffer.lines.drop stop))) ∧
    (new ≠ [] →
      (buffer.setLines new grouping).2.lines = new ∧
      (buffer.setLines new grouping = (false, buffer) ↔ buffer.lines = new) ∧
      (buffer.lines ≠ new → ∃ front back, Shared buffer.lines new front back ∧
        let splice := lineSplice buffer.lines front (buffer.lines.length - back)
          ((new.take (new.length - back)).drop front)
        splice.Fits buffer.text ∧
          buffer.setLines new grouping = (true, buffer.edited splice grouping))) := by
  refine ⟨fun start stop => buffer.lines_replaceLines start stop areLines grouping, fun nonempty => ?_⟩
  refine ⟨buffer.lines_setLines nonempty areLines grouping, ⟨fun idle => ?_, ?_⟩,
    fun other => setLines_eq_edited other grouping⟩
  · have same := buffer.lines_setLines nonempty areLines grouping
    rwa [idle] at same
  · rintro rfl
    exact buffer.setLines_self grouping

/-- Of two equal lines at the tail of a text the last one goes, with the line feed in front of it. -/
theorem writes_lines_at_tail :
    let buffer := (ofText "a\nb\nb").track true
    let new : List Text := ["a", "b"]
    (∀ line ∈ new, IsLine line) ∧ (buffer.setLines new .alone).2.lines = new ∧
      (buffer.setLines new .alone).2.drained = [⟨3, "\nb", ""⟩] ∧
      (buffer.replaceLines 0 9 [] .alone).lines = [[]] ∧
      ∃ front back, Shared buffer.lines new front back ∧
        buffer.setLines new .alone = (true, buffer.edited (lineSplice buffer.lines front
          (buffer.lines.length - back) ((new.take (new.length - back)).drop front)) .alone) := by
  intro buffer new
  have areLines : ∀ line ∈ new, IsLine line := by decide
  obtain ⟨-, set⟩ := writes_lines buffer areLines .alone
  obtain ⟨lines, -, differs⟩ := set (List.cons_ne_nil _ _)
  obtain ⟨front, back, shared, -, one⟩ := differs (by decide)
  obtain ⟨written, -⟩ := writes_lines buffer (List.forall_mem_nil IsLine) .alone
  exact ⟨areLines, lines, by decide +kernel, written 0 9, front, back, shared, one⟩

end Notebook.Buffer

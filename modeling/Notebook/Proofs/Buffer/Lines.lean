import Notebook.Proofs.Buffer.Splice
import Notebook.Proofs.Text.Lines
/-!
# Writing lines

What a buffer holds, line by line, after some of its lines were written or all of them were set.
-/
namespace Notebook.Buffer

open Text

theorem length_lines (buffer : Buffer) : buffer.lines.length = buffer.lineCount :=
  Text.length_lines buffer.text

theorem unlines_lines (buffer : Buffer) : unlines buffer.lines = buffer.text :=
  Text.unlines_lines buffer.text

/-- The lines of a text that is made of lines: without any, one empty line. -/
def orBlank (parts : List Text) : List Text := if parts = [] then [[]] else parts

theorem orBlank_of_ne_nil {parts : List Text} (nonempty : parts ≠ []) : orBlank parts = parts :=
  if_neg nonempty

theorem lines_orBlank {parts : List Text} (areLines : ∀ line ∈ parts, IsLine line) :
    Text.lines (unlines parts) = orBlank parts := by
  by_cases nonempty : parts = []
  · simp [orBlank, nonempty, unlines]
  · rw [lines_unlines nonempty areLines, orBlank_of_ne_nil nonempty]

theorem flatMap_terminated (parts : List Text) :
    (parts.flatMap fun line => line ++ ['\n']) = terminated parts := rfl

theorem flatMap_preceded (parts : List Text) :
    (parts.flatMap fun line => '\n' :: line) = preceded parts := rfl

/-! ## Some of the lines -/

section Write

variable {buffer : Buffer} {start stop : Nat} {new : List Text}

/-- Above the last line, whole lines go and come with their line feeds. -/
theorem replaceLines_inside (inOrder : start ≤ stop) (inside : stop < buffer.lineCount)
    (change : start ≠ stop ∨ new ≠ []) (grouping : Grouping) :
    buffer.replaceLines start stop new grouping =
      buffer.replace (lineStart buffer.text start) (lineStart buffer.text stop)
        (terminated new) grouping := by
  have busy : ¬(start = stop ∧ new = []) := by tauto
  rw [replaceLines]
  simp only [Nat.min_eq_left (Nat.le_of_lt inside), Nat.min_eq_left inOrder, if_neg busy,
    if_pos inside, flatMap_terminated]

theorem text_replaceLines_inside (inOrder : start ≤ stop) (inside : stop < buffer.lineCount)
    (change : start ≠ stop ∨ new ≠ []) (grouping : Grouping) :
    (buffer.replaceLines start stop new grouping).text =
      terminated (buffer.lines.take start) ++
        (terminated new ++ unlines (buffer.lines.drop stop)) := by
  rw [replaceLines_inside inOrder inside change,
    text_replace _ (lineStart_le inOrder inside) (lineStart_le_length inside),
    take_lineStart (Nat.lt_of_le_of_lt inOrder inside), drop_lineStart inside]
  rfl

theorem take_lines_ne_nil (buffer : Buffer) (positive : 0 < start) : buffer.lines.take start ≠ [] := by
  rw [ne_eq, List.take_eq_nil_iff]
  exact fun h => h.elim (Nat.ne_of_gt positive) (lines_ne_nil _)

/-- At the tail of the text the span begins at the end of the line above it. -/
theorem replaceLines_tail (positive : 0 < start) (inOrder : start ≤ buffer.lineCount)
    (change : start ≠ buffer.lineCount ∨ new ≠ []) (grouping : Grouping) :
    buffer.replaceLines start buffer.lineCount new grouping =
      buffer.replace (unlines (buffer.lines.take start)).length buffer.text.length (preceded new)
        grouping := by
  have busy : ¬(start = buffer.lineCount ∧ new = []) := by tauto
  rw [replaceLines]
  simp only [Nat.min_self, Nat.min_eq_left inOrder, if_neg busy, Nat.lt_irrefl, if_false,
    if_pos positive, flatMap_preceded]
  congr 1
  split
  next all => rw [all, ← length_lines, List.take_length, unlines_lines]
  next some =>
    -- The text up to the span ends with the line feed that is taken along.
    rw [lineStart_eq (Nat.lt_of_le_of_ne inOrder some)]
    change (terminated (buffer.lines.take start)).length - 1 = _
    rw [terminated_eq (take_lines_ne_nil buffer positive), List.length_append, List.length_singleton, Nat.add_sub_cancel]

/-- A text is what its first lines make, and the others with a line feed in front of each. -/
theorem text_eq_unlines_append (buffer : Buffer) (positive : 0 < start) :
    buffer.text = unlines (buffer.lines.take start) ++ preceded (buffer.lines.drop start) := by
  rw [← unlines_append_preceded (take_lines_ne_nil buffer positive), List.take_append_drop,
    unlines_lines]

/-- When everything goes, the new lines are the text. -/
theorem replaceLines_all (grouping : Grouping) :
    buffer.replaceLines 0 buffer.lineCount new grouping =
      buffer.replace 0 buffer.text.length (unlines new) grouping := by
  have busy : ¬(0 = buffer.lineCount ∧ new = []) := by simp [lineCount, Text.lineCount]
  rw [replaceLines]
  simp only [Nat.min_self, Nat.zero_min, if_neg busy, Nat.lt_irrefl, if_false]

/-- The text is put together from the lines that are left and the new ones. -/
theorem text_replaceLines (inOrder : start ≤ stop) (bound : stop ≤ buffer.lineCount)
    (grouping : Grouping) :
    (buffer.replaceLines start stop new grouping).text =
      unlines (buffer.lines.take start ++ (new ++ buffer.lines.drop stop)) := by
  -- Nothing may be to be done; else the cases are those of the definition: above the last line, at
  -- the tail, and everything.
  by_cases idle : start = stop ∧ new = []
  · obtain ⟨rfl, rfl⟩ := idle
    have same : buffer.replaceLines start start [] grouping = buffer := by
      simp [replaceLines]
    rw [same, List.nil_append, List.take_append_drop, unlines_lines]
  have change : start ≠ stop ∨ new ≠ [] := by tauto
  rcases Nat.lt_or_eq_of_le bound with inside | rfl
  · have left : buffer.lines.drop stop ≠ [] := by
      simp [List.drop_eq_nil_iff, length_lines, inside]
    rw [text_replaceLines_inside inOrder inside change, unlines_append (by simp [left]),
      unlines_append left]
  have all : buffer.lines.drop buffer.lineCount = [] := by
    rw [← length_lines, List.drop_length]
  rw [all, List.append_nil]
  rcases Nat.eq_zero_or_pos start with rfl | positive
  · rw [replaceLines_all, text_replace _ (Nat.zero_le _) (Nat.le_refl _), List.drop_length,
      List.append_nil]
    rfl
  · have split := buffer.text_eq_unlines_append positive
    have within : (unlines (buffer.lines.take start)).length ≤ buffer.text.length := by
      rw [split, List.length_append]
      exact Nat.le_add_right ..
    have front : buffer.text.take (unlines (buffer.lines.take start)).length =
        unlines (buffer.lines.take start) :=
      (congrArg (List.take _) split).trans List.take_left
    rw [replaceLines_tail positive inOrder change, text_replace _ within (Nat.le_refl _), front,
      List.drop_length, List.append_nil, unlines_append_preceded (take_lines_ne_nil buffer positive)]

/-- Writing lines replaces the lines of the span, cut to those that exist. -/
theorem lines_replaceLines (buffer : Buffer) (start stop : Nat)
    (areLines : ∀ line ∈ new, IsLine line) (grouping : Grouping) :
    (buffer.replaceLines start stop new grouping).lines =
      orBlank (buffer.lines.take (min start stop) ++ (new ++ buffer.lines.drop stop)) := by
  -- Cutting the span to the lines that exist changes neither side, so it may lie within them.
  have cut : buffer.replaceLines start stop new grouping =
      buffer.replaceLines (min start (min stop buffer.lineCount)) (min stop buffer.lineCount)
        new grouping := by
    simp only [replaceLines, Nat.min_assoc, Nat.min_self]
  have front : buffer.lines.take (min start stop) =
      buffer.lines.take (min start (min stop buffer.lineCount)) := by
    rw [← Nat.min_assoc, ← length_lines, ← List.take_eq_take_min]
  have back : buffer.lines.drop stop = buffer.lines.drop (min stop buffer.lineCount) := by
    rcases Nat.le_total stop buffer.lineCount with inside | beyond
    · rw [Nat.min_eq_left inside]
    · rw [Nat.min_eq_right beyond, ← length_lines, List.drop_length,
        List.drop_eq_nil_of_le (by rwa [length_lines])]
  rw [cut, front, back]
  have bound : min stop buffer.lineCount ≤ buffer.lineCount := Nat.min_le_right ..
  have inOrder : min start (min stop buffer.lineCount) ≤ min stop buffer.lineCount :=
    Nat.min_le_right ..
  generalize min start (min stop buffer.lineCount) = first at inOrder
  generalize min stop buffer.lineCount = last at bound inOrder
  rw [lines, text_replaceLines inOrder bound, lines_orBlank]
  intro line member
  rcases List.mem_append.mp member with above | written
  · exact areLines_take buffer.text first line above
  · exact (List.mem_append.mp written).elim (areLines line) (areLines_drop buffer.text last line)

end Write

/-! ## What two rows of lines share -/

/-- Two rows of lines have `front` lines in common at the beginning and no more, and of the lines that
remain `back` at the end and no more. -/
structure Shared (old new : List Text) (front back : Nat) : Prop where
  beginning : IsGreatest {k | k ≤ old.length ∧ k ≤ new.length ∧ old.take k = new.take k} front
  ending : IsGreatest {k | front + k ≤ old.length ∧ front + k ≤ new.length ∧
    old.drop (old.length - k) = new.drop (new.length - k)} back

theorem commonPrefix_le : ∀ old new : List Text,
    commonPrefix old new ≤ old.length ∧ commonPrefix old new ≤ new.length
  | a :: as, b :: bs => by
    have rest := commonPrefix_le as bs
    rw [commonPrefix]
    split
    · exact ⟨Nat.succ_le_succ rest.1, Nat.succ_le_succ rest.2⟩
    · exact ⟨Nat.zero_le _, Nat.zero_le _⟩
  | [], _ => by simp [commonPrefix]
  | _ :: _, [] => by simp [commonPrefix]

theorem take_commonPrefix : ∀ old new : List Text,
    old.take (commonPrefix old new) = new.take (commonPrefix old new)
  | a :: as, b :: bs => by
    rw [commonPrefix]
    split
    next same => rw [same, List.take_succ_cons, List.take_succ_cons, take_commonPrefix as bs]
    next => rfl
  | [], _ => by simp [commonPrefix]
  | _ :: _, [] => by simp [commonPrefix]

theorem le_commonPrefix {old new : List Text} {k : Nat} (short : k ≤ old.length)
    (shortNew : k ≤ new.length) (same : old.take k = new.take k) : k ≤ commonPrefix old new := by
  induction old generalizing new k with
  | nil => exact short.trans (Nat.zero_le _)
  | cons line more ih =>
    cases k with
    | zero => exact Nat.zero_le _
    | succ k =>
      obtain ⟨other, others, rfl⟩ := List.exists_cons_of_length_pos (Nat.lt_of_lt_of_le k.succ_pos shortNew)
      obtain ⟨rfl, rest⟩ := List.cons_eq_cons.mp same
      rw [commonPrefix, if_pos rfl]
      exact Nat.succ_le_succ
        (ih (Nat.le_of_succ_le_succ short) (Nat.le_of_succ_le_succ shortNew) rest)

theorem isGreatest_commonPrefix (old new : List Text) :
    IsGreatest {k | k ≤ old.length ∧ k ≤ new.length ∧ old.take k = new.take k}
      (commonPrefix old new) :=
  ⟨⟨(commonPrefix_le old new).1, (commonPrefix_le old new).2, take_commonPrefix old new⟩,
    fun _ ⟨short, shortNew, same⟩ => le_commonPrefix short shortNew same⟩

/-- The end of what remains behind some lines, read from the last line on. -/
theorem take_reverse_drop {old : List Text} {front k : Nat} (within : front + k ≤ old.length) :
    (old.drop front).reverse.take k = (old.drop (old.length - k)).reverse := by
  have index : front + (old.length - front - k) = old.length - k := by omega
  rw [List.take_reverse, List.length_drop, List.drop_drop, index]

theorem shared_commonPrefix (old new : List Text) :
    let front := commonPrefix old new
    Shared old new front (commonPrefix (old.drop front).reverse (new.drop front).reverse) := by
  intro front
  have bounds := commonPrefix_le old new
  refine ⟨isGreatest_commonPrefix old new, ?_⟩
  -- A common end of what remains is a common beginning when it is read from the last line on.
  have turned : {k | front + k ≤ old.length ∧ front + k ≤ new.length ∧
      old.drop (old.length - k) = new.drop (new.length - k)} =
      {k | k ≤ (old.drop front).reverse.length ∧ k ≤ (new.drop front).reverse.length ∧
        (old.drop front).reverse.take k = (new.drop front).reverse.take k} := by
    ext k
    simp only [Set.mem_ofPred_eq, List.length_reverse, List.length_drop]
    constructor
    · rintro ⟨within, withinNew, same⟩
      refine ⟨by omega, by omega, ?_⟩
      rw [take_reverse_drop within, take_reverse_drop withinNew, same]
    · rintro ⟨short, shortNew, same⟩
      have within : front + k ≤ old.length := by omega
      have withinNew : front + k ≤ new.length := by omega
      rw [take_reverse_drop within, take_reverse_drop withinNew] at same
      exact ⟨within, withinNew, List.reverse_injective same⟩
  rw [turned]
  exact isGreatest_commonPrefix _ _

theorem take_append_between (parts : List Text) {front stop : Nat} (inOrder : front ≤ stop) :
    parts.take front ++ (parts.take stop).drop front = parts.take stop := by
  have cut : parts.take front = (parts.take stop).take front := by
    rw [List.take_take, Nat.min_eq_left inOrder]
  rw [cut, List.take_append_drop]

/-- The common end lies behind the common beginning, and with what lies between them in the one row they
make that row. -/
theorem Shared.pieces {old new : List Text} {front back : Nat} (shared : Shared old new front back) :
    front ≤ old.length - back ∧ front ≤ new.length - back ∧
      old.take front ++ ((new.take (new.length - back)).drop front ++
        old.drop (old.length - back)) = new := by
  obtain ⟨-, -, begins⟩ := shared.beginning.1
  obtain ⟨within, withinNew, ends⟩ := shared.ending.1
  have inNew : front ≤ new.length - back := by omega
  refine ⟨by omega, inNew, ?_⟩
  rw [begins, ends, ← List.append_assoc, take_append_between new inNew, List.take_append_drop]

/-- If nothing lies between what two rows share, they are the same. -/
theorem Shared.eq_of_adjacent {old new : List Text} {front back : Nat}
    (shared : Shared old new front back) (oldMeets : old.length - back = front)
    (newMeets : new.length - back = front) : old = new := by
  obtain ⟨-, -, whole⟩ := shared.pieces
  rwa [oldMeets, newMeets, List.drop_eq_nil_of_le (List.length_take_le _ _), List.nil_append,
    List.take_append_drop] at whole

/-! ## All lines -/

/-- The text is put together from the lines that were set, even if some of them are none. -/
theorem text_setLines (buffer : Buffer) (new : List Text) (grouping : Grouping) :
    (buffer.setLines new grouping).2.text = unlines new := by
  have shared := shared_commonPrefix buffer.lines new
  unfold setLines
  dsimp only at shared ⊢
  generalize commonPrefix buffer.lines new = front at shared ⊢
  generalize commonPrefix (buffer.lines.drop front).reverse (new.drop front).reverse = back
    at shared ⊢
  split
  next same => rw [← shared.eq_of_adjacent same.1 same.2, unlines_lines]
  next =>
    obtain ⟨inOrder, -, whole⟩ := shared.pieces
    have bound : buffer.lines.length - back ≤ buffer.lineCount := by
      rw [length_lines]
      exact Nat.sub_le _ _
    rw [text_replaceLines inOrder bound, whole]

/-- After setting the lines, the buffer holds them. -/
theorem lines_setLines (buffer : Buffer) {new : List Text} (nonempty : new ≠ [])
    (areLines : ∀ line ∈ new, IsLine line) (grouping : Grouping) :
    (buffer.setLines new grouping).2.lines = new := by
  rw [lines, text_setLines, lines_unlines nonempty areLines]

theorem text_setText (buffer : Buffer) (text : Text) (grouping : Grouping) :
    (buffer.setText text grouping).2.text = text :=
  lines_injective (lines_setLines buffer (lines_ne_nil text) (fun _ => isLine_of_mem_lines) grouping)

/-- Setting the lines that a buffer holds changes nothing. -/
theorem setLines_self (buffer : Buffer) (grouping : Grouping) :
    buffer.setLines buffer.lines grouping = (false, buffer) := by
  have front : commonPrefix buffer.lines buffer.lines = buffer.lines.length := by
    generalize buffer.lines = parts
    induction parts with
    | nil => rfl
    | cons line more ih => rw [commonPrefix, if_pos rfl, ih, List.length_cons]
  rw [setLines, front, List.drop_length]
  exact if_pos ⟨Nat.sub_zero _, Nat.sub_zero _⟩

end Notebook.Buffer

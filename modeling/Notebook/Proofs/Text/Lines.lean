import Mathlib
import Notebook.Text.Lines
/-!
# Lines and offsets

A text and the list of its lines determine each other: `lines` and `unlines` are inverse on texts
and on nonempty lists of lines. An offset splits a text into whole lines, each with its line feed,
and a part of the line it stands in. Everything that is known about edits of whole lines rests on
these two facts.
-/
namespace Notebook.Text

/-- A text that is one line: it holds no line feed. -/
def IsLine (text : Text) : Prop := '\n' ∉ text

instance (text : Text) : Decidable (IsLine text) := inferInstanceAs (Decidable ('\n' ∉ text))

/-- Lines with a line feed behind each. -/
def terminated (parts : List Text) : Text := parts.flatMap fun line => line ++ ['\n']

/-- Lines with a line feed in front of each. -/
def preceded (parts : List Text) : Text := parts.flatMap fun line => '\n' :: line

@[simp] theorem terminated_nil : terminated [] = [] := rfl

@[simp] theorem terminated_cons (line : Text) (more : List Text) :
    terminated (line :: more) = line ++ '\n' :: terminated more := by
  simp [terminated]

@[simp] theorem terminated_append (parts more : List Text) :
    terminated (parts ++ more) = terminated parts ++ terminated more := by
  simp [terminated]

@[simp] theorem preceded_nil : preceded [] = [] := rfl

@[simp] theorem preceded_cons (line : Text) (more : List Text) :
    preceded (line :: more) = '\n' :: (line ++ preceded more) := by
  simp [preceded]

@[simp] theorem preceded_append (parts more : List Text) :
    preceded (parts ++ more) = preceded parts ++ preceded more := by
  simp [preceded]

/-! ## Lines of a text -/

@[simp] theorem lines_nil : lines [] = [[]] := rfl

@[simp] theorem lines_newline (rest : Text) : lines ('\n' :: rest) = [] :: lines rest := by
  simp [lines]

theorem lines_ne_nil (text : Text) : lines text ≠ [] := by
  cases text with
  | nil => simp
  | cons c rest =>
    rw [lines]
    split
    · simp
    · split <;> simp

/-- A character other than a line feed goes to the front of the first line. -/
theorem lines_cons {c : Char} (other : c ≠ '\n') (rest : Text) :
    ∃ line more, lines rest = line :: more ∧ lines (c :: rest) = (c :: line) :: more := by
  cases split : lines rest with
  | nil => exact absurd split (lines_ne_nil rest)
  | cons line more => exact ⟨line, more, rfl, by simp [lines, other, split]⟩

theorem isLine_of_mem_lines {text line : Text} (member : line ∈ lines text) : IsLine line := by
  induction text generalizing line with
  | nil =>
    obtain rfl : line = [] := by simpa using member
    exact List.not_mem_nil
  | cons c rest ih =>
    by_cases newline : c = '\n'
    · subst newline
      rw [lines_newline, List.mem_cons] at member
      rcases member with rfl | member
      · exact List.not_mem_nil
      · exact ih member
    · obtain ⟨first, more, before, after⟩ := lines_cons newline rest
      rw [after, List.mem_cons] at member
      rcases member with rfl | member
      · have plain : IsLine first := ih (before ▸ List.mem_cons_self)
        simpa [IsLine, Ne.symm newline] using plain
      · exact ih (before ▸ List.mem_cons_of_mem first member)

/-- What stands in a line of a text stands in the text. -/
theorem mem_of_mem_lines {text line : Text} {c : Char} (part : line ∈ lines text)
    (member : c ∈ line) : c ∈ text := by
  induction text generalizing line with
  | nil =>
    obtain rfl : line = [] := by simpa using part
    exact member
  | cons d rest ih =>
    by_cases newline : d = '\n'
    · rw [newline, lines_newline, List.mem_cons] at part
      rcases part with rfl | part
      · cases member
      · exact List.mem_cons_of_mem _ (ih part member)
    · obtain ⟨first, more, before, after⟩ := lines_cons newline rest
      rw [after, List.mem_cons] at part
      rcases part with rfl | part
      · rcases List.mem_cons.mp member with rfl | member
        · exact List.mem_cons_self
        · exact List.mem_cons_of_mem _ (ih (before ▸ List.mem_cons_self) member)
      · exact List.mem_cons_of_mem _ (ih (before ▸ List.mem_cons_of_mem _ part) member)

/-- A line feed ends a line, whatever stands before and behind it. -/
theorem lines_append_newline (front back : Text) :
    lines (front ++ '\n' :: back) = lines front ++ lines back := by
  induction front with
  | nil => simp
  | cons c rest ih =>
    by_cases newline : c = '\n'
    · simp [newline, ih]
    · obtain ⟨line, more, before, after⟩ := lines_cons newline rest
      -- The character goes to the same first line with and without what stands behind.
      obtain ⟨line', more', before', after'⟩ := lines_cons newline (rest ++ '\n' :: back)
      rw [ih, before, List.cons_append, List.cons.injEq] at before'
      obtain ⟨rfl, rfl⟩ := before'
      rw [List.cons_append, after', after, List.cons_append]

theorem lines_eq_singleton {line : Text} (isLine : IsLine line) : lines line = [line] := by
  induction line with
  | nil => rfl
  | cons c rest ih =>
    obtain ⟨head, tail⟩ : '\n' ≠ c ∧ '\n' ∉ rest := by simpa [IsLine] using isLine
    simp [lines, head.symm, ih tail]

theorem lines_terminated {parts : List Text} (areLines : ∀ line ∈ parts, IsLine line)
    (text : Text) : lines (terminated parts ++ text) = parts ++ lines text := by
  induction parts with
  | nil => rfl
  | cons line more ih =>
    obtain ⟨isLine, areLines⟩ := List.forall_mem_cons.mp areLines
    rw [terminated_cons, List.append_assoc, List.cons_append, lines_append_newline,
      lines_eq_singleton isLine, ih areLines]
    rfl

theorem lines_preceded {parts : List Text} (areLines : ∀ line ∈ parts, IsLine line)
    (text : Text) : lines (text ++ preceded parts) = lines text ++ parts := by
  induction parts generalizing text with
  | nil => simp
  | cons line more ih =>
    obtain ⟨isLine, areLines⟩ := List.forall_mem_cons.mp areLines
    rw [preceded_cons, ← List.cons_append, ← List.append_assoc, ih areLines,
      lines_append_newline, lines_eq_singleton isLine, List.append_assoc, List.singleton_append]

/-! ## Putting lines together -/

@[simp] theorem unlines_cons (line : Text) (more : List Text) :
    unlines (line :: more) = line ++ preceded more := by
  induction more generalizing line with
  | nil => simp [unlines]
  | cons next more ih => rw [unlines, ih next, preceded_cons]; exact List.cons_ne_nil next more

/-- What stands in lines that were put together is a line feed or stands in one of the lines. -/
theorem mem_unlines {parts : List Text} {c : Char} (member : c ∈ unlines parts) :
    c = '\n' ∨ ∃ line ∈ parts, c ∈ line := by
  fun_induction unlines parts <;> grind

theorem unlines_append {parts more : List Text} (nonempty : more ≠ []) :
    unlines (parts ++ more) = terminated parts ++ unlines more := by
  induction parts with
  | nil => rfl
  | cons line rest ih =>
    obtain ⟨next, rest', split⟩ := List.exists_cons_of_ne_nil (l := rest ++ more) (by simp [nonempty])
    rw [List.cons_append, split, unlines_cons, preceded_cons, ← unlines_cons next, ← split, ih,
      terminated_cons, List.append_assoc, List.cons_append]

theorem unlines_append_preceded {parts : List Text} (nonempty : parts ≠ []) (more : List Text) :
    unlines (parts ++ more) = unlines parts ++ preceded more := by
  obtain ⟨line, rest, rfl⟩ := List.exists_cons_of_ne_nil nonempty
  rw [List.cons_append, unlines_cons, unlines_cons, preceded_append, List.append_assoc]

theorem terminated_eq {parts : List Text} (nonempty : parts ≠ []) :
    terminated parts = unlines parts ++ ['\n'] := by
  obtain ⟨line, more, rfl⟩ := List.exists_cons_of_ne_nil nonempty
  have blank : unlines ((line :: more) ++ [[]]) = terminated (line :: more) ++ unlines [[]] :=
    unlines_append (List.cons_ne_nil _ _)
  rw [List.cons_append, unlines_cons, preceded_append] at blank
  rw [unlines_cons, List.append_assoc]
  exact (blank.trans (List.append_nil _)).symm

theorem unlines_lines (text : Text) : unlines (lines text) = text := by
  induction text with
  | nil => rfl
  | cons c rest ih =>
    by_cases newline : c = '\n'
    · obtain ⟨line, more, split⟩ := List.exists_cons_of_ne_nil (lines_ne_nil rest)
      rw [split, unlines_cons] at ih
      rw [newline, lines_newline, split, unlines_cons, preceded_cons, ih, List.nil_append]
    · obtain ⟨line, more, before, after⟩ := lines_cons newline rest
      rw [before, unlines_cons] at ih
      rw [after, unlines_cons, List.cons_append, ih]

theorem lines_unlines {parts : List Text} (nonempty : parts ≠ [])
    (areLines : ∀ line ∈ parts, IsLine line) : lines (unlines parts) = parts := by
  cases parts with
  | nil => exact absurd rfl nonempty
  | cons line more =>
    obtain ⟨isLine, areLines⟩ := List.forall_mem_cons.mp areLines
    rw [unlines_cons, lines_preceded areLines, lines_eq_singleton isLine, List.singleton_append]

/-- Parts that hold line feeds of their own make more lines, never fewer. -/
theorem length_le_lineCount_unlines (parts : List Text) :
    parts.length ≤ lineCount (unlines parts) := by
  have each (more : List Text) : more.length ≤ (preceded more).count '\n' := by
    induction more with
    | nil => exact Nat.zero_le _
    | cons line rest ih =>
      rw [preceded_cons, List.count_cons_self, List.count_append, List.length_cons]
      omega
  cases parts with
  | nil => exact Nat.zero_le _
  | cons line more =>
    have behind := each more
    rw [unlines_cons, lineCount, List.count_append, List.length_cons]
    omega

theorem lines_injective {a b : Text} (same : lines a = lines b) : a = b := by
  rw [← unlines_lines a, same, unlines_lines]

theorem length_lines (text : Text) : (lines text).length = lineCount text := by
  induction text with
  | nil => rfl
  | cons c rest ih =>
    by_cases newline : c = '\n'
    · simp [newline, lineCount, ih]
    · obtain ⟨line, more, before, after⟩ := lines_cons newline rest
      rw [before] at ih
      rw [after, List.length_cons, lineCount, List.count_cons_of_ne (Ne.symm newline |>.symm)]
      exact ih

/-! ## Where lines start -/

theorem lineStart_append_newline {line : Text} (isLine : IsLine line) (rest : Text) (k : Nat) :
    lineStart (line ++ '\n' :: rest) (k + 1) = line.length + 1 + lineStart rest k := by
  induction line with
  | nil => simp [lineStart]
  | cons c more ih =>
    obtain ⟨head, tail⟩ : '\n' ≠ c ∧ '\n' ∉ more := by simpa [IsLine] using isLine
    rw [List.cons_append, lineStart, if_neg head.symm, ih tail, List.length_cons]
    omega

theorem lineStart_below {parts : List Text} (areLines : ∀ line ∈ parts, IsLine line) (text : Text)
    (k : Nat) : lineStart (terminated parts ++ text) (parts.length + k) =
      (terminated parts).length + lineStart text k := by
  induction parts with
  | nil => simp
  | cons line more ih =>
    obtain ⟨isLine, areLines⟩ := List.forall_mem_cons.mp areLines
    rw [terminated_cons, List.append_assoc, List.cons_append, List.length_cons, Nat.add_right_comm,
      lineStart_append_newline isLine, ih areLines, List.length_append, List.length_cons]
    omega

theorem lineStart_terminated {parts : List Text} (areLines : ∀ line ∈ parts, IsLine line)
    (rest : Text) :
    lineStart (terminated parts ++ rest) parts.length = (terminated parts).length := by
  simpa [lineStart] using lineStart_below areLines rest 0

theorem areLines_take (text : Text) (k : Nat) : ∀ line ∈ (lines text).take k, IsLine line :=
  fun _ member => isLine_of_mem_lines (List.mem_of_mem_take member)

theorem areLines_drop (text : Text) (k : Nat) : ∀ line ∈ (lines text).drop k, IsLine line :=
  fun _ member => isLine_of_mem_lines (List.mem_of_mem_drop member)

/-- A text is the lines above one of its lines, and what they leave. -/
theorem eq_terminated_append {text : Text} {k : Nat} (below : k < lineCount text) :
    text = terminated ((lines text).take k) ++ unlines ((lines text).drop k) := by
  -- Something is left from line `k` on, so the lines above it keep all their line feeds.
  have nonempty : (lines text).drop k ≠ [] := by
    simp [List.drop_eq_nil_iff, length_lines, below]
  rw [← unlines_append nonempty, List.take_append_drop, unlines_lines]

theorem lineStart_eq {text : Text} {k : Nat} (below : k < lineCount text) :
    lineStart text k = (terminated ((lines text).take k)).length := by
  have start := lineStart_terminated (areLines_take text k) (unlines ((lines text).drop k))
  rw [← eq_terminated_append below, List.length_take, length_lines,
    Nat.min_eq_left (Nat.le_of_lt below)] at start
  exact start

theorem take_lineStart {text : Text} {k : Nat} (below : k < lineCount text) :
    text.take (lineStart text k) = terminated ((lines text).take k) := by
  rw [lineStart_eq below]
  exact (congrArg (List.take _) (eq_terminated_append below)).trans List.take_left

theorem drop_lineStart {text : Text} {k : Nat} (below : k < lineCount text) :
    text.drop (lineStart text k) = unlines ((lines text).drop k) := by
  rw [lineStart_eq below]
  exact (congrArg (List.drop _) (eq_terminated_append below)).trans List.drop_left

theorem lineStart_le_length {text : Text} {k : Nat} (below : k < lineCount text) :
    lineStart text k ≤ text.length := by
  have split := congrArg List.length (eq_terminated_append below)
  rw [List.length_append, ← lineStart_eq below] at split
  omega

theorem count_newline_terminated {parts : List Text} (areLines : ∀ line ∈ parts, IsLine line) :
    (terminated parts).count '\n' = parts.length := by
  induction parts with
  | nil => rfl
  | cons line more ih =>
    obtain ⟨isLine, areLines⟩ := List.forall_mem_cons.mp areLines
    rw [terminated_cons, List.count_append, List.count_eq_zero.mpr isLine, List.count_cons_self,
      ih areLines, List.length_cons]
    omega

theorem lineOf_lineStart {text : Text} {k : Nat} (below : k < lineCount text) :
    lineOf text (lineStart text k) = k := by
  rw [lineOf, take_lineStart below, count_newline_terminated (areLines_take text k),
    List.length_take, length_lines, Nat.min_eq_left (Nat.le_of_lt below)]

theorem lineOf_mono (text : Text) {offset further : Nat} (before : offset ≤ further) :
    lineOf text offset ≤ lineOf text further :=
  (List.take_sublist_take_left before).count_le _

theorem lineStart_lt {text : Text} {j k : Nat} (before : j < k) (below : k < lineCount text) :
    lineStart text j < lineStart text k := by
  -- The lines from `j` up to `k` take up at least a line feed each.
  have split : (lines text).take k = (lines text).take j ++ ((lines text).drop j).take (k - j) := by
    rw [← List.take_add, Nat.add_sub_cancel' (Nat.le_of_lt before)]
  obtain ⟨line, more, cons⟩ := List.exists_cons_of_ne_nil
    (l := ((lines text).drop j).take (k - j)) (by
      simp only [ne_eq, List.take_eq_nil_iff, List.drop_eq_nil_iff, length_lines]; omega)
  rw [lineStart_eq below, lineStart_eq (Nat.lt_trans before below), split, cons]
  simp

theorem lineStart_le {text : Text} {j k : Nat} (before : j ≤ k) (below : k < lineCount text) :
    lineStart text j ≤ lineStart text k := by
  rcases Nat.eq_or_lt_of_le before with rfl | before
  · exact Nat.le_refl _
  · exact Nat.le_of_lt (lineStart_lt before below)

/-! ## Offsets within lines -/

/-- Where two texts meet, the last line of the one and the first line of the other make one
line. -/
theorem lines_append (front back : Text) : ∃ above last first below,
    lines front = above ++ [last] ∧ lines back = first :: below ∧
      lines (front ++ back) = above ++ (last ++ first) :: below := by
  obtain ⟨first, below, split⟩ := List.exists_cons_of_ne_nil (lines_ne_nil back)
  induction front with
  | nil => exact ⟨[], [], first, below, by simp, split, by simpa using split⟩
  | cons c rest ih =>
    obtain ⟨above, last, first', below', ends, starts, joined⟩ := ih
    by_cases newline : c = '\n'
    · exact ⟨[] :: above, last, first', below', by simp [newline, ends], starts,
        by simp [newline, joined]⟩
    · obtain ⟨line, more, before, after⟩ := lines_cons newline rest
      obtain ⟨line', more', before', after'⟩ := lines_cons newline (rest ++ back)
      rw [joined] at before'
      rw [ends] at before
      -- The character joins the line where the texts meet only if that is the first one.
      cases above with
      | nil =>
        obtain ⟨rfl, rfl⟩ : last = line ∧ [] = more := by simpa using before
        obtain ⟨rfl, rfl⟩ : last ++ first' = line' ∧ below' = more' := by simpa using before'
        exact ⟨[], c :: last, first', below', after, starts, after'⟩
      | cons top others =>
        obtain ⟨rfl, rfl⟩ : top = line ∧ others ++ [last] = more := by simpa using before
        obtain ⟨rfl, rfl⟩ : top = line' ∧ others ++ (last ++ first') :: below' = more' := by
          simpa using before'
        exact ⟨(c :: top) :: others, last, first', below', after, starts, after'⟩

/-- An offset stands between two parts of one line. -/
theorem exists_place (text : Text) (offset : Nat) : ∃ above last first below,
    text.take offset = terminated above ++ last ∧ text.drop offset = first ++ preceded below ∧
      lines text = above ++ (last ++ first) :: below := by
  obtain ⟨above, last, first, below, ends, starts, joined⟩ :=
    lines_append (text.take offset) (text.drop offset)
  rw [List.take_append_drop] at joined
  refine ⟨above, last, first, below, ?_, ?_, joined⟩
  · rw [← unlines_lines (text.take offset), ends, unlines_append (by simp), unlines_cons,
      preceded_nil, List.append_nil]
  · rw [← unlines_lines (text.drop offset), starts, unlines_cons]

end Notebook.Text

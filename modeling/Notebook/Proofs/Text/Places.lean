import Notebook.Proofs.Text.Lines
/-!
# Places in a text

A text that is read from its start comes from place to place, each behind the one before. These are
the places that the text has: a line of it and a column of that line. The offset of such
a place is the number of characters read so far. Hence it depends on nothing that stands behind the
place, and as long as the text before it stays, the place stays where it is.
-/
namespace Notebook

open Text

namespace Position

variable {a b c : Position}

theorem before_iff : a.before b = true ↔ a.line < b.line ∨ a.line = b.line ∧ a.column < b.column := by
  simp [before]

theorem not_before_iff :
    a.before b = false ↔ b.line < a.line ∨ b.line = a.line ∧ b.column ≤ a.column := by
  rw [← Bool.not_eq_true, before_iff]
  omega

theorem not_before_self (a : Position) : a.before a = false := by
  rw [not_before_iff]
  omega

theorem not_before_trans (first : b.before a = false) (second : c.before b = false) :
    c.before a = false := by
  rw [not_before_iff] at *
  omega

theorem not_before_of_before (before : a.before b = true) : b.before a = false := by
  rw [before_iff] at before
  rw [not_before_iff]
  omega

theorem eq_of_not_before (one : a.before b = false) (other : b.before a = false) : a = b := by
  rw [not_before_iff] at one other
  obtain ⟨line, column⟩ := a
  obtain ⟨line', column'⟩ := b
  simp only [mk.injEq]
  dsimp only at one other
  omega

theorem before_of_not_before_of_ne (notBefore : b.before a = false) (other : a ≠ b) :
    a.before b = true := by
  rw [← Bool.not_eq_false]
  exact fun same => other (eq_of_not_before same notBefore)

/-- The place behind a character that stands at a place. -/
def advance (place : Position) (c : Char) : Position :=
  if c = '\n' then ⟨place.line + 1, 0⟩ else ⟨place.line, place.column + 1⟩

theorem before_advance (place : Position) (c : Char) : place.before (place.advance c) = true := by
  rw [before_iff, advance]
  split <;> simp

theorem advance_mono (notBefore : b.before a = false) (c : Char) :
    (b.advance c).before (a.advance c) = false := by
  rw [not_before_iff] at *
  unfold advance
  split
  · dsimp only
    omega
  · dsimp only
    omega

end Position

namespace Text

open Position

/-! ## Reading on -/

/-- The place at which a text ends. -/
def finish (text : Text) : Position := text.foldl advance ⟨0, 0⟩

theorem finish_append (front back : Text) : finish (front ++ back) = back.foldl advance (finish front) :=
  List.foldl_append ..

theorem foldl_advance_mono (text : Text) {a b : Position} (notBefore : b.before a = false) :
    (text.foldl advance b).before (text.foldl advance a) = false := by
  induction text generalizing a b with
  | nil => exact notBefore
  | cons c rest ih => exact ih (advance_mono notBefore c)

theorem not_foldl_advance_before (text : Text) (place : Position) :
    (text.foldl advance place).before place = false := by
  induction text generalizing place with
  | nil => exact not_before_self place
  | cons c rest ih =>
    exact not_before_trans (not_before_of_before (before_advance place c)) (ih _)

theorem before_foldl_advance {text : Text} (some : text ≠ []) (place : Position) :
    place.before (text.foldl advance place) = true := by
  obtain ⟨c, rest, rfl⟩ := List.exists_cons_of_ne_nil some
  refine before_of_not_before_of_ne (not_foldl_advance_before _ place) fun same => ?_
  -- The first character leads on, and the others do not lead back.
  have onward := not_foldl_advance_before rest (place.advance c)
  rw [List.foldl_cons] at same
  rw [← same, before_advance] at onward
  cases onward

/-- More text ends no earlier. -/
theorem not_finish_append_before (front back : Text) :
    (finish (front ++ back)).before (finish front) = false := by
  rw [finish_append]
  exact not_foldl_advance_before back _

theorem finish_before {back : Text} (some : back ≠ []) (front : Text) :
    (finish front).before (finish (front ++ back)) = true := by
  rw [finish_append]
  exact before_foldl_advance some _

/-- What is put in between moves the end no further up. -/
theorem not_finish_insert_before (front between back : Text) :
    (finish (front ++ (between ++ back))).before (finish (front ++ back)) = false := by
  rw [finish_append, finish_append, List.foldl_append]
  exact foldl_advance_mono back (not_foldl_advance_before between _)

/-- A text is whole lines and a last one. -/
theorem exists_last (text : Text) : ∃ above last, text = terminated above ++ last ∧
    (∀ line ∈ above, IsLine line) ∧ IsLine last := by
  obtain ⟨above, last, split⟩ : ∃ above last, lines text = above ++ [last] := by
    simpa using (List.eq_nil_or_concat (lines text)).resolve_left (lines_ne_nil text)
  have areLines : ∀ line ∈ above ++ [last], IsLine line := fun line member =>
    isLine_of_mem_lines (split ▸ member)
  refine ⟨above, last, ?_, fun line member => areLines line (by simp [member]), areLines last (by simp)⟩
  rw [← unlines_lines text, split, unlines_append (by simp)]
  simp

theorem foldl_advance_line {line : Text} (isLine : IsLine line) (place : Position) :
    line.foldl advance place = ⟨place.line, place.column + line.length⟩ := by
  induction line generalizing place with
  | nil => rfl
  | cons c rest ih =>
    obtain ⟨head, tail⟩ : '\n' ≠ c ∧ '\n' ∉ rest := by simpa [IsLine] using isLine
    rw [List.foldl_cons, ih tail, advance, if_neg head.symm, List.length_cons]
    refine congrArg (Position.mk place.line) ?_
    dsimp only
    omega

theorem foldl_advance_terminated {above : List Text} (areLines : ∀ line ∈ above, IsLine line)
    (first : Nat) : (terminated above).foldl advance ⟨first, 0⟩ = ⟨first + above.length, 0⟩ := by
  induction above generalizing first with
  | nil => rfl
  | cons top more ih =>
    obtain ⟨isTop, areLines⟩ := List.forall_mem_cons.mp areLines
    rw [terminated_cons, List.foldl_append, foldl_advance_line isTop, List.foldl_cons, advance,
      if_pos rfl, ih areLines, List.length_cons]
    refine congrArg (Position.mk · 0) ?_
    dsimp only
    omega

theorem finish_terminated {above : List Text} (areLines : ∀ line ∈ above, IsLine line) {last : Text}
    (isLine : IsLine last) : finish (terminated above ++ last) = ⟨above.length, last.length⟩ := by
  rw [finish, List.foldl_append, foldl_advance_terminated areLines, foldl_advance_line isLine,
    Nat.zero_add, Nat.zero_add]

theorem lineCount_eq (text : Text) : lineCount text = (finish text).line + 1 := by
  obtain ⟨above, last, rfl, areLines, isLine⟩ := exists_last text
  rw [finish_terminated areLines isLine, ← length_lines, lines_terminated areLines,
    lines_eq_singleton isLine, List.length_append, List.length_singleton]

/-! ## Offsets below and above -/

theorem offsetAt_below {parts : List Text} (areLines : ∀ line ∈ parts, IsLine line) (text : Text)
    {position : Position} (below : parts.length ≤ position.line) :
    offsetAt (terminated parts ++ text) position = (terminated parts).length +
      offsetAt text ⟨position.line - parts.length, position.column⟩ := by
  have line : parts.length + (position.line - parts.length) = position.line := by omega
  have length : lineLength (terminated parts ++ text) position.line =
      lineLength text (position.line - parts.length) := by
    rw [lineLength, line?, lines_terminated areLines, List.getElem?_append_right below]
    rfl
  rw [offsetAt, length, ← line, lineStart_below areLines, line, offsetAt, Nat.add_assoc]

theorem lineCount_append_newline (front back : Text) :
    lineCount (front ++ '\n' :: back) = lineCount front + lineCount back := by
  rw [← length_lines, lines_append_newline, List.length_append, length_lines, length_lines]

theorem offsetAt_above {front : Text} {position : Position} (above : position.line < lineCount front)
    (back : Text) : offsetAt (front ++ '\n' :: back) position = offsetAt front position := by
  have bound : position.line < (lines front).length := by rwa [length_lines]
  have start : lineStart (front ++ '\n' :: back) position.line = lineStart front position.line := by
    rw [lineStart_eq (by rw [lineCount_append_newline]; omega), lineStart_eq above,
      lines_append_newline, List.take_append_of_le_length (Nat.le_of_lt bound)]
  rw [offsetAt, offsetAt, start, lineLength, lineLength, line?, line?, lines_append_newline,
    List.getElem?_append_left bound]

theorem offsetAt_le_length {text : Text} {position : Position}
    (within : position.line < lineCount text) : offsetAt text position ≤ text.length := by
  have bound : position.line < (lines text).length := by rwa [length_lines]
  have split := congrArg List.length (eq_terminated_append within)
  rw [List.length_append, ← lineStart_eq within, List.drop_eq_getElem_cons bound, unlines_cons,
    List.length_append] at split
  have length : lineLength text position.line = ((lines text)[position.line]).length := by
    rw [lineLength, line?, List.getElem?_eq_getElem bound, Option.getD_some]
  rw [offsetAt]
  omega

/-- A place stands in its line or further down. -/
theorem le_lineOf_offsetAt {text : Text} {position : Position}
    (within : position.line < lineCount text) : position.line ≤ lineOf text (offsetAt text position) := by
  have start := lineOf_lineStart within
  have more : lineStart text position.line ≤ offsetAt text position := Nat.le_add_right _ _
  rw [lineOf] at start ⊢
  -- No fewer line feeds stand before the place than before the start of its line.
  have shorter : text.take (lineStart text position.line) =
      (text.take (offsetAt text position)).take (lineStart text position.line) := by
    rw [List.take_take, Nat.min_eq_left more]
  rw [← start, shorter]
  exact (List.take_sublist _ _).count_le _

/-! ## Places that a text has -/

theorem offsetAt_first {line : Text} (isLine : IsLine line) {column : Nat}
    (within : column ≤ line.length) (back : Text) : offsetAt (line ++ back) ⟨0, column⟩ = column := by
  obtain ⟨above, last, first, below, ends, -, joined⟩ := lines_append line back
  rw [lines_eq_singleton isLine] at ends
  cases above with
  | cons top more => simp at ends
  | nil =>
    obtain rfl : line = last := by simpa using ends
    have start : lineStart (line ++ back) 0 = 0 := by simp [lineStart]
    rw [offsetAt, start, lineLength, line?, joined]
    simp [Nat.le_trans within]

/-- What stands behind a text makes no difference to the places up to its end. -/
theorem offsetAt_append {front : Text} {place : Position} (upTo : (finish front).before place = false)
    (back : Text) : offsetAt (front ++ back) place = offsetAt front place := by
  obtain ⟨above, last, rfl, areLines, isLine⟩ := exists_last front
  rw [finish_terminated areLines isLine, not_before_iff] at upTo
  rcases Nat.lt_or_ge place.line above.length with higher | here
  · -- The place is on a line that ends within the text.
    have some : above ≠ [] := List.ne_nil_of_length_pos (by omega)
    have count : place.line < lineCount (unlines above) := by
      rwa [← length_lines, lines_unlines some areLines]
    rw [terminated_eq some, List.append_assoc, List.append_assoc, List.append_assoc,
      List.singleton_append, List.singleton_append, offsetAt_above count, offsetAt_above count]
  · have column : place.column ≤ last.length := by
      dsimp only at upTo
      omega
    have line : place.line - above.length = 0 := by
      dsimp only at upTo
      omega
    have alone := offsetAt_first isLine column []
    rw [List.append_nil] at alone
    rw [List.append_assoc, offsetAt_below areLines _ here, offsetAt_below areLines _ here, line,
      offsetAt_first isLine column, alone]

/-- The place at which a text ends has the length of the text for its offset. -/
theorem offsetAt_finish (front back : Text) : offsetAt (front ++ back) (finish front) = front.length := by
  obtain ⟨above, last, rfl, areLines, isLine⟩ := exists_last front
  rw [finish_terminated areLines isLine, List.append_assoc, offsetAt_below areLines _ (Nat.le_refl _),
    Nat.sub_self, offsetAt_first isLine (Nat.le_refl _), List.length_append]

/-- The text has the line of the place, and the line has its column. -/
def HasPlace (text : Text) (place : Position) : Prop :=
  place.line < lineCount text ∧ place.column ≤ lineLength text place.line

instance (text : Text) (place : Position) : Decidable (HasPlace text place) :=
  inferInstanceAs (Decidable (_ ∧ _))

/-- A place that a text has is one that the text comes to. -/
theorem HasPlace.exists_front {text : Text} {place : Position} (has : HasPlace text place) :
    ∃ front back, text = front ++ back ∧ finish front = place := by
  obtain ⟨below, column⟩ := has
  have bound : place.line < (lines text).length := by rwa [length_lines]
  rw [lineLength, line?, List.getElem?_eq_getElem bound, Option.getD_some] at column
  have split := eq_terminated_append below
  rw [List.drop_eq_getElem_cons bound, unlines_cons] at split
  have isLine := isLine_of_mem_lines (List.getElem_mem bound)
  generalize (lines text)[place.line] = line at split column isLine
  refine ⟨terminated ((lines text).take place.line) ++ line.take place.column,
    line.drop place.column ++ preceded ((lines text).drop (place.line + 1)), ?_, ?_⟩
  · rw [List.append_assoc, ← List.append_assoc (line.take _), List.take_append_drop, ← split]
  · rw [finish_terminated (areLines_take text _) fun member => isLine (List.mem_of_mem_take member),
      List.length_take, List.length_take, Nat.min_eq_left (Nat.le_of_lt bound), Nat.min_eq_left column]

/-- In a text, the earlier of two places has the smaller offset. -/
theorem HasPlace.offsetAt_lt {text : Text} {a b : Position} (has : HasPlace text a)
    (other : HasPlace text b) (before : a.before b = true) : offsetAt text a < offsetAt text b := by
  obtain ⟨front, back, rfl, rfl⟩ := has.exists_front
  obtain ⟨front', back', split, rfl⟩ := other.exists_front
  rw [offsetAt_finish, split, offsetAt_finish]
  rcases List.append_eq_append_iff.mp split with ⟨more, rfl, -⟩ | ⟨more, rfl, -⟩
  · have some : more ≠ [] := by
      rintro rfl
      rw [List.append_nil, ← Bool.not_eq_false] at before
      exact before (not_before_self _)
    rw [List.length_append]
    have := List.length_pos_iff.mpr some
    omega
  · rw [← Bool.not_eq_false] at before
    exact absurd (not_finish_append_before front' more) before

/-- No two places of a text have the same offset. -/
theorem HasPlace.offsetAt_inj {text : Text} {a b : Position} (has : HasPlace text a)
    (other : HasPlace text b) (same : offsetAt text a = offsetAt text b) : a = b := by
  obtain ⟨front, back, rfl, rfl⟩ := has.exists_front
  obtain ⟨front', back', split, rfl⟩ := other.exists_front
  rw [offsetAt_finish, split, offsetAt_finish] at same
  rw [(List.append_inj split same).1]

/-- In a text, a place has no greater offset than a later one whose line exists, even if both are
past the ends of their lines. -/
theorem offsetAt_le {text : Text} {a b : Position} (notAfter : b.before a = false)
    (below : b.line < lineCount text) : offsetAt text a ≤ offsetAt text b := by
  let cut (place : Position) : Position :=
    ⟨place.line, min place.column (lineLength text place.line)⟩
  have offset (place : Position) : offsetAt text (cut place) = offsetAt text place := by
    rw [offsetAt, offsetAt, Nat.min_assoc, Nat.min_self]
  rw [not_before_iff] at notAfter
  have has (place : Position) (line : place.line ≤ b.line) : HasPlace text (cut place) :=
    ⟨Nat.lt_of_le_of_lt line below, Nat.min_le_right ..⟩
  have order : (cut b).before (cut a) = false := by
    rw [not_before_iff]
    rcases notAfter with higher | ⟨line, column⟩
    · exact .inl higher
    · refine .inr ⟨line, ?_⟩
      dsimp only [cut]
      rw [line]
      omega
  rw [← offset a, ← offset b]
  by_cases same : cut a = cut b
  · rw [same]
  · refine Nat.le_of_lt ((has a ?_).offsetAt_lt (has b (Nat.le_refl _))
      (before_of_not_before_of_ne order same))
    omega

/-- A text comes to its places before it ends. -/
theorem HasPlace.not_finish_before {text : Text} {place : Position} (has : HasPlace text place) :
    (finish text).before place = false := by
  obtain ⟨front, back, rfl, rfl⟩ := has.exists_front
  exact not_finish_append_before front back

/-- The places of a text up to the end of a part are those of the part. -/
theorem HasPlace.exists_between {front back : Text} {place : Position}
    (has : HasPlace (front ++ back) place) (upTo : (finish front).before place = false) :
    ∃ start between, front = start ++ between ∧ finish start = place := by
  obtain ⟨start, rest, split, rfl⟩ := has.exists_front
  rcases List.append_eq_append_iff.mp split with ⟨more, rfl, -⟩ | ⟨more, rfl, -⟩
  · by_cases none : more = []
    · exact ⟨front, [], by rw [List.append_nil], by rw [none, List.append_nil]⟩
    · rw [finish_before none] at upTo
      cases upTo
  · exact ⟨start, more, rfl, rfl⟩

end Text

end Notebook

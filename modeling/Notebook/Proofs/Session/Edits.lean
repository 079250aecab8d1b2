import Notebook.Proofs.Layout
import Notebook.Proofs.Text.Places
import Notebook.Session.Change
/-!
# Edits within cells

Edits are made in the facade from the bottom up. An edit that starts and stops in the content of one
cell is then the same edit of the source of that cell: what stands above and below it stays. So the
facade becomes the rendering of cells with other sources, as long as every edit finds the lines on
which it starts and stops.
-/
namespace Notebook

open Text

namespace Edit

/-! ## One edit -/

def rewrite (edit : Edit) (text : Text) : Text :=
  let a := offsetAt text edit.start
  let b := offsetAt text edit.stop
  text.take (min a b) ++ (edit.text ++ text.drop (max a b))

/-- The text has the lines on which the edit starts and stops. -/
def Fits (edit : Edit) (text : Text) : Prop :=
  edit.start.line < lineCount text ∧ edit.stop.line < lineCount text

instance (edit : Edit) (text : Text) : Decidable (edit.Fits text) :=
  inferInstanceAs (Decidable (_ ∧ _))

theorem text_applyTo (edit : Edit) (grouping : Grouping) (buffer : Buffer) :
    (edit.applyTo grouping buffer).text = edit.rewrite buffer.text := by
  -- The span is cut to the text, which a part up to an offset or from one on does not notice.
  let a := offsetAt buffer.text edit.start
  let b := offsetAt buffer.text edit.stop
  let stop := min (max a b) buffer.text.length
  let start := min (min a b) stop
  have upto : buffer.text.take start = buffer.text.take (min a b) := by
    rw [List.take_eq_take_iff]
    omega
  have onward : start + ((buffer.text.take stop).drop start).length = stop := by
    rw [List.length_drop, List.length_take]
    omega
  have rest : buffer.text.drop stop = buffer.text.drop (max a b) := by
    rw [List.drop_eq_drop_iff]
    omega
  change buffer.text.take start ++ edit.text ++
    buffer.text.drop (start + ((buffer.text.take stop).drop start).length) = _
  rw [onward, upto, rest, List.append_assoc]
  rfl

theorem rewrite_below {parts : List Text} (areLines : ∀ line ∈ parts, IsLine line) (text : Text)
    {edit : Edit} (start : parts.length ≤ edit.start.line) (stop : parts.length ≤ edit.stop.line) :
    edit.rewrite (terminated parts ++ text) =
      terminated parts ++ (edit.shiftedUp parts.length).rewrite text := by
  simp only [rewrite, shiftedUp, offsetAt_below areLines text start,
    offsetAt_below areLines text stop, Nat.add_min_add_left, Nat.add_max_add_left]
  rw [List.take_length_add_append, List.drop_length_add_append, List.append_assoc]

theorem rewrite_above {edit : Edit} {front : Text} (fits : edit.Fits front) (back : Text) :
    edit.rewrite (front ++ '\n' :: back) = edit.rewrite front ++ '\n' :: back := by
  have start := offsetAt_le_length fits.1
  have stop := offsetAt_le_length fits.2
  simp only [rewrite, offsetAt_above fits.1, offsetAt_above fits.2]
  rw [List.take_append_of_le_length (by omega), List.drop_append_of_le_length (by omega)]
  simp

/-- The line on which an edit starts stays, and so does the one on which it stops, whichever is above. -/
theorem lt_lineCount_rewrite {edit : Edit} {text : Text} (fits : edit.Fits text) {line : Nat}
    (start : line ≤ edit.start.line) (stop : line ≤ edit.stop.line) :
    line < lineCount (edit.rewrite text) := by
  have first := le_lineOf_offsetAt fits.1
  have last := le_lineOf_offsetAt fits.2
  have above : line ≤
      lineOf text (min (offsetAt text edit.start) (offsetAt text edit.stop)) := by
    -- An edit may be given backwards.
    rcases Nat.le_total (offsetAt text edit.start) (offsetAt text edit.stop) with upward | downward
    · rw [Nat.min_eq_left upward]
      omega
    · rw [Nat.min_eq_right downward]
      omega
  rw [lineOf] at above
  rw [lineCount, rewrite, List.count_append]
  omega

/-! ## Edits from the bottom up -/

variable {row : List Edit}

theorem insertBottomUp_perm (edit : Edit) (row : List Edit) :
    (edit.insertBottomUp row).Perm (edit :: row) := by
  induction row with
  | nil => exact .refl _
  | cons other rest ih =>
    rw [insertBottomUp]
    split
    · exact (ih.cons other).trans (.swap edit other rest)
    · exact .refl _

theorem bottomUp_perm (edits : List Edit) : (bottomUp edits).Perm edits := by
  induction edits with
  | nil => exact .refl _
  | cons edit rest ih => exact (insertBottomUp_perm edit _).trans (ih.cons edit)

/-- No edit starts behind one that is made before it. -/
def Upward (row : List Edit) : Prop :=
  row.Pairwise fun lower upper => lower.start.before upper.start = false

theorem Upward.insertBottomUp (upward : Upward row) (edit : Edit) :
    Upward (edit.insertBottomUp row) := by
  induction row with
  | nil => exact List.pairwise_singleton _ _
  | cons other rest ih =>
    obtain ⟨above, upward⟩ := List.pairwise_cons.mp upward
    rw [Edit.insertBottomUp]
    split
    next before =>
      refine List.pairwise_cons.mpr ⟨fun upper member => ?_, ih upward⟩
      rcases List.mem_cons.mp ((insertBottomUp_perm edit rest).subset member) with rfl | member
      · exact Position.not_before_of_before before
      · exact above upper member
    next behind =>
      have first := (Bool.not_eq_true _).mp behind
      refine List.pairwise_cons.mpr ⟨fun upper member => ?_, List.pairwise_cons.mpr ⟨above, upward⟩⟩
      rcases List.mem_cons.mp member with rfl | member
      · exact first
      · exact Position.not_before_trans (above upper member) first

theorem bottomUp_cons (edit : Edit) (edits : List Edit) :
    bottomUp (edit :: edits) = edit.insertBottomUp (bottomUp edits) := rfl

theorem upward_bottomUp (edits : List Edit) : Upward (bottomUp edits) := by
  induction edits with
  | nil => exact List.Pairwise.nil
  | cons edit rest ih => exact Upward.insertBottomUp ih edit

/-- No edit starts on a line below one that is made before it. -/
def Rising (row : List Edit) : Prop :=
  row.Pairwise fun lower upper => upper.start.line ≤ lower.start.line

theorem rising_bottomUp (edits : List Edit) : Rising (bottomUp edits) :=
  (upward_bottomUp edits).imp fun notAfter => by
    rw [Position.not_before_iff] at notAfter
    omega

/-- The edits below a line come before those on the line and above it. -/
theorem Rising.split (rising : Rising row) (line : Nat) :
    row.filter (fun edit => line < edit.start.line) ++
      row.filter (fun edit => edit.start.line ≤ line) = row := by
  induction row with
  | nil => rfl
  | cons edit rest ih =>
    obtain ⟨above, rising⟩ := List.pairwise_cons.mp rising
    rcases Nat.lt_or_ge line edit.start.line with below | here
    · rw [List.filter_cons_of_pos (by simpa using below),
        List.filter_cons_of_neg (by simpa using below), List.cons_append, ih rising]
    · -- Nothing that is made later starts below this edit.
      have none : rest.filter (fun edit => line < edit.start.line) = [] := by
        rw [List.filter_eq_nil_iff]
        intro upper member
        have := above upper member
        simp only [decide_eq_true_eq]
        omega
      rw [List.filter_cons_of_neg (by simpa using here),
        List.filter_cons_of_pos (by simpa using here), none, List.nil_append]
      rw [← ih rising, none, List.nil_append, List.filter_filter]
      simp

theorem text_applyAll (edits : List Edit) (grouping : Grouping) (buffer : Buffer) :
    (applyAll edits grouping buffer).text =
      (bottomUp edits).foldl (fun text edit => edit.rewrite text) buffer.text := by
  unfold applyAll
  generalize bottomUp edits = row
  induction row generalizing buffer with
  | nil => rfl
  | cons edit rest ih => rw [List.foldl_cons, ih, text_applyTo, List.foldl_cons]

/-- A text after edits, each of which starts and stops on lines that the text has when it is made. -/
def rewriteAll? : List Edit → Text → Option Text
  | [], text => some text
  | edit :: rest, text => if edit.Fits text then rewriteAll? rest (edit.rewrite text) else none

/-- Edits that stay on the lines of a text change nothing above and nothing below it. -/
theorem foldl_rewrite {parts tail : List Text} (areLines : ∀ line ∈ parts, IsLine line)
    (inside : ∀ edit ∈ row, parts.length ≤ edit.start.line ∧ parts.length ≤ edit.stop.line)
    {source new : Text} (rewritten : rewriteAll? (row.map (·.shiftedUp parts.length)) source = some new) :
    row.foldl (fun text edit => edit.rewrite text)
        (terminated parts ++ (source ++ '\n' :: unlines tail)) =
      terminated parts ++ (new ++ '\n' :: unlines tail) := by
  induction row generalizing source with
  | nil =>
    obtain rfl : source = new := Option.some.inj rewritten
    rfl
  | cons edit rest ih =>
    obtain ⟨⟨start, stop⟩, inside⟩ := List.forall_mem_cons.mp inside
    rw [List.map_cons, rewriteAll?] at rewritten
    split at rewritten
    next fits =>
      rw [List.foldl_cons, rewrite_below areLines _ start stop, rewrite_above fits]
      exact ih inside rewritten
    next => cases rewritten

/-- Of two edits, the one that is made first starts and stops no higher than the other. -/
def Clear (lower upper : Edit) : Prop :=
  max upper.start.line upper.stop.line ≤ min lower.start.line lower.stop.line

/-- What only inserts takes no line away. -/
theorem lineCount_le_rewrite {edit : Edit} (inserts : edit.start = edit.stop) (text : Text) :
    lineCount text ≤ lineCount (edit.rewrite text) := by
  simp only [lineCount, rewrite, inserts, Nat.min_self, Nat.max_self, List.count_append]
  have parts : text.count '\n' = (text.take (offsetAt text edit.stop)).count '\n' +
      (text.drop (offsetAt text edit.stop)).count '\n' := by
    rw [← List.count_append, List.take_append_drop]
  omega

/-- Edits find their lines if those that do more than insert are clear of the ones made later. -/
theorem exists_rewriteAll? {text : Text} (fits : ∀ edit ∈ row, edit.Fits text)
    (clear : row.Pairwise fun lower upper => lower.start = lower.stop ∨ Clear lower upper) :
    ∃ new, rewriteAll? row text = some new := by
  induction row generalizing text with
  | nil => exact ⟨text, rfl⟩
  | cons edit rest ih =>
    obtain ⟨here, fits⟩ := List.forall_mem_cons.mp fits
    obtain ⟨above, clear⟩ := List.pairwise_cons.mp clear
    rw [rewriteAll?, if_pos here]
    -- The edits above keep their lines when this one is made.
    refine ih (fun upper member => ?_) clear
    rcases above upper member with inserts | higher
    · have more := lineCount_le_rewrite inserts text
      exact ⟨Nat.lt_of_lt_of_le (fits upper member).1 more,
        Nat.lt_of_lt_of_le (fits upper member).2 more⟩
    · rw [Clear] at higher
      exact ⟨lt_lineCount_rewrite here (by omega) (by omega),
        lt_lineCount_rewrite here (by omega) (by omega)⟩

/-! ## Cells -/

/-- Those of the edits that start in the content of a cell, counted from its first content line. -/
def within (span : Span) (row : List Edit) : List Edit :=
  (row.filter fun edit => span.containsContent edit.start.line).map (·.shiftedUp span.contentStart)

/-- What cells that stand one below the other from a line on show after edits of their sources. -/
def rewriteCells? (row : List Edit) (line : Nat) : List Cell → Option (List Block)
  | [] => some []
  | cell :: rest => do
    let source ← rewriteAll? (within ⟨line, line + cell.height - 1⟩ row) cell.source
    let others ← rewriteCells? row (line + cell.height + 1) rest
    some (⟨cell.kind, source⟩ :: others)

/-- An edit starts and stops in the content of one of the cells that stand from a line on. -/
def StaysIn (line : Nat) (cells : List Cell) (edit : Edit) : Prop :=
  ∃ entry ∈ cells.zip (Layout.startLines line cells),
    let span : Span := ⟨entry.2, entry.2 + entry.1.height - 1⟩
    span.containsContent edit.start.line = true ∧ span.containsContent edit.stop.line = true

section Cells

variable {line : Nat} {cell : Cell} {rest cells : List Cell} {edit : Edit} {blocks : List Block}

theorem StaysIn.lt (stays : StaysIn line cells edit) :
    line < edit.start.line ∧ line < edit.stop.line := by
  obtain ⟨⟨cell, top⟩, member, start, stop⟩ := stays
  obtain ⟨above, below, -, rfl⟩ := Layout.mem_zip_startLines_from.mp member
  simp only [Span.containsContent, Bool.and_eq_true, decide_eq_true_eq] at start stop
  omega

theorem staysIn_cons : StaysIn line (cell :: rest) edit ↔
    (line < edit.start.line ∧ edit.start.line < line + cell.height - 1) ∧
      (line < edit.stop.line ∧ edit.stop.line < line + cell.height - 1) ∨
    StaysIn (line + cell.height + 1) rest edit := by
  simp [StaysIn, Layout.startLines, Span.containsContent]

/-- The first cell holds its edits, and the others hold all that are below. -/
theorem staysIn_rest (stays : ∀ edit ∈ row, line < edit.start.line → StaysIn line (cell :: rest) edit) :
    ∀ edit ∈ row, line + cell.height + 1 < edit.start.line →
      StaysIn (line + cell.height + 1) rest edit := by
  intro edit member below
  rcases staysIn_cons.mp (stays edit member (by omega)) with here | there
  · omega
  · exact there

theorem mem_within {span : Span} {shifted : Edit} : shifted ∈ within span row ↔
    ∃ edit ∈ row, span.containsContent edit.start.line = true ∧
      edit.shiftedUp span.contentStart = shifted := by
  simp [within, and_assoc]

theorem rewriteCells?_cons : rewriteCells? row line (cell :: rest) = some blocks ↔
    ∃ source others, rewriteAll? (within ⟨line, line + cell.height - 1⟩ row) cell.source = some source ∧
      rewriteCells? row (line + cell.height + 1) rest = some others ∧
      ⟨cell.kind, source⟩ :: others = blocks := by
  simp only [rewriteCells?, Option.bind_eq_bind, Option.bind_eq_some_iff, Option.some.injEq,
    exists_and_left]

theorem kinds_rewriteCells? (rewritten : rewriteCells? row line cells = some blocks) :
    blocks.map Block.kind = cells.map Cell.kind := by
  induction cells generalizing line blocks with
  | nil =>
    obtain rfl : [] = blocks := Option.some.inj rewritten
    rfl
  | cons cell rest ih =>
    obtain ⟨source, others, -, later, rfl⟩ := rewriteCells?_cons.mp rewritten
    rw [List.map_cons, List.map_cons, ih later]

/-- Each cell shows its own source after its own edits. -/
theorem getElem?_rewriteCells? {above : List Cell}
    (rewritten : rewriteCells? row line (above ++ cell :: rest) = some blocks) :
    ∃ source, blocks[above.length]? = some ⟨cell.kind, source⟩ ∧
      rewriteAll? (within ⟨line + Layout.depth above,
        line + Layout.depth above + cell.height - 1⟩ row) cell.source = some source := by
  induction above generalizing line blocks with
  | nil =>
    obtain ⟨source, others, here, -, rfl⟩ := rewriteCells?_cons.mp rewritten
    exact ⟨source, rfl, here⟩
  | cons first above ih =>
    obtain ⟨source, others, -, later, rfl⟩ := rewriteCells?_cons.mp rewritten
    obtain ⟨found, there, eq⟩ := ih later
    have top : line + first.height + 1 + Layout.depth above =
        line + Layout.depth (first :: above) := by
      rw [Layout.depth_cons]
      omega
    exact ⟨found, there, top ▸ eq⟩

theorem rewriteCells?_nil (line : Nat) (cells : List Cell) :
    rewriteCells? [] line cells = some (cells.map Cell.block) := by
  induction cells generalizing line with
  | nil => rfl
  | cons cell rest ih => exact rewriteCells?_cons.mpr ⟨cell.source, _, rfl, ih _, rfl⟩

/-- Edits that stay in the contents of cells and do not overlap find their lines. -/
theorem exists_rewriteCells? (clear : row.Pairwise Clear)
    (stays : ∀ edit ∈ row, line < edit.start.line → StaysIn line cells edit) :
    ∃ blocks, rewriteCells? row line cells = some blocks := by
  induction cells generalizing line with
  | nil => exact ⟨[], rfl⟩
  | cons cell rest ih =>
    obtain ⟨others, later⟩ := ih (staysIn_rest stays)
    -- Counted from the content of the cell, its edits are as far apart as before.
    have own : (within ⟨line, line + cell.height - 1⟩ row).Pairwise Clear := by
      refine List.pairwise_map.mpr ((clear.filter _).imp fun {lower upper} apart => ?_)
      simp only [Clear, shiftedUp] at apart ⊢
      omega
    have fits : ∀ shifted ∈ within ⟨line, line + cell.height - 1⟩ row, shifted.Fits cell.source := by
      intro shifted member
      obtain ⟨edit, there, start, rfl⟩ := mem_within.mp member
      simp only [Span.containsContent, Bool.and_eq_true, decide_eq_true_eq] at start
      have height : cell.height = 2 + lineCount cell.source := rfl
      rcases staysIn_cons.mp (stays edit there start.1) with inside | below
      · simp only [Fits, shiftedUp, Span.contentStart]
        omega
      · have := below.lt
        omega
    obtain ⟨source, here⟩ := exists_rewriteAll? fits (own.imp .inr)
    exact ⟨_, rewriteCells?_cons.mpr ⟨source, others, here, later, rfl⟩⟩

end Cells

/-! ## The rendered text -/

variable {tag : Text} {blocks : List Block}

/-- Lines of cells below one another, each with a blank line behind it. -/
def blockRows (tag : Text) (blocks : List Block) : List Text :=
  blocks.flatMap fun block => Markup.blockLines tag block ++ [[]]

theorem blockRows_cons (tag : Text) (block : Block) (more : List Block) :
    blockRows tag (block :: more) = startMarker tag block.kind ::
      (lines block.source ++ (endMarker tag :: [] :: blockRows tag more)) := by
  simp [blockRows, Markup.blockLines]

theorem renderLines_eq_blockRows (some : blocks ≠ []) :
    Markup.renderLines tag blocks = blockRows tag blocks := by
  rw [Markup.renderLines, Markup.stacked_of_ne_nil (by simpa using some), List.flatMap_map]
  rfl

theorem unlines_around (parts : List Text) (source : Text) {tail : List Text} (some : tail ≠ []) :
    unlines (parts ++ (lines source ++ tail)) =
      terminated parts ++ (source ++ '\n' :: unlines tail) := by
  rw [unlines_append (by simp [some]), unlines_append some, terminated_eq (lines_ne_nil source),
    unlines_lines, List.append_assoc, List.singleton_append]

/-- Edits of the contents of cells make the rendering of the cells with edited sources. The induction
is on the cells; those below are edited first, and with them goes all that stands above. -/
theorem foldl_rewriteCells? (plain : IsLine tag) (rising : Rising row) {line : Nat}
    {cells : List Cell} {parts : List Text} (areLines : ∀ line ∈ parts, IsLine line)
    (length : parts.length = line)
    (stays : ∀ edit ∈ row, line < edit.start.line → StaysIn line cells edit)
    (rewritten : rewriteCells? row line cells = some blocks) :
    (row.filter fun edit => line < edit.start.line).foldl (fun text edit => edit.rewrite text)
        (unlines (parts ++ blockRows tag (cells.map Cell.block))) =
      unlines (parts ++ blockRows tag blocks) := by
  induction cells generalizing line parts blocks with
  | nil =>
    obtain rfl : [] = blocks := Option.some.inj rewritten
    have none : row.filter (fun edit => line < edit.start.line) = [] := by
      rw [List.filter_eq_nil_iff]
      intro edit member below
      obtain ⟨entry, inside, -⟩ := stays edit member (of_decide_eq_true below)
      cases inside
    rw [none]
    rfl
  | cons cell rest ih =>
    obtain ⟨source, others, here, later, rfl⟩ := rewriteCells?_cons.mp rewritten
    have height : cell.height = 2 + lineCount cell.source := rfl
    let onward := line + cell.height + 1
    -- The edits below this cell come first, and then its own.
    have split := Rising.split (rising.filter fun edit => line < edit.start.line) onward
    rw [List.filter_filter, List.filter_filter] at split
    have lower : row.filter (fun edit =>
        decide (onward < edit.start.line) && decide (line < edit.start.line)) =
          row.filter fun edit => onward < edit.start.line := by
      refine List.filter_congr fun edit _ => ?_
      rw [← Bool.decide_and, decide_eq_decide]
      omega
    have upper : row.filter (fun edit =>
        decide (edit.start.line ≤ onward) && decide (line < edit.start.line)) =
          row.filter fun edit =>
            (Span.mk line (line + cell.height - 1)).containsContent edit.start.line := by
      refine List.filter_congr fun edit member => ?_
      rw [Span.containsContent, ← Bool.decide_and, ← Bool.decide_and, decide_eq_decide]
      dsimp only
      constructor
      · rintro ⟨above, below⟩
        rcases staysIn_cons.mp (stays edit member below) with inside | there
        · exact inside.1
        · have := there.lt
          omega
      · omega
    rw [lower, upper] at split
    have content : ∀ line ∈ lines cell.source, IsLine line := fun _ => isLine_of_mem_lines
    -- What is above the content of this cell, for its own edits; those below see all of the cell.
    let front := parts ++ [startMarker tag cell.kind]
    have areFront : ∀ line ∈ front, IsLine line := by
      simpa [front, or_imp, forall_and] using ⟨areLines, isLine_startMarker plain cell.kind⟩
    have before : parts ++ blockRows tag ((cell :: rest).map Cell.block) =
        (front ++ (lines cell.source ++ [endMarker tag, []])) ++
          blockRows tag (rest.map Cell.block) := by
      simp [front, blockRows_cons, Cell.block]
    have between : (front ++ (lines cell.source ++ [endMarker tag, []])) ++ blockRows tag others =
        front ++ (lines cell.source ++ (endMarker tag :: [] :: blockRows tag others)) := by
      simp
    have after : parts ++ blockRows tag (⟨cell.kind, source⟩ :: others) =
        front ++ (lines source ++ (endMarker tag :: [] :: blockRows tag others)) := by
      simp [front, blockRows_cons]
    rw [← split, List.foldl_append, before, ih ?_ ?_ (staysIn_rest stays) later, between, after,
      unlines_around _ _ (List.cons_ne_nil _ _), unlines_around _ _ (List.cons_ne_nil _ _)]
    · have start : front.length = line + 1 := by simp [front, length]
      refine foldl_rewrite areFront (fun edit member => ?_) ?_
      · obtain ⟨there, inside⟩ := List.mem_filter.mp member
        simp only [Span.containsContent, Bool.and_eq_true, decide_eq_true_eq] at inside
        have := (stays edit there inside.1).lt
        omega
      · rw [start]
        exact here
    · simp only [List.forall_mem_append, List.forall_mem_cons]
      exact ⟨areFront, content, isLine_endMarker plain, List.not_mem_nil, List.forall_mem_nil _⟩
    · simp only [front, List.length_append, List.length_cons, List.length_nil, length_lines, length]
      omega

theorem lines_applyAll_cells (plain : IsLine tag) {edits : List Edit} {cells : List Cell}
    (stays : ∀ edit ∈ edits, StaysIn 0 cells edit)
    (rewritten : rewriteCells? (bottomUp edits) 0 cells = some blocks) (grouping : Grouping)
    {buffer : Buffer} (shows : buffer.lines = Markup.renderLines tag (cells.map Cell.block)) :
    (applyAll edits grouping buffer).lines = Markup.renderLines tag blocks := by
  have stays (edit : Edit) (member : edit ∈ bottomUp edits) : StaysIn 0 cells edit :=
    stays edit ((bottomUp_perm edits).subset member)
  rw [Buffer.lines, text_applyAll, ← Buffer.unlines_lines, shows]
  cases cells with
  | nil =>
    obtain rfl : [] = blocks := Option.some.inj rewritten
    have none : bottomUp edits = [] := by
      rw [List.eq_nil_iff_forall_not_mem]
      intro edit member
      obtain ⟨entry, inside, -⟩ := stays edit member
      cases inside
    rw [none]
    rfl
  | cons cell rest =>
    have some : blocks ≠ [] := by
      rintro rfl
      exact absurd (kinds_rewriteCells? rewritten) (by simp)
    -- The first line is a start marker, so all edits are below it.
    have all : (bottomUp edits).filter (fun edit => 0 < edit.start.line) = bottomUp edits := by
      rw [List.filter_eq_self]
      exact fun edit member => decide_eq_true (stays edit member).lt.1
    have made := @foldl_rewriteCells? _ tag _ plain (rising_bottomUp edits) 0 (cell :: rest) []
      (List.forall_mem_nil _) rfl (fun edit member _ => stays edit member) rewritten
    rw [all, List.nil_append, List.nil_append] at made
    rw [renderLines_eq_blockRows (by simp), renderLines_eq_blockRows some, made,
      ← renderLines_eq_blockRows some,
      lines_unlines (Markup.renderLines_ne_nil _) (Markup.areLines_renderLines plain _)]

end Edit

end Notebook

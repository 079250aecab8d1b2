import Notebook.Proofs.Text.Lines
import Notebook.Markup
/-!
# Reading inverts rendering

A source can be rendered if none of its lines is the end marker. Cells with such sources are read
back from their rendering, and whatever is read has such sources. So reading and rendering are
inverse, up to the layout of the text that is read.

No start marker is an end marker: after the common beginning, the one goes on with the tag, a colon
and a name, the other with a slash and the tag, and the name of a kind is not empty.
-/
namespace Notebook

open Text

/-! ## Markers -/

theorem afterPrefix?_eq_some_iff {start text rest : Text} :
    afterPrefix? start text = some rest ↔ text = start ++ rest := by
  induction start generalizing text with
  | nil => simp [afterPrefix?]
  | cons p ps ih =>
    cases text with
    | nil => simp [afterPrefix?]
    | cons c more =>
      by_cases same : p = c
      · simp [afterPrefix?, same, ih]
      · simp [afterPrefix?, same, Ne.symm same]

/-- A line has the form of a start marker exactly if it is made like one. -/
theorem markedKind?_eq_some_iff {tag line name : Text} :
    markedKind? tag line = some name ↔
      line = "# <<" ++ tag ++ ":" ++ name ++ ">>" ∧ name ≠ [] ∧ name.all isLatinLetter = true := by
  -- The end of the line is recognized on the reversed text.
  have closing (rest reversed : Text) : rest.reverse = ">>".toList ++ reversed ↔
      rest = reversed.reverse ++ ">>".toList := by
    rw [← List.reverse_inj, List.reverse_reverse, List.reverse_append]
    rfl
  simp only [markedKind?, Option.bind_eq_bind, Option.bind_eq_some_iff, afterPrefix?_eq_some_iff,
    closing]
  constructor
  · rintro ⟨rest, rfl, reversed, rfl, named⟩
    split at named
    next valid =>
      obtain rfl : reversed.reverse = name := by simpa using named
      exact ⟨by simp, valid⟩
    next => cases named
  · rintro ⟨rfl, valid⟩
    refine ⟨name ++ ">>".toList, by simp, name.reverse, by simp, ?_⟩
    rw [List.reverse_reverse, if_pos valid]

theorem Kind.named?_name (kind : Kind) : Kind.named? kind.name = some kind := by
  cases kind <;> decide

theorem Kind.name_of_named? {name : Text} {kind : Kind} (known : named? name = some kind) :
    kind.name = name := by
  unfold named? at known
  split at known
  next same =>
    cases known
    exact same.symm
  next =>
    split at known
    next same =>
      cases known
      exact same.symm
    next =>
      obtain ⟨same, raw⟩ := Option.ite_none_right_eq_some.mp known
      cases raw
      exact same.symm

theorem markedKind?_startMarker (tag : Text) (kind : Kind) :
    markedKind? tag (startMarker tag kind) = some kind.name := by
  rw [markedKind?_eq_some_iff]
  refine ⟨rfl, ?_⟩
  cases kind <;> decide

theorem endMarker_eq (tag : Text) :
    endMarker tag = "# <</".toList ++ tag ++ ">>".toList := rfl

theorem startMarker_eq (tag : Text) (kind : Kind) : startMarker tag kind =
    "# <<".toList ++ tag ++ ":".toList ++ kind.name ++ ">>".toList := rfl

theorem endMarker_ne_nil (tag : Text) : endMarker tag ≠ [] := by
  simp [endMarker_eq]

theorem markedKind?_nil (tag : Text) : markedKind? tag [] = none := by
  rw [Option.eq_none_iff_forall_ne_some]
  intro name marked
  have length := congrArg List.length (markedKind?_eq_some_iff.mp marked).1
  simp at length

theorem markedKind?_endMarker (tag : Text) : markedKind? tag (endMarker tag) = none := by
  rw [Option.eq_none_iff_forall_ne_some]
  intro name marked
  obtain ⟨same, some, -⟩ := markedKind?_eq_some_iff.mp marked
  have length := congrArg List.length same
  have positive := List.length_pos_of_ne_nil some
  simp [endMarker_eq] at length
  omega

theorem isLine_endMarker {tag : Text} (plain : IsLine tag) : IsLine (endMarker tag) := by
  simp only [IsLine, endMarker_eq, List.mem_append, not_or] at plain ⊢
  exact ⟨⟨by decide, plain⟩, by decide⟩

theorem isLine_startMarker {tag : Text} (plain : IsLine tag) (kind : Kind) :
    IsLine (startMarker tag kind) := by
  have name : '\n' ∉ kind.name := by cases kind <;> decide
  simp only [IsLine, startMarker_eq, List.mem_append, not_or] at plain ⊢
  exact ⟨⟨⟨⟨by decide, plain⟩, by decide⟩, name⟩, by decide⟩

namespace Markup

variable {tag : Text}

/-- A source can be rendered exactly if none of its lines is the end marker. -/
theorem checkSource_iff {source : Text} :
    checkSource tag source = .ok () ↔ endMarker tag ∉ Text.lines source := by
  unfold checkSource
  split
  next line found =>
    obtain ⟨bound, marker, -⟩ := List.findIdx?_eq_some_iff_getElem.mp found
    have member : endMarker tag ∈ Text.lines source := by
      rw [← of_decide_eq_true marker]
      exact List.getElem_mem bound
    simp [member]
  next none =>
    simp only [true_iff]
    intro member
    simpa using List.findIdx?_eq_none_iff.mp none _ member

/-! ## Reading a rendering -/

/-- Inside a cell every line but the end marker is content. -/
theorem readLines_content {content : List Text} (free : endMarker tag ∉ content) (k : Nat)
    (block : OpenBlock) (rest : List Text) :
    readLines tag k (some block) (content ++ rest) =
      readLines tag (k + content.length)
        (some { block with content := content.reverse ++ block.content }) rest := by
  induction content generalizing k block with
  | nil => rfl
  | cons line more ih =>
    obtain ⟨other, free⟩ : endMarker tag ≠ line ∧ endMarker tag ∉ more := by simpa using free
    rw [List.cons_append, readLines, if_neg other.symm, ih free, List.length_cons,
      List.reverse_cons, List.append_assoc, List.singleton_append]
    congr 1
    omega

/-- A rendered cell is read as the cell. -/
theorem readLines_block {block : Block} (free : endMarker tag ∉ Text.lines block.source) (k : Nat)
    (rest : List Text) : readLines tag k none (blockLines tag block ++ rest) =
      (readLines tag (k + (Text.lines block.source).length + 2) none rest).map (block :: ·) := by
  have index : k + 1 + (Text.lines block.source).length + 1 =
      k + (Text.lines block.source).length + 2 := by
    omega
  rw [blockLines, List.cons_append, readLines, markedKind?_startMarker]
  simp only [Kind.named?_name]
  rw [List.append_assoc, readLines_content free, List.singleton_append, readLines, if_pos rfl,
    List.append_nil, List.reverse_reverse, unlines_lines, index]
  cases readLines tag (k + (Text.lines block.source).length + 2) none rest <;> rfl

theorem readLines_blank (k : Nat) (rest : List Text) :
    readLines tag k none ([] :: rest) = readLines tag (k + 1) none rest := by
  rw [readLines, markedKind?_nil]
  simp [(endMarker_ne_nil tag).symm, isBlank]

theorem readLines_blocks {blocks : List Block}
    (free : ∀ block ∈ blocks, endMarker tag ∉ Text.lines block.source) (k : Nat) :
    readLines tag k none (blocks.flatMap fun block => blockLines tag block ++ [[]]) =
      .ok blocks := by
  induction blocks generalizing k with
  | nil => rfl
  | cons block more ih =>
    obtain ⟨here, free⟩ := List.forall_mem_cons.mp free
    rw [List.flatMap_cons, List.append_assoc, readLines_block here, List.singleton_append,
      readLines_blank, ih free]
    rfl

theorem stacked_of_ne_nil {groups : List (List Text)} (nonempty : groups ≠ []) :
    stacked groups = groups.flatMap fun group => group ++ [[]] := by
  cases groups with
  | nil => exact absurd rfl nonempty
  | cons group more => rfl

theorem parseLines_renderLines {blocks : List Block}
    (free : ∀ block ∈ blocks, endMarker tag ∉ Text.lines block.source) :
    parseLines tag (renderLines tag blocks) = .ok blocks := by
  rw [parseLines, renderLines]
  cases blocks with
  | nil => exact readLines_blank 0 []
  | cons block more =>
    rw [stacked_of_ne_nil (by simp), List.flatMap_map]
    exact readLines_blocks free 0

/-- How a line is read if reading goes well: it closes the open cell, or else it opens one, joins the
content of the open one, or is passed over. -/
theorem readLines_cons {k : Nat} {opened : Option OpenBlock} {line : Text} {rest : List Text}
    {blocks : List Block} (read : readLines tag k opened (line :: rest) = .ok blocks) :
    (line ≠ endMarker tag ∧ ∃ next, readLines tag (k + 1) next rest = .ok blocks ∧
      ∀ block ∈ next, block.content = [] ∨ ∃ held ∈ opened, block.content = line :: held.content) ∨
    line = endMarker tag ∧ ∃ held more, opened = some held ∧
      readLines tag (k + 1) none rest = .ok more ∧
      blocks = ⟨held.kind, unlines held.content.reverse⟩ :: more := by
  cases opened with
  | none =>
    simp only [readLines] at read
    split at read
    next name marked =>
      have other : line ≠ endMarker tag := by
        rintro rfl
        rw [markedKind?_endMarker] at marked
        cases marked
      split at read
      next => cases read
      next => exact .inl ⟨other, _, read, by simp⟩
    next =>
      split at read
      next => cases read
      next other =>
        split at read
        next => exact .inl ⟨other, _, read, by simp⟩
        next => cases read
  | some held =>
    simp only [readLines] at read
    split at read
    next closes =>
      cases later : readLines tag (k + 1) none rest with
      | error fault => simp [later, bind, Except.bind] at read
      | ok more =>
        refine .inr ⟨closes, held, more, rfl, rfl, ?_⟩
        simpa [later, bind, Except.bind, eq_comm] using read
    next other => exact .inl ⟨other, _, read, by simp⟩

/-! ## What is read can be rendered -/

/-- The content of an open cell consists of lines other than the end marker. -/
def OpenBlock.Sound (tag : Text) (block : OpenBlock) : Prop :=
  ∀ line ∈ block.content, IsLine line ∧ line ≠ endMarker tag

theorem OpenBlock.Sound.source {block : OpenBlock} (sound : block.Sound tag) :
    endMarker tag ∉ Text.lines (unlines block.content.reverse) := by
  by_cases blank : block.content = []
  · simp [blank, unlines, endMarker_ne_nil tag]
  · have areLines : ∀ line ∈ block.content.reverse, IsLine line := fun line member =>
      (sound line (List.mem_reverse.mp member)).1
    rw [lines_unlines (by simpa using blank) areLines, List.mem_reverse]
    exact fun member => (sound _ member).2 rfl

/-- No source that is read has the end marker as a line. The induction is on the lines; what is
known of the open cell carries it. -/
theorem readLines_sources {k : Nat} {opened : Option OpenBlock} {lines : List Text}
    {blocks : List Block} (areLines : ∀ line ∈ lines, IsLine line)
    (sound : ∀ block ∈ opened, block.Sound tag)
    (read : readLines tag k opened lines = .ok blocks) :
    ∀ block ∈ blocks, endMarker tag ∉ Text.lines block.source := by
  induction lines generalizing k opened blocks with
  | nil =>
    cases opened with
    | none => cases read; simp
    | some block => cases read
  | cons line rest ih =>
    obtain ⟨isLine, areLines⟩ := List.forall_mem_cons.mp areLines
    rcases readLines_cons read with ⟨other, next, read, joined⟩ | ⟨-, held, more, rfl, later, rfl⟩
    · refine ih areLines (fun block member content inside => ?_) read
      rcases joined block member with new | ⟨held, open', more⟩
      · rw [new] at inside
        cases inside
      · rw [more] at inside
        rcases List.mem_cons.mp inside with rfl | inside
        · exact ⟨isLine, other⟩
        · exact sound held open' content inside
    · refine List.forall_mem_cons.mpr ⟨(sound held rfl).source, ?_⟩
      exact ih areLines (by simp) later

theorem parseLines_sources {lines : List Text} {blocks : List Block}
    (areLines : ∀ line ∈ lines, IsLine line) (read : parseLines tag lines = .ok blocks) :
    ∀ block ∈ blocks, endMarker tag ∉ Text.lines block.source :=
  readLines_sources areLines (by simp) read

/-! ## Reading renderings of any sources -/

/-- The end marker below some lines closes a cell, whether it was opened above them or by one of
them. The induction is on the lines. -/
theorem readLines_closed {k : Nat} {opened : Option OpenBlock} {content rest : List Text}
    {blocks : List Block}
    (read : readLines tag k opened (content ++ endMarker tag :: [] :: rest) = .ok blocks) :
    ∃ onward first later, first ≠ [] ∧ blocks = first ++ later ∧
      readLines tag onward none rest = .ok later := by
  induction content generalizing k opened blocks with
  | nil =>
    rcases readLines_cons read with ⟨other, -⟩ | ⟨-, held, more, -, later, rfl⟩
    · exact absurd rfl other
    · rw [readLines_blank] at later
      exact ⟨_, [_], more, List.cons_ne_nil _ _, rfl, later⟩
  | cons line content ih =>
    rcases readLines_cons read with ⟨-, next, read, -⟩ | ⟨-, held, more, -, below, rfl⟩
    · exact ih read
    · -- The line closed a cell already, and the marker below closes another one.
      obtain ⟨onward, first, later, -, rfl, rest⟩ := ih below
      exact ⟨onward, _ :: first, later, List.cons_ne_nil _ _, rfl, rest⟩

/-- From the rendering of any sources no fewer cells are read, and as many only if they are the
same: an end marker in a source makes two cells of it. -/
theorem length_le_of_readLines {k : Nat} {blocks others : List Block}
    (read : readLines tag k none (blocks.flatMap fun block => blockLines tag block ++ [[]]) =
      .ok others) :
    blocks.length ≤ others.length ∧ (others.length = blocks.length → others = blocks) := by
  induction blocks generalizing k others with
  | nil =>
    obtain rfl : [] = others := Except.ok.inj read
    exact ⟨Nat.le_refl _, fun _ => rfl⟩
  | cons block more ih =>
    rw [List.flatMap_cons, List.append_assoc, List.singleton_append] at read
    by_cases closed : endMarker tag ∈ Text.lines block.source
    · obtain ⟨front, back, split, free⟩ := List.eq_append_cons_of_mem closed
      rw [blockLines, split, List.cons_append, readLines, markedKind?_startMarker] at read
      simp only [Kind.named?_name, List.append_assoc, List.cons_append, List.nil_append] at read
      rw [readLines_content free] at read
      rcases readLines_cons read with ⟨other, -⟩ | ⟨-, held, found, -, below, rfl⟩
      · exact absurd rfl other
      · -- What stands behind that end marker up to the one of the cell holds another cell.
        obtain ⟨onward, first, later, some, rfl, rest⟩ := readLines_closed below
        have positive := List.length_pos_of_ne_nil some
        have onward := (ih rest).1
        simp only [List.length_cons, List.length_append]
        exact ⟨by omega, by omega⟩
    · rw [readLines_block closed, readLines_blank] at read
      cases below : readLines tag (k + (Text.lines block.source).length + 2 + 1) none
          (more.flatMap fun block => blockLines tag block ++ [[]]) with
      | error fault => simp [below, Except.map] at read
      | ok later =>
        obtain rfl : block :: later = others := by simpa [below, Except.map] using read
        have onward := ih below
        simpa using onward

theorem length_le_of_parseLines {blocks others : List Block}
    (read : parseLines tag (renderLines tag blocks) = .ok others) :
    blocks.length ≤ others.length ∧ (others.length = blocks.length → others = blocks) := by
  by_cases none : blocks = []
  · rw [none, parseLines_renderLines (List.forall_mem_nil _)] at read
    simp [none, ← Except.ok.inj read]
  · rw [parseLines, renderLines, stacked_of_ne_nil (by simpa using none), List.flatMap_map] at read
    exact length_le_of_readLines read

/-! ## The round trip -/

theorem areLines_blockLines (plain : IsLine tag) (block : Block) :
    ∀ line ∈ blockLines tag block, IsLine line := by
  intro line member
  simp only [blockLines, List.mem_cons, List.mem_append, List.not_mem_nil, or_false] at member
  rcases member with rfl | content | rfl
  · exact isLine_startMarker plain block.kind
  · exact isLine_of_mem_lines content
  · exact isLine_endMarker plain

theorem renderLines_ne_nil (blocks : List Block) : renderLines tag blocks ≠ [] := by
  cases blocks with
  | nil => simp [renderLines, stacked]
  | cons block more => simp [renderLines, stacked]

theorem areLines_renderLines (plain : IsLine tag) (blocks : List Block) :
    ∀ line ∈ renderLines tag blocks, IsLine line := by
  intro line member
  cases blocks with
  | nil =>
    obtain rfl : line = [] := by simpa [renderLines, stacked] using member
    exact List.not_mem_nil
  | cons block more =>
    rw [renderLines, stacked_of_ne_nil (by simp), List.flatMap_map, List.mem_flatMap] at member
    obtain ⟨found, -, member⟩ := member
    rcases List.mem_append.mp member with inside | blank
    · exact areLines_blockLines plain found line inside
    · obtain rfl : line = [] := by simpa using blank
      exact List.not_mem_nil

theorem lines_render (plain : IsLine tag) (blocks : List Block) :
    Text.lines (render tag blocks) = renderLines tag blocks :=
  lines_unlines (renderLines_ne_nil blocks) (areLines_renderLines plain blocks)

/-- Cells are read back from their rendering. -/
theorem parse_render_of_free (plain : IsLine tag) {blocks : List Block}
    (free : ∀ block ∈ blocks, endMarker tag ∉ Text.lines block.source) :
    parse tag (render tag blocks) = .ok blocks := by
  rw [parse, lines_render plain, parseLines_renderLines free]

/-- What is read from a text can be rendered. -/
theorem parse_sources {text : Text} {blocks : List Block} (read : parse tag text = .ok blocks) :
    ∀ block ∈ blocks, endMarker tag ∉ Text.lines block.source :=
  parseLines_sources (fun _ member => isLine_of_mem_lines member) read

/-- Reading inverts rendering for exactly the sources that can be rendered, and everything that is
read can be rendered: rendering it is a normal form that is read the same. -/
theorem parse_render_normal (tag : Text) (plain : '\n' ∉ tag) :
    (∀ blocks : List Block, parse tag (render tag blocks) = .ok blocks ↔
      ∀ block ∈ blocks, checkSource tag block.source = .ok ()) ∧
    ∀ (text : Text) (blocks : List Block), parse tag text = .ok blocks →
      (∀ block ∈ blocks, checkSource tag block.source = .ok ()) ∧
        parse tag (render tag blocks) = .ok blocks := by
  simp only [checkSource_iff]
  refine ⟨fun blocks => ⟨parse_sources, parse_render_of_free plain⟩, fun text blocks read => ?_⟩
  have free := parse_sources read
  exact ⟨free, parse_render_of_free plain free⟩

/-- A start marker is content inside a cell, and an empty source is read back as it is. -/
theorem parse_render_start_marker :
    parse "nb" (render "nb" [⟨.code, "# <<nb:raw>>\n"⟩, ⟨.raw, ""⟩]) =
      .ok [⟨.code, "# <<nb:raw>>\n"⟩, ⟨.raw, ""⟩] :=
  ((parse_render_normal "nb" (by decide)).1 _).mpr (by decide)

end Markup

end Notebook

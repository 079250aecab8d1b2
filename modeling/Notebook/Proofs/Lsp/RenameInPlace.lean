import Notebook.Proofs.CellList.InPlace
import Notebook.Proofs.Lsp.Registration
import Notebook.Proofs.Session.Edits
import Notebook.Proofs.Session.Undo
/-!
# Renames and the places of cells

The edits of a rename are made in the contents of code cells. But the cells are then read from the whole
facade, and recognized by what they show. So a cell keeps its place, and all it holds but its source,
exactly if no new source closes its cell early and none is mistaken for that of another cell.
-/
namespace Notebook

open Text

namespace Session

/-- What the cells show after edits of the facade, provided that every edit finds the lines of its
cell. -/
def rewritten? (session : Session) (edits : List Edit) : Option (List Block) :=
  Edit.rewriteCells? (Edit.bottomUp edits) 0 session.cells.cells

/-- All cells are as before, but for sources of code cells in which edits start. -/
structure EditedInPlace (edits : List Edit) (before after : Session) : Prop where
  length : after.cells.length = before.cells.length
  kept : ∀ index cell, before.cells.get? index = some cell → ∃ source,
    after.cells.get? index = some { cell with source } ∧
      (source ≠ cell.source → cell.kind.isCode = true ∧ ∃ span, before.spanOf? index = some span ∧
        ∃ edit ∈ edits, span.containsContent edit.start.line = true)

variable {session before after : Session} {edits : List Edit} {blocks : List Block}

theorem EditedInPlace.refl (edits : List Edit) (session : Session) :
    EditedInPlace edits session session :=
  ⟨rfl, fun _ cell here => ⟨cell.source, here, fun changed => absurd rfl changed⟩⟩

theorem EditedInPlace.ids (kept : EditedInPlace edits before after) :
    CellList.ids after.cells.cells = CellList.ids before.cells.cells := by
  have length : after.cells.cells.length = before.cells.cells.length := kept.length
  refine List.ext_getElem? fun index => ?_
  simp only [CellList.ids, List.getElem?_map]
  cases here : before.cells.cells[index]? with
  | none =>
    have past := List.getElem?_eq_none_iff.mp here
    rw [List.getElem?_eq_none (by omega)]
  | some cell =>
    obtain ⟨source, there, -⟩ := kept.kept index cell here
    rw [CellList.get?] at there
    rw [there]
    rfl

/-! ## Where edits are made -/

theorem cell_eq_of_content {above above' below below' : List Cell} {cell cell' : Cell} {line : Nat}
    (cells : above ++ cell :: below = above' ++ cell' :: below')
    (here : Layout.depth above < line ∧ line < Layout.depth above + cell.height - 1)
    (there : Layout.depth above' < line ∧ line < Layout.depth above' + cell'.height - 1) :
    cell = cell' := by
  rcases List.append_eq_append_iff.mp cells with ⟨between, rfl, rest⟩ | ⟨between, rfl, rest⟩
  · cases between with
    | nil => exact (List.cons.inj rest).1
    | cons first between =>
      obtain ⟨rfl, -⟩ := List.cons.inj rest
      rw [Layout.depth_append, Layout.depth_cons] at there
      omega
  · cases between with
    | nil => exact (List.cons.inj rest).1.symm
    | cons first between =>
      obtain ⟨rfl, -⟩ := List.cons.inj rest
      rw [Layout.depth_append, Layout.depth_cons] at here
      omega

/-- An edit inside code starts and stops in the content of one cell, and that is a code cell. -/
theorem Sound.exists_inside (sound : session.Sound) {edit : Edit}
    (inside : Lsp.isInsideCode session edit = true) : ∃ above cell below,
      session.cells.cells = above ++ cell :: below ∧ cell.kind.isCode = true ∧
      (Layout.depth above < edit.start.line ∧
        edit.start.line < Layout.depth above + cell.height - 1) ∧
      (Layout.depth above < edit.stop.line ∧
        edit.stop.line < Layout.depth above + cell.height - 1) := by
  obtain ⟨⟨cell, span⟩, found, stop⟩ := (Option.any_eq_true _ _).mp inside
  obtain ⟨index, here, stands, code, start⟩ := Lsp.Relay.codeCellAt?_spec found
  obtain ⟨above, below, cells, rfl⟩ := exists_around here
  rw [sound.inStep.spanOf? sound.plain cells] at stands
  obtain rfl := Option.some.inj stands
  simp only [Span.containsContent, Bool.and_eq_true, decide_eq_true_eq] at start stop
  exact ⟨above, cell, below, cells, code, start, stop⟩

theorem Sound.staysIn (sound : session.Sound) {edit : Edit}
    (inside : Lsp.isInsideCode session edit = true) : edit.StaysIn 0 session.cells.cells := by
  obtain ⟨above, cell, below, cells, -, start, stop⟩ := sound.exists_inside inside
  refine ⟨(cell, Layout.depth above), Layout.mem_zip_startLines.mpr ⟨above, below, cells, rfl⟩, ?_⟩
  simpa [Span.containsContent] using ⟨start, stop⟩

/-- Edits inside code that do not overlap find the lines of their cells. -/
theorem Sound.exists_rewritten? (sound : session.Sound)
    (inside : ∀ edit ∈ edits, Lsp.isInsideCode session edit = true)
    (clear : (Edit.bottomUp edits).Pairwise Edit.Clear) :
    ∃ blocks, session.rewritten? edits = some blocks :=
  Edit.exists_rewriteCells? clear fun edit member _ =>
    sound.staysIn (inside edit ((Edit.bottomUp_perm edits).subset member))

/-- A source that edits inside code change is that of a code cell in which one of them starts. -/
theorem Sound.touched (sound : session.Sound) (inside : ∀ edit ∈ edits, Lsp.isInsideCode session edit = true)
    (rewritten : session.rewritten? edits = some blocks) {index : Nat} {cell : Cell}
    (here : session.cells.get? index = some cell) : ∃ source,
      blocks[index]? = some ⟨cell.kind, source⟩ ∧
        (source ≠ cell.source → cell.kind.isCode = true ∧ ∃ span,
          session.spanOf? index = some span ∧
          ∃ edit ∈ edits, span.containsContent edit.start.line = true) := by
  obtain ⟨above, below, cells, rfl⟩ := exists_around here
  rw [rewritten?, cells] at rewritten
  obtain ⟨source, there, own⟩ := Edit.getElem?_rewriteCells? rewritten
  rw [Nat.zero_add] at own
  refine ⟨source, there, fun changed => ?_⟩
  -- Without edits of its own the cell would show its own source.
  have some : Edit.within ⟨Layout.depth above, Layout.depth above + cell.height - 1⟩
      (Edit.bottomUp edits) ≠ [] := by
    intro none
    rw [none] at own
    exact changed (Option.some.inj own).symm
  obtain ⟨shifted, member⟩ := List.exists_mem_of_ne_nil _ some
  obtain ⟨edit, listed, start, -⟩ := Edit.mem_within.mp member
  have listed : edit ∈ edits := (Edit.bottomUp_perm edits).subset listed
  refine ⟨?_, _, sound.inStep.spanOf? sound.plain cells, edit, listed, start⟩
  obtain ⟨above', cell', below', cells', code, start', -⟩ := sound.exists_inside (inside edit listed)
  simp only [Span.containsContent, Bool.and_eq_true, decide_eq_true_eq] at start
  obtain rfl := cell_eq_of_content (cells.symm.trans cells') start start'
  exact code

/-! ## What becomes of the cells -/

/-- Cells that were read from an edited facade are in place exactly if they are the edited ones, which
can be rendered, and none of them is mistaken. -/
theorem Sound.editedInPlace_iff (sound : session.Sound)
    (inside : ∀ edit ∈ edits, Lsp.isInsideCode session edit = true)
    (rewritten : session.rewritten? edits = some blocks) {others : List Block}
    (read : Markup.parseLines session.settings.tag
      (Edit.applyAll edits .alone (Buffer.ofText session.facade.text)).lines = .ok others)
    (cells : after.cells = if others = session.cells.blocks then session.cells
      else session.cells.reconcile others) :
    EditedInPlace edits session after ↔
      (∀ block ∈ blocks, Markup.checkSource session.settings.tag block.source = .ok ()) ∧
        session.cells.Unmistaken blocks := by
  have kinds : blocks.map Block.kind = session.cells.cells.map Cell.kind :=
    Edit.kinds_rewriteCells? rewritten
  have length : blocks.length = session.cells.cells.length := by
    simpa using congrArg List.length kinds
  have sources := Markup.parseLines_sources (fun _ => isLine_of_mem_lines) read
  have shows : (Buffer.ofText session.facade.text).lines =
      Markup.renderLines session.settings.tag (session.cells.cells.map Cell.block) :=
    sound.inStep.facade
  rw [Edit.lines_applyAll_cells sound.plain (fun edit member => sound.staysIn (inside edit member))
    rewritten .alone shows] at read
  -- As many cells are read as were rendered only if the same ones are.
  have onlyIf := (Markup.length_le_of_parseLines read).2
  simp only [Markup.checkSource_iff]
  constructor
  · intro kept
    have count : after.cells.cells.length = session.cells.cells.length := kept.length
    -- Only the number of cells is known from the places, and that is enough.
    by_cases same : others = session.cells.blocks
    · obtain rfl : others = blocks := onlyIf (by rw [same, length, CellList.blocks, List.length_map])
      exact ⟨sources, same ▸ session.cells.unmistaken_blocks⟩
    · rw [if_neg same] at cells
      have shows : (session.cells.reconcile others).cells.length = others.length := by
        rw [← List.length_map Cell.block]
        exact congrArg List.length (CellList.blocks_reconcile _ _)
      obtain rfl : others = blocks := onlyIf (by rw [length, ← count, cells, shows])
      exact ⟨sources, CellList.unmistaken_of_ids sound.coherent kinds (cells ▸ kept.ids)⟩
  · rintro ⟨free, unmistaken⟩
    obtain rfl : blocks = others :=
      Except.ok.inj ((Markup.parseLines_renderLines free).symm.trans read)
    have inPlace : after.cells.cells = session.cells.inPlace blocks := by
      split at cells
      next same =>
        rw [cells, same, CellList.inPlace, CellList.blocks, CellList.zip_blocks,
          CellList.map_rewritten_own]
      next => rw [cells, unmistaken.cells_reconcile]
    refine ⟨?_, fun index cell here => ?_⟩
    · rw [CellList.length, inPlace, CellList.inPlace, List.length_map, List.length_zip, length,
        Nat.min_self, CellList.length]
    · obtain ⟨source, there, touched⟩ := sound.touched inside rewritten here
      rw [CellList.get?] at here
      have pair : (session.cells.cells.zip blocks)[index]? = some (cell, ⟨cell.kind, source⟩) :=
        List.getElem?_zip_eq_some.mpr ⟨here, there⟩
      refine ⟨source, ?_, touched⟩
      rw [CellList.get?, inPlace, CellList.inPlace, List.getElem?_map, pair]
      rfl

/-- Making the views anew leaves cells alone that were read from the facade. -/
theorem Sound.cells_rerender_reconcile (sound : session.Sound) (facade : Buffer) (read : List Block) :
    ({ session with facade, cells := session.cells.reconcile read }.rerender .amend).cells =
      session.cells.reconcile read := by
  let next : Session := { session with facade, cells := session.cells.reconcile read }
  have plain : IsLine next.settings.tag := sound.plain
  have distinct : (CellList.ids next.cells.cells).Nodup :=
    (sound.coherent.reconcile read).distinct_cells
  exact (rerender_spec plain distinct .amend).2.1

/-! ## Tags that hold a line feed -/

/-- An edit below the first line leaves the first character alone. -/
theorem head?_rewrite {edit : Edit} {text : Text} {c : Char} (head : text.head? = some c)
    (start : 0 < edit.start.line) (stop : 0 < edit.stop.line) :
    (edit.rewrite text).head? = some c := by
  obtain ⟨rest, rfl⟩ : ∃ rest, text = c :: rest := List.head?_eq_some_iff.mp head
  have positive {position : Position} (below : 0 < position.line) :
      0 < offsetAt (c :: rest) position := by
    obtain ⟨line, eq⟩ := Nat.exists_eq_succ_of_ne_zero (Nat.ne_of_gt below)
    rw [offsetAt, eq, lineStart]
    omega
  have first := positive start
  have last := positive stop
  rw [Edit.rewrite]
  obtain ⟨k, eq⟩ : ∃ k, min (offsetAt (c :: rest) edit.start) (offsetAt (c :: rest) edit.stop) =
      k + 1 := ⟨_, (Nat.sub_add_cancel (by omega)).symm⟩
  simp [eq]

theorem head?_applyAll {text : Text} {c : Char} (head : text.head? = some c)
    (below : ∀ edit ∈ edits, 0 < edit.start.line ∧ 0 < edit.stop.line) :
    (Edit.applyAll edits .alone (Buffer.ofText text)).text.head? = some c := by
  have below (edit : Edit) (member : edit ∈ Edit.bottomUp edits) :=
    below edit ((Edit.bottomUp_perm edits).subset member)
  rw [Edit.text_applyAll]
  change (List.foldl _ text _).head? = _
  generalize Edit.bottomUp edits = row at below
  induction row generalizing text with
  | nil => exact head
  | cons edit rest ih =>
    obtain ⟨here, below⟩ := List.forall_mem_cons.mp below
    exact ih (head?_rewrite head here.1 here.2) below

/-- Under a tag with a line feed no line is a marker, so what starts like one is not read. -/
theorem parseLines_ne_ok {tag text : Text} (broken : '\n' ∈ tag) (head : text.head? = some '#') :
    Markup.parseLines tag (Text.lines text) ≠ .ok blocks := by
  obtain ⟨rest, rfl⟩ : ∃ rest, text = '#' :: rest := List.head?_eq_some_iff.mp head
  -- The first line holds no line feed, so it is neither marker, and it is not blank either.
  obtain ⟨line, more, -, lines⟩ := lines_cons (show '#' ≠ '\n' by decide) rest
  have first : '#' :: line ∈ Text.lines ('#' :: rest) := by
    rw [lines]
    exact List.mem_cons_self
  have isLine := isLine_of_mem_lines first
  have unmarked : markedKind? tag ('#' :: line) = none := by
    rw [Option.eq_none_iff_forall_ne_some]
    intro name marked
    rw [(markedKind?_eq_some_iff.mp marked).1] at isLine
    exact isLine (by simp [broken])
  have other : '#' :: line ≠ endMarker tag := by
    intro same
    rw [same] at isLine
    exact isLine (by simp [endMarker_eq, broken])
  have solid : isBlank ('#' :: line) = false := by
    rw [isBlank, List.all_cons, show isWhiteSpace '#' = false by decide, Bool.false_and]
  rw [Markup.parseLines, lines, Markup.readLines, unmarked]
  simp [other, solid]

end Session

namespace Lsp

open Session

variable {settings : Settings} {session after : Session} {blocks : List Block}

/-- Edits of the facade while the editor holds no changes: they are refused, or they leave the cells as
they are, or the cells are read from the edited facade. -/
theorem editFacade_of_clean (clean : session.editorIsDirty = false) {edits : List Edit}
    (some : edits ≠ []) :
    (∃ fault, session.editFacade edits .alone = (.error fault, session)) ∨ ∃ read,
      Markup.parseLines session.settings.tag
        (Edit.applyAll edits .alone (Buffer.ofText session.facade.text)).lines = .ok read ∧
      (read = session.cells.blocks ∧ session.editFacade edits .alone = (.ok (), session) ∨
        read ≠ session.cells.blocks ∧ ∃ facade, session.editFacade edits .alone = (.ok (),
          { session with facade, cells := session.cells.reconcile read }.rerender .amend)) := by
  rw [editFacade, flushed_of_clean clean, if_neg some]
  dsimp only
  split
  next => exact .inl ⟨_, rfl⟩
  next read parsed =>
    right
    split
    next unchanged => exact ⟨read, parsed, .inl ⟨unchanged, rfl⟩⟩
    next changed => exact ⟨read, parsed, .inr ⟨changed, _, rfl⟩⟩

/-- What a rename does that succeeds while the editor holds no changes. -/
theorem applyRename_eq_ok (clean : session.editorIsDirty = false) {uri : Text} {result : Json}
    {count : Nat} (renamed : applyRename session uri result = (.ok count, after)) :
    let edits := TextEdit.toEdits session.facade (WorkspaceEdit.editsFor result uri)
    edits = [] ∧ session = after ∨
    edits ≠ [] ∧ (∀ edit ∈ edits, isInsideCode session edit = true) ∧ ∃ read,
      Markup.parseLines session.settings.tag
        (Edit.applyAll edits .alone (Buffer.ofText session.facade.text)).lines = .ok read ∧
      (read = session.cells.blocks ∧ session = after ∨ read ≠ session.cells.blocks ∧ ∃ facade,
        after = { session with facade, cells := session.cells.reconcile read }.rerender .amend) := by
  intro edits
  rcases applyRename_cases session uri result with
    ⟨none, same⟩ | ⟨_, same⟩ | ⟨some, inside, ⟨_, _, -, same⟩ | ⟨made, done, same⟩⟩
  · cases same.symm.trans renamed
    exact .inl ⟨none, rfl⟩
  · cases same.symm.trans renamed
  · cases same.symm.trans renamed
  · cases same.symm.trans renamed
    refine .inr ⟨some, inside, ?_⟩
    rcases editFacade_of_clean clean some with
      ⟨fault, refused⟩ | ⟨read, parsed, ⟨unchanged, still⟩ | ⟨changed, facade, anew⟩⟩
    · cases refused.symm.trans done
    · cases still.symm.trans done
      exact ⟨read, parsed, .inl ⟨unchanged, rfl⟩⟩
    · cases anew.symm.trans done
      exact ⟨read, parsed, .inr ⟨changed, facade, rfl⟩⟩

/-- A facade with changes inside code that can be read was rendered under a tag without line feed. -/
theorem plain_of_parseLines (reachable : Reachable settings session) {edits : List Edit}
    (some : edits ≠ []) (inside : ∀ edit ∈ edits, isInsideCode session edit = true)
    (parsed : Markup.parseLines session.settings.tag
      (Edit.applyAll edits .alone (Buffer.ofText session.facade.text)).lines = .ok blocks) :
    '\n' ∉ session.settings.tag := by
  have spans (edit : Edit) (member : edit ∈ edits) :
      session.cells.cells ≠ [] ∧ 0 < edit.start.line ∧ 0 < edit.stop.line := by
    obtain ⟨⟨cell, span⟩, found, stop⟩ := (Option.any_eq_true _ _).mp (inside edit member)
    obtain ⟨index, here, -, -, start⟩ := Relay.codeCellAt?_spec found
    simp only [Span.containsContent, Bool.and_eq_true, decide_eq_true_eq] at start stop
    refine ⟨?_, by omega, by omega⟩
    intro none
    rw [CellList.get?, none] at here
    cases here
  intro broken
  obtain ⟨edit, member⟩ := List.exists_mem_of_ne_nil _ some
  have head := head?_applyAll (reachable.headed.2 (spans edit member).1) fun edit member =>
    (spans edit member).2
  exact parseLines_ne_ok broken head parsed

/-- A rename that succeeds while the editor holds no changes, and whose edits find the lines of their
cells one after the other, keeps every cell in its place with all it holds but its source, and changes
only sources of code cells in which edits start, exactly if no new source has a line that is the end
marker, and every new source is mistaken neither for another cell nor for a removed one. -/
theorem rename_in_place_iff (reachable : Reachable settings session)
    (clean : session.editorIsDirty = false) {uri : Text} {result : Json} {count : Nat}
    (renamed : applyRename session uri result = (.ok count, after))
    (rewritten : session.rewritten?
      (TextEdit.toEdits session.facade (WorkspaceEdit.editsFor result uri)) = some blocks) :
    EditedInPlace (TextEdit.toEdits session.facade (WorkspaceEdit.editsFor result uri)) session after ↔
      (∀ block ∈ blocks, Markup.checkSource settings.tag block.source = .ok ()) ∧
        session.cells.Unmistaken blocks := by
  obtain ⟨rfl, -⟩ := reachable.headed
  rcases applyRename_eq_ok clean renamed with ⟨none, rfl⟩ | ⟨some, inside, read, parsed, done⟩
  · -- Without edits nothing changes, and what the cells show can be rendered.
    rw [none, rewritten?] at rewritten
    obtain rfl := Option.some.inj ((Edit.rewriteCells?_nil 0 session.cells.cells).symm.trans rewritten)
    refine ⟨fun _ => ⟨?_, session.cells.unmistaken_blocks⟩, fun _ => .refl _ _⟩
    by_cases plain : IsLine session.settings.tag
    · exact (reachable.sound plain).1.free
    · intro block _
      rw [Markup.checkSource_iff]
      intro member
      refine isLine_of_mem_lines member ?_
      have broken : '\n' ∈ session.settings.tag := not_not.mp plain
      simp [endMarker_eq, broken]
  · generalize TextEdit.toEdits session.facade (WorkspaceEdit.editsFor result uri) = edits at *
    have sound := (reachable.sound (plain_of_parseLines reachable some inside parsed)).1
    refine sound.editedInPlace_iff inside rewritten parsed ?_
    rcases done with ⟨same, rfl⟩ | ⟨differs, facade, rfl⟩
    · rw [if_pos same]
    · rw [if_neg differs]
      exact sound.cells_rerender_reconcile facade read

/-- The answer of a server that replaces parts of one document. -/
def proposal (uri : Text) (replacements : List TextEdit) : Json :=
  Json.object [("changes", Json.object [(uri, .arr (replacements.map fun replacement =>
    Json.object [("range", replacement.range.encode), ("newText", .str replacement.text)]))])]

/-- So it is with a rename in two cells that show the same. -/
theorem rename_in_place_of_equals : ∃ before after : Session,
    Session.ofCells [{ id := "a", kind := .code, source := "x", executionCount := some 1 },
      { id := "b", kind := .code, source := "x" }] {} = .ok before ∧
    applyRename before "u" (proposal "u" [⟨⟨⟨1, 0⟩, ⟨1, 1⟩⟩, "y"⟩, ⟨⟨⟨5, 0⟩, ⟨5, 1⟩⟩, "y"⟩]) =
      (.ok 2, after) ∧
    EditedInPlace [⟨⟨5, 0⟩, ⟨5, 1⟩, "y"⟩, ⟨⟨1, 0⟩, ⟨1, 1⟩, "y"⟩] before after := by
  have reachable : Reachable {} _ := .cells (rfl : Session.ofCells
    [{ id := "a", kind := .code, source := "x", executionCount := some 1 },
      { id := "b", kind := .code, source := "x" }] {} = .ok _)
  have inPlace := rename_in_place_iff reachable (by decide +kernel)
    (show applyRename _ "u" (proposal "u" [⟨⟨⟨1, 0⟩, ⟨1, 1⟩⟩, "y"⟩, ⟨⟨⟨5, 0⟩, ⟨5, 1⟩⟩, "y"⟩]) =
      (.ok 2, _) from Prod.ext (by decide +kernel) rfl)
    (show _ = some [⟨.code, "y"⟩, ⟨.code, "y"⟩] by decide +kernel)
  refine ⟨_, _, rfl, Prod.ext (by decide +kernel) rfl, ?_⟩
  exact inPlace.mpr ⟨by decide +kernel, by decide +kernel, by decide +kernel, by decide +kernel⟩

/-- A rename succeeds, but the cells afterwards are not those before with other sources. -/
def Displaces (before : Session) (replacements : List TextEdit) (cells : List Cell) : Prop :=
  ∃ count after, applyRename before "u" (proposal "u" replacements) = (.ok count, after) ∧
    after.cells.cells = cells ∧ ¬EditedInPlace (TextEdit.toEdits before.facade
      (WorkspaceEdit.editsFor (proposal "u" replacements) "u")) before after

/-- But a new source is taken for another cell that shows the same, or for a removed one. A new source
that holds an end marker becomes two cells. An edit whose last line was edited away takes the end marker
with it. And changes that the editor holds are brought in by the way, whatever cell they are made in. -/
theorem rename_displaces :
    (∃ before, Session.ofCells [{ id := "a", kind := .code, source := "print(x)" },
        { id := "b", kind := .code, source := "print(y)", executionCount := some 2 }] {} = .ok before ∧
      Displaces before [⟨⟨⟨1, 6⟩, ⟨1, 7⟩⟩, "y"⟩]
        [{ id := "b", kind := .code, source := "print(y)", executionCount := some 2 },
          { id := "00000000", kind := .code, source := "print(y)" }]) ∧
    (∃ opened before, Session.ofCells [{ id := "a", kind := .code, source := "x" },
        { id := "b", kind := .code, source := "y", executionCount := some 2 }] {} = .ok opened ∧
      before = (Operation.perform opened (.deleteCell 0)).2 ∧
      Displaces before [⟨⟨⟨1, 0⟩, ⟨1, 1⟩⟩, "x"⟩] [{ id := "a", kind := .code, source := "x" }]) ∧
    (∃ before, Session.ofCells [{ id := "a", kind := .code, source := "x" }] {} = .ok before ∧
      Displaces before [⟨⟨⟨1, 0⟩, ⟨1, 1⟩⟩, "y\n# <</ipynb>>\n\n# <<ipynb:code>>\nz"⟩]
        [{ id := "a", kind := .code, source := "y" },
          { id := "00000000", kind := .code, source := "z" }]) ∧
    (∃ before, Session.ofCells [{ id := "a", kind := .code, source := "x\ny\nz" },
        { id := "b", kind := .raw, source := "w" }] {} = .ok before ∧
      Displaces before [⟨⟨⟨2, 0⟩, ⟨3, 1⟩⟩, ""⟩, ⟨⟨⟨1, 0⟩, ⟨3, 1⟩⟩, "v"⟩]
        [{ id := "a", kind := .code, source := "v <</ipynb>>\n\n# <<ipynb:raw>>\nw" }]) ∧
    ∃ opened before, Session.ofCells [{ id := "a", kind := .code, source := "x" },
        { id := "b", kind := .raw, source := "y" }] {} = .ok opened ∧
      before = (Operation.perform (Operation.perform opened (.openEditor 1)).2
        (.editBuffer fun buffer => (buffer.setText "w" .burst).2)).2 ∧
      Displaces before [⟨⟨⟨1, 0⟩, ⟨1, 1⟩⟩, "z"⟩]
        [{ id := "a", kind := .code, source := "z" }, { id := "b", kind := .raw, source := "w" }] := by
  refine ⟨⟨_, rfl, 1, _, Prod.ext (by decide +kernel) rfl, by decide +kernel, fun kept => ?_⟩,
    ⟨_, _, rfl, rfl, 1, _, Prod.ext (by decide +kernel) rfl, by decide +kernel, fun kept => ?_⟩,
    ⟨_, rfl, 1, _, Prod.ext (by decide +kernel) rfl, by decide +kernel, fun kept => ?_⟩,
    ⟨_, rfl, 2, _, Prod.ext (by decide +kernel) rfl, by decide +kernel, fun kept => ?_⟩,
    ⟨_, _, rfl, rfl, 1, _, Prod.ext (by decide +kernel) rfl, by decide +kernel, fun kept => ?_⟩⟩
  · exact absurd kept.ids (by decide +kernel)
  · exact absurd kept.ids (by decide +kernel)
  · exact absurd kept.ids (by decide +kernel)
  · exact absurd kept.ids (by decide +kernel)
  · -- The raw cell has another source, and no edit was made in it.
    obtain ⟨source, there, code⟩ := kept.kept 1 { id := "b", kind := .raw, source := "y" }
      (by decide +kernel)
    have changed : source ≠ "y".toList := by
      rintro rfl
      exact absurd there (by decide +kernel)
    exact absurd (code changed).1 (by decide)

end Lsp

end Notebook

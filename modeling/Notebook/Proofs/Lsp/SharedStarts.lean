import Notebook.Proofs.Lsp.EditsAtOnce
import Notebook.Proofs.Lsp.FormatWithin
import Notebook.Proofs.Lsp.RenameInPlace
import Notebook.Proofs.Session.Spans
/-!
# Proposed edits that start at one place

A language server may propose several edits that start at one place: insertions, and behind them in the
list at most one edit that replaces. It means them to be made at once, so that the inserted texts come in
the order of the list. Formatting and renaming make them one after the other, each where the others start,
so each insertion comes in front of the ones before it, and an edit that replaces takes characters that
were inserted for characters of the document. What they make is one splice for each such pile of edits.
If all edits insert, it is what the edits in the opposite order would make at once; and it is what the
server means if no two edits start at the same place.
-/
namespace Notebook

open Text Layout Session

namespace Edit

variable {text : Text} {edits row : List Edit} {edit : Edit} {place : Position}

/-- Edits that are in order already stay as they are. -/
theorem Upward.bottomUp_eq (upward : Upward row) : bottomUp row = row := by
  induction row with
  | nil => rfl
  | cons edit rest ih =>
    obtain ⟨above, upward⟩ := List.pairwise_cons.mp upward
    rw [bottomUp_cons, ih upward]
    cases rest with
    | nil => rfl
    | cons other rest =>
      rw [Edit.insertBottomUp, if_neg]
      rw [above other List.mem_cons_self]
      exact Bool.false_ne_true

/-- A pile of insertions puts the later text in front, and removes nothing. -/
theorem pile_of_insertions (has : text.HasPlace place) (here : ∀ edit ∈ row, edit.start = place)
    (inserts : ∀ edit ∈ row, edit.stop = edit.start) :
    pile text place row = ⟨offsetAt text place, [], row.reverse.flatMap (·.text)⟩ := by
  obtain ⟨front, back, rfl, rfl⟩ := has.exists_front
  rcases List.eq_nil_or_concat row with rfl | ⟨earlier, last, rfl⟩
  · rfl
  · have stop : last.stop = finish front := by
      rw [inserts last (by simp), here last (by simp)]
    simp only [pile, List.concat_eq_append, List.getLast?_concat, List.dropLast_concat, stop,
      offsetAt_finish, List.drop_left, List.take_left, Nat.sub_self, Nat.zero_sub, List.take_zero,
      List.drop_zero, List.reverse_append, List.reverse_singleton, List.singleton_append,
      List.flatMap_cons]

/-- Edits that all insert make of a text what they make of it at once in the opposite order. -/
theorem atOnce_piles_of_insertions (separate : Separate text edits)
    (inserts : ∀ edit ∈ edits, edit.stop = edit.start) :
    Splice.atOnce (piles text edits) text =
      Splice.atOnce (edits.reverse.map (spliceIn text)) text := by
  have known : ∀ edit ∈ edits, pile text edit.start (edits.filter (·.start = edit.start)) =
      ⟨offsetAt text edit.start, [], (edits.filter (·.start = edit.start)).reverse.flatMap (·.text)⟩ :=
    fun edit listed => pile_of_insertions (separate.has edit listed).1
      (fun other member => of_decide_eq_true (List.mem_filter.mp member).2)
      fun other member => inserts other (List.mem_filter.mp member).1
  have listed {splice : Splice} (member : splice ∈ piles text edits) : ∃ edit ∈ edits,
      splice = pile text edit.start (edits.filter (·.start = edit.start)) := by
    obtain ⟨place, inside, rfl⟩ := List.mem_map.mp member
    obtain ⟨edit, listed, rfl⟩ := List.mem_map.mp (List.mem_dedup.mp inside)
    exact ⟨edit, listed, rfl⟩
  refine Splice.atOnceFrom_congr (fun k => ?_) (fun k => ?_) 0 text
  · by_cases some : ∃ edit ∈ edits, offsetAt text edit.start = k
    · obtain ⟨edit, member, rfl⟩ := some
      let own := pile text edit.start (edits.filter (·.start = edit.start))
      have there : own ∈ piles text edits :=
        List.mem_map_of_mem (List.mem_dedup.mpr (List.mem_map_of_mem member))
      have start : own.start = offsetAt text edit.start := start_pile ..
      -- The edits with the same offset are those that start at the same place.
      have same : edits.reverse.filter (fun other => (other.spliceIn text).start = own.start) =
          (edits.filter (·.start = edit.start)).reverse := by
        rw [List.filter_reverse]
        refine congrArg List.reverse (List.filter_congr fun other inside => ?_)
        rw [start, decide_eq_decide]
        exact ⟨(separate.has other inside).1.offsetAt_inj (separate.has edit member).1,
          congrArg (offsetAt text)⟩
      rw [← start, Splice.insertedAt, filter_key_eq separate.nodup_start_piles there, Splice.insertedAt,
        List.filter_map, Function.comp_def, same, List.flatMap_map, List.flatMap_singleton]
      exact congrArg Splice.inserted (known edit member)
    · rw [Splice.insertedAt_eq_nil, Splice.insertedAt_eq_nil]
      · intro splice member same
        obtain ⟨edit, inside, rfl⟩ := List.mem_map.mp member
        exact some ⟨edit, List.mem_reverse.mp inside, same⟩
      · intro splice member same
        obtain ⟨edit, inside, rfl⟩ := listed member
        exact some ⟨edit, inside, (start_pile ..).symm.trans same⟩
  · -- None of the splices removes anything.
    rw [Splice.removesAt_eq_false, Splice.removesAt_eq_false]
    · intro splice member
      obtain ⟨edit, inside, rfl⟩ := List.mem_map.mp member
      rw [Splice.stop, spliceIn, inserts edit (List.mem_reverse.mp inside), Nat.sub_self, List.take_zero,
        List.length_nil]
      exact Nat.lt_or_ge k _
    · intro splice member
      obtain ⟨edit, inside, rfl⟩ := listed member
      rw [known edit inside, Splice.stop, List.length_nil]
      exact Nat.lt_or_ge k _

end Edit

namespace Session

variable {session : Session} {index : Nat} {cell : Cell} {span : Span}

/-- A content line of a code cell is looked up as one of that cell. -/
theorem Sound.codeCellAt?_eq (sound : session.Sound) (here : session.cells.get? index = some cell)
    (stands : session.spanOf? index = some span) (code : cell.kind.isCode = true) {line : Nat}
    (inside : span.containsContent line = true) :
    Lsp.codeCellAt? session line = some (cell, span) := by
  have found := sound.anchored.cellAt?_of_content stands inside
  simp [Lsp.codeCellAt?, found, here, stands, code, inside]

end Session

namespace Lsp

/-- Proposed replacements as edits of the source of the cell that stands at a span. -/
def sourceEdits (session : Session) (span : Span) (proposed : List TextEdit) : List Edit :=
  proposed.map fun edit => (edit.toEdit session.facade).shiftedUp span.contentStart

variable {session : Session} {above below : List Cell} {cell : Cell} {span : Span}
  {proposed : List TextEdit}

theorem mapM_eq_self {α : Type} {f : α → Option α} {row : List α} (same : ∀ a ∈ row, f a = some a) :
    row.mapM f = some row := by
  induction row with
  | nil => rfl
  | cons first rest ih =>
    obtain ⟨here, same⟩ := List.forall_mem_cons.mp same
    rw [List.mapM_cons, here, ih same]
    rfl

theorem length_toEdits (facade : Buffer) (proposed : List TextEdit) :
    (TextEdit.toEdits facade proposed).length = proposed.length :=
  (Edit.bottomUp_perm _).length_eq.trans (List.length_map _)

theorem toEdits_inside (inside : ∀ edit ∈ proposed, span.containsContent edit.range.start.line = true ∧
      span.containsContent edit.range.stop.line = true) (facade : Buffer) :
    ∀ edit ∈ TextEdit.toEdits facade proposed, span.containsContent edit.start.line = true ∧
      span.containsContent edit.stop.line = true := by
  intro edit member
  obtain ⟨proposal, listed, rfl⟩ := List.mem_map.mp ((Edit.bottomUp_perm _).subset member)
  exact inside proposal listed

/-- Replacements are put in order when they become edits. Counted from another line above them, they are
in the same order. -/
theorem bottomUp_toEdits {facade : Buffer} {first : Nat}
    (below : ∀ edit ∈ TextEdit.toEdits facade proposed, first ≤ edit.start.line) :
    (Edit.bottomUp (TextEdit.toEdits facade proposed)).map (·.shiftedUp first) =
      Edit.bottomUp (proposed.map fun edit => (edit.toEdit facade).shiftedUp first) := by
  have listed := fun edit member => below edit ((Edit.bottomUp_perm _).symm.subset member)
  have moved := Edit.bottomUp_shiftedUp listed
  rw [List.map_map, Function.comp_def] at moved
  rw [moved, TextEdit.toEdits, (Edit.upward_bottomUp _).bottomUp_eq]

/-- Formatting with replacements on the content lines of a cell. -/
theorem reformat_inside (inside : ∀ edit ∈ proposed,
      span.containsContent edit.range.start.line = true ∧
        span.containsContent edit.range.stop.line = true) {source made : Text}
    (edited : (Edit.applyAll ((TextEdit.toEdits session.facade proposed).map
      (·.shiftedUp span.contentStart)) .alone (Buffer.ofText source)).text = made)
    (checked : Markup.checkSource session.settings.tag made = .ok ()) :
    reformat session span source proposed = (.ok proposed.length, made) := by
  by_cases none : proposed = []
  · subst none
    obtain rfl : source = made := edited
    rfl
  · have within := toEdits_inside inside session.facade
    -- No edit stops on the line of the end marker, so none has to be clipped.
    have clipped : (TextEdit.toEdits session.facade proposed).mapM (clip? session span) =
        some (TextEdit.toEdits session.facade proposed) := by
      refine mapM_eq_self fun edit member => if_neg fun stop => ?_
      have stops := (within edit member).2
      rw [stop] at stops
      simp [Span.containsContent, Span.contentStop] at stops
    have content : Edit.firstOutside? span (TextEdit.toEdits session.facade proposed) = .none := by
      simpa [Edit.firstOutside?, List.find?_eq_none] using within
    rw [reformat, if_neg none, clipped]
    simp only [content, edited, checked, length_toEdits]
    rfl

/-- A rename with replacements on the content lines of a code cell. -/
theorem applyRename_inside (sound : session.Sound) (clean : session.editorIsDirty = false)
    (cells : session.cells.cells = above ++ cell :: below) (code : cell.kind.isCode = true)
    (inside : ∀ edit ∈ TextEdit.toEdits session.facade proposed,
      (depth above + 1 ≤ edit.start.line ∧ edit.start.line < depth above + 1 + lineCount cell.source) ∧
        depth above + 1 ≤ edit.stop.line ∧ edit.stop.line < depth above + 1 + lineCount cell.source)
    {made : Text} (rewritten : Edit.rewriteAll? ((Edit.bottomUp (TextEdit.toEdits session.facade
      proposed)).map (·.shiftedUp (depth above + 1))) cell.source = some made)
    (checked : Markup.checkSource session.settings.tag made = .ok ()) {uri : Text} {result : Json}
    (listed : WorkspaceEdit.editsFor result uri = proposed) :
    ∃ after, applyRename session uri result = (.ok proposed.length, after) ∧
      after.cells.blocks = (above ++ { cell with source := made } :: below).map Cell.block := by
  obtain ⟨after, edited, blocks⟩ := sound.editFacade_within clean cells
    (fun edit member => ⟨(inside edit member).1.1, (inside edit member).2.1⟩) rewritten checked .alone
  by_cases none : proposed = []
  · subst none
    refine ⟨session, ?_, ?_⟩
    · rw [applyRename, listed]
      rfl
    · obtain rfl : cell.source = made := Option.some.inj rewritten
      rw [CellList.blocks, cells]
  · have allowed : (TextEdit.toEdits session.facade proposed).all (isInsideCode session) = true := by
      rw [List.all_eq_true]
      intro edit member
      have content := inside edit member
      rw [← containsContent_iff, ← containsContent_iff] at content
      rw [isInsideCode, sound.codeCellAt?_eq (CellList.get?_eq cells)
        (sound.inStep.spanOf? sound.plain cells) code content.1]
      exact content.2
    refine ⟨after, ?_, blocks⟩
    simp only [applyRename, listed, none, allowed, edited, length_toEdits, if_false, if_true]

/-- Edits that a language server proposes for the content of one code cell, as formatting of that cell or
as a rename. They are separate; some may start at one place, where all but the last one listed insert.
Either way the source becomes what one splice for each pile makes of it at once, if that can be rendered.
It is what the server means if no two edits start at one place. If all of them insert, it is what the
server would mean by the opposite order. -/
theorem proposed_edits_pile_up {settings : Settings} (reachable : Reachable settings session)
    (plain : '\n' ∉ settings.tag) (clean : session.editorIsDirty = false) {index : Nat}
    (here : session.cells.get? index = some cell) (code : cell.kind.isCode = true)
    (stands : session.spanOf? index = some span)
    (inside : ∀ edit ∈ proposed, span.containsContent edit.range.start.line = true ∧
      span.containsContent edit.range.stop.line = true)
    (separate : Edit.Separate cell.source (sourceEdits session span proposed))
    (shared : (sourceEdits session span proposed).Pairwise fun a b =>
      a.start = b.start → a.stop = a.start) :
    let edits := sourceEdits session span proposed
    let made := Splice.atOnce (Edit.piles cell.source edits) cell.source
    (Markup.checkSource settings.tag made = .ok () →
      (∃ after, applyFormat session cell.id span proposed = (.ok proposed.length, after) ∧
        after.cells.cells = session.cells.cells.set index { cell with source := made }) ∧
      ∀ uri result, WorkspaceEdit.editsFor result uri = proposed → ∃ after,
        applyRename session uri result = (.ok proposed.length, after) ∧
        after.cells.blocks = session.cells.blocks.set index ⟨cell.kind, made⟩) ∧
    ((edits.map (·.start)).Nodup →
      made = Splice.atOnce (edits.map (Edit.spliceIn cell.source)) cell.source) ∧
    ((∀ edit ∈ edits, edit.stop = edit.start) →
      made = Splice.atOnce (edits.reverse.map (Edit.spliceIn cell.source)) cell.source) := by
  obtain ⟨sound, rfl⟩ := reachable.sound plain
  intro edits made
  refine ⟨fun checked => ?_, fun distinct => by rw [← Edit.piles_eq_map distinct],
    fun inserts => Edit.atOnce_piles_of_insertions separate inserts⟩
  obtain ⟨above, below, cells, rfl⟩ := exists_around here
  have known := stands
  rw [sound.inStep.spanOf? sound.plain cells] at known
  obtain rfl := Option.some.inj known
  have within := toEdits_inside inside session.facade
  simp only [containsContent_iff] at within
  have starts := fun edit member => (within edit member).1.1
  -- The edits do not overlap, so each finds its lines in the source, and in the facade.
  obtain ⟨new, rewritten⟩ := Edit.exists_rewriteAll?_bottomUp
    (fun edit member => ⟨(separate.has edit member).1.1, (separate.has edit member).2.1⟩)
    separate.forward (separate.apart.imp Edit.Apart.not_overlaps)
  obtain rfl : new = made :=
    (Edit.foldl_of_rewriteAll? rewritten).symm.trans (separate.foldl_rewrite_eq shared)
  have rewritten := (congrArg (Edit.rewriteAll? · cell.source) (bottomUp_toEdits starts)).trans rewritten
  constructor
  · obtain ⟨result, kept, -⟩ := applyFormat_of_clean sound clean cells proposed
    rw [reformat_inside inside (editedSource_eq starts rewritten) checked] at result kept
    refine ⟨_, Prod.ext result rfl, ?_⟩
    rw [kept, cells]
    simp
  · intro uri result listed
    obtain ⟨after, renamed, blocks⟩ :=
      applyRename_inside sound clean cells code within rewritten checked listed
    refine ⟨after, renamed, ?_⟩
    rw [blocks, CellList.blocks, cells]
    simp [Cell.block]

/-- So a replacement takes a character of the text that is inserted before it, where the server means a
character of the source. -/
theorem replacement_takes_inserted : ∃ session formatted renamed : Session,
    let proposed := [⟨⟨⟨1, 0⟩, ⟨1, 0⟩⟩, "import a\n"⟩, ⟨⟨⟨1, 0⟩, ⟨1, 1⟩⟩, "y"⟩]
    Session.ofCells [{ id := "a", kind := .code, source := "x = 1" }] {} = .ok session ∧
    Splice.atOnce ((sourceEdits session ⟨0, 2⟩ proposed).map (Edit.spliceIn "x = 1")) "x = 1" =
      "import a\ny = 1" ∧
    applyFormat session "a" ⟨0, 2⟩ proposed = (.ok 2, formatted) ∧
    formatted.cells.cells = [{ id := "a", kind := .code, source := "ymport a\nx = 1" }] ∧
    applyRename session "u" (proposal "u" proposed) = (.ok 2, renamed) ∧
    renamed.cells.blocks = [⟨.code, "ymport a\nx = 1"⟩] := by
  have opened : Reachable {} _ := .cells (rfl : Session.ofCells
    [{ id := "a", kind := .code, source := "x = 1" }] {} = .ok _)
  obtain ⟨applied, -⟩ := proposed_edits_pile_up opened (by decide) (by decide +kernel)
    (show CellList.get? _ 0 = some { id := "a", kind := .code, source := "x = 1" } by decide +kernel) rfl
    (show Session.spanOf? _ 0 = some ⟨0, 2⟩ by decide +kernel)
    (show ∀ edit ∈ [(⟨⟨⟨1, 0⟩, ⟨1, 0⟩⟩, "import a\n"⟩ : TextEdit), ⟨⟨⟨1, 0⟩, ⟨1, 1⟩⟩, "y"⟩], _ ∧ _ by
      decide +kernel)
    ⟨by decide +kernel, by decide +kernel, by decide +kernel⟩ (by decide +kernel)
  obtain ⟨⟨formatted, format, cells⟩, renames⟩ := applied (by decide +kernel)
  obtain ⟨renamed, rename, blocks⟩ := renames "u"
    (proposal "u" [⟨⟨⟨1, 0⟩, ⟨1, 0⟩⟩, "import a\n"⟩, ⟨⟨⟨1, 0⟩, ⟨1, 1⟩⟩, "y"⟩]) (by decide +kernel)
  refine ⟨_, formatted, renamed, rfl, by decide +kernel, format, ?_, rename, ?_⟩
  · rw [cells]
    decide +kernel
  · rw [blocks]
    decide +kernel

end Lsp

end Notebook

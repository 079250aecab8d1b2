import Notebook.Proofs.Lsp.Columns
import Notebook.Proofs.Lsp.Readdress
import Notebook.Proofs.Lsp.SharedStarts
/-!
# Renames with numbers of any size

Points are kept in 32 bits, but a server may write larger numbers. Of those only the lowest 32 bits are
seen, and a rename is made where they point: a line far past the end of the facade may be taken for one
inside a cell, and a character far past the end of its line for one within. A rename is made where the
server wrote it exactly if 32 bits hold every line, and every character too unless its line ends before what
they hold of it.
-/
namespace Notebook.Lsp

open Text Session

theorem word_of_lt {n : Nat} (fits : n < 0x100000000) : word n = n := Nat.mod_eq_of_lt fits

theorem word_lt (n : Nat) : word n < 0x100000000 := Nat.mod_lt n (by decide)

theorem word_le (n : Nat) : word n ≤ n := Nat.mod_le n _

/-! ## What is written and what is seen of it -/

namespace Point

/-- The point that a value writes. -/
def written? (value : Json) : Option Point := (position? value).map fun place => ⟨place.1, place.2⟩

/-- What is seen of a point. -/
def narrow (point : Point) : Point := ⟨word point.line, word point.character⟩

theorem decode?_eq (value : Json) : decode? value = (written? value).map narrow := by
  simp only [decode?, written?, position?, Option.bind_eq_bind, Option.map_bind, Function.comp_def,
    narrow, Option.map_some]

end Point

namespace Range

def written? (value : Json) : Option Range := do
  let start ← Point.written? (← value.get? "start")
  let stop ← Point.written? (← value.get? "end")
  some ⟨start, stop⟩

def narrow (range : Range) : Range := ⟨range.start.narrow, range.stop.narrow⟩

theorem decode?_eq (value : Json) : decode? value = (written? value).map narrow := by
  simp only [decode?, written?, Point.decode?_eq, Option.bind_eq_bind, Option.map_bind, Option.bind_map,
    Function.comp_def, narrow, Option.map_some]

end Range

namespace TextEdit

def written? (value : Json) : Option TextEdit := do
  let range ← Range.written? (← value.get? "range")
  some ⟨range, ((value.get? "newText").bind Json.asText?).getD []⟩

def narrow (edit : TextEdit) : TextEdit := ⟨edit.range.narrow, edit.text⟩

theorem decode?_eq (value : Json) : decode? value = (written? value).map narrow := by
  simp only [decode?, written?, Range.decode?_eq, Option.bind_eq_bind, Option.map_bind, Option.bind_map,
    Function.comp_def, narrow, Option.map_some]

end TextEdit

namespace WorkspaceEdit

/-- The values that are listed as replacements in one document. -/
def itemsFor (value : Json) (uri : Text) : List Json :=
  let byName := (value.get? "changes").bind fun changes => changes.get? uri
  let listed := (documentChanges value).flatMap fun change =>
    if changedUri? change = some uri then ((change.get? "edits").bind Json.asItems?).getD [] else []
  (byName.bind Json.asItems?).getD [] ++ listed

/-- All replacements in one document as the server wrote them. -/
def writtenFor (value : Json) (uri : Text) : List TextEdit :=
  (itemsFor value uri).filterMap TextEdit.written?

theorem editsFor_eq (value : Json) (uri : Text) :
    editsFor value uri = (itemsFor value uri).filterMap TextEdit.decode? := by
  rw [itemsFor, List.filterMap_append, List.filterMap_flatMap]
  refine congrArg₂ (· ++ ·) ?_ (List.flatMap_congr fun change _ => ?_)
  · cases (value.get? "changes").bind fun changes => changes.get? uri <;> rfl
  · split
    next => cases change.get? "edits" <;> rfl
    next => rfl

/-- Of the replacements that were written only the lowest bits of their numbers are seen. -/
theorem editsFor_eq_narrow (value : Json) (uri : Text) :
    editsFor value uri = (writtenFor value uri).map TextEdit.narrow := by
  rw [editsFor_eq, writtenFor, List.map_filterMap]
  exact List.filterMap_congr fun item _ => TextEdit.decode?_eq item

end WorkspaceEdit

/-! ## Where a replacement is made -/

/-- The line that a point names, or an empty one. -/
def Point.lineIn (facade : Buffer) (point : Point) : Text := (line? facade.text point.line).getD []

/-- 32 bits hold the line. They hold the character, or enough of it to find the end of the line. -/
def Point.FitsIn (facade : Buffer) (point : Point) : Prop :=
  point.line < 0x100000000 ∧ (point.character < 0x100000000 ∨
    charOffset (point.lineIn facade) (word point.character) = (point.lineIn facade).length)

instance (facade : Buffer) (point : Point) : Decidable (point.FitsIn facade) :=
  inferInstanceAs (Decidable (_ ∧ _))

/-- What is seen of a point names the place that the point names, if it fits. -/
theorem Point.FitsIn.place {facade : Buffer} {point : Point} (fits : point.FitsIn facade) :
    TextEdit.place facade point.narrow = TextEdit.place facade point := by
  have column : charOffset (point.lineIn facade) (word point.character) =
      charOffset (point.lineIn facade) point.character := by
    rcases fits.2 with held | finished
    · rw [word_of_lt held]
    · refine Nat.le_antisymm (monotone_charOffset _ (word_le _)) ?_
      rw [finished]
      exact charOffset_le_length _ _
  rw [TextEdit.place, TextEdit.place, narrow, word_of_lt fits.1]
  exact congrArg (Position.mk point.line) column

/-- In a facade whose lines can be addressed it names no other place unless the point fits. -/
theorem Point.fitsIn_iff {facade : Buffer} (addressable : facade.text.Addressable) {point : Point} :
    point.FitsIn facade ↔ TextEdit.place facade point.narrow = TextEdit.place facade point := by
  refine ⟨FitsIn.place, fun same => ?_⟩
  have line : word point.line = point.line := congrArg Position.line same
  have column : charOffset (point.lineIn facade) (word point.character) =
      charOffset (point.lineIn facade) point.character := by
    have column := congrArg Position.column same
    simp only [TextEdit.place, narrow, line] at column
    exact column
  refine ⟨line ▸ word_lt _, ?_⟩
  by_cases held : point.character < 0x100000000
  · exact .inl held
  · right
    rw [column]
    -- No line has as many code units, so the character is past the end.
    refine charOffset_of_not_reached ?_
    rintro ⟨k, reached⟩
    apply held
    have short : units (point.lineIn facade) < 0x100000000 := by
      rw [lineIn, line?]
      cases here : (lines facade.text)[point.line]? with
      | none => exact (by decide : units [] < 0x100000000)
      | some line => exact addressable.2 line (List.mem_of_getElem? here)
    exact Nat.lt_of_le_of_lt (Nat.le_trans reached (unitOffset_le _ k)) short

namespace TextEdit

variable {facade : Buffer} {edit : TextEdit} {edits : List TextEdit}

def FitsIn (facade : Buffer) (edit : TextEdit) : Prop :=
  edit.range.start.FitsIn facade ∧ edit.range.stop.FitsIn facade

instance (facade : Buffer) (edit : TextEdit) : Decidable (edit.FitsIn facade) :=
  inferInstanceAs (Decidable (_ ∧ _))

/-- What is seen of a replacement is made where the replacement was written exactly if both points fit. -/
theorem fitsIn_iff (addressable : facade.text.Addressable) :
    edit.FitsIn facade ↔ edit.narrow.toEdit facade = edit.toEdit facade := by
  simp only [FitsIn, Point.fitsIn_iff addressable, toEdit, narrow, Range.narrow, Edit.mk.injEq, and_true]

theorem FitsIn.toEdit (fits : edit.FitsIn facade) : edit.narrow.toEdit facade = edit.toEdit facade := by
  have start := fits.1.place
  have stop := fits.2.place
  rw [TextEdit.toEdit, TextEdit.toEdit, narrow, Range.narrow, start, stop]

theorem toEdit_narrow (fits : ∀ edit ∈ edits, edit.FitsIn facade) :
    (edits.map narrow).map (toEdit facade) = edits.map (toEdit facade) := by
  rw [List.map_map]
  exact List.map_congr_left fun edit member => (fits edit member).toEdit

/-- A replacement starts and stops on content lines of one code cell. -/
def InCode (session : Session) (edit : TextEdit) : Prop := ∃ index cell span,
  session.cells.get? index = some cell ∧ session.spanOf? index = some span ∧ cell.kind.isCode = true ∧
    span.containsContent edit.range.start.line = true ∧ span.containsContent edit.range.stop.line = true

theorem inCode_of_isInsideCode {session : Session}
    (inside : isInsideCode session (edit.toEdit session.facade) = true) : edit.InCode session := by
  obtain ⟨⟨cell, span⟩, found, stop⟩ := (Option.any_eq_true _ _).mp inside
  obtain ⟨index, here, stands, code, start⟩ := Relay.codeCellAt?_spec found
  exact ⟨index, cell, span, here, stands, code, start, stop⟩

theorem FitsIn.inCode {session : Session} (fits : edit.FitsIn session.facade)
    (inside : edit.narrow.InCode session) : edit.InCode session := by
  obtain ⟨index, cell, span, here, stands, code, start, stop⟩ := inside
  have first : edit.narrow.range.start.line = edit.range.start.line := word_of_lt fits.1.1
  have last : edit.narrow.range.stop.line = edit.range.stop.line := word_of_lt fits.2.1
  exact ⟨index, cell, span, here, stands, code, first ▸ start, last ▸ stop⟩

end TextEdit

/-! ## What a rename makes -/

/-- A text after edits that are made one after the other, from the bottom up. -/
def rewritten (edits : List Edit) (text : Text) : Text :=
  (Edit.bottomUp edits).foldl (fun text edit => edit.rewrite text) text

/-- A rename that makes replacements at their places in the facade. All of them lie in code. The changes of
the editor are brought in first, and the cells are read from the facade with the replacements made. -/
structure RenamedBy (session : Session) (edits : List TextEdit) (outcome : Except RelayFault Nat)
    (after : Session) : Prop where
  inside : ∀ edit ∈ edits, edit.InCode session
  made : (∃ fault, session.flush = (.error fault, after) ∧ outcome = .error (.notebook fault)) ∨
    ∃ middle, session.flush = (.ok (), middle) ∧
      match Markup.parse middle.settings.tag
        (rewritten (edits.map (TextEdit.toEdit session.facade)) middle.facade.text) with
      | .error fault => outcome = .error (.notebook (.markup fault)) ∧ after = middle
      | .ok blocks => outcome = .ok edits.length ∧ after.cells.blocks = blocks

/-- Replacements that are separate and start at different places are made of the facade at once, where a
server finds their points. -/
theorem rewritten_at_once {facade : Buffer} {edits : List TextEdit}
    (separate : Edit.Separate facade.text (edits.map (TextEdit.toEdit facade)))
    (distinct : (edits.map fun edit => TextEdit.place facade edit.range.start).Nodup) :
    rewritten (edits.map (TextEdit.toEdit facade)) facade.text =
      Splice.atOnce (edits.map (TextEdit.spliceIn facade.text)) facade.text := by
  have starts : ((edits.map (TextEdit.toEdit facade)).map (·.start)).Nodup := by
    rw [List.map_map]
    exact distinct
  have made := text_applyAll_separate separate starts .alone
  rw [Edit.text_applyAll, List.map_map] at made
  refine made.trans (congrArg (Splice.atOnce · facade.text) (List.map_congr_left fun edit _ => ?_))
  exact edit.spliceIn_toEdit facade

theorem lines_toEdits (facade : Buffer) (edits : List TextEdit) (text : Text) :
    (Edit.applyAll (TextEdit.toEdits facade edits) .alone (Buffer.ofText text)).lines =
      lines (rewritten (edits.map (TextEdit.toEdit facade)) text) := by
  rw [Buffer.lines, Edit.text_applyAll, TextEdit.toEdits, (Edit.upward_bottomUp _).bottomUp_eq]
  rfl

variable {session after : Session} {uri : Text} {result : Json} {outcome : Except RelayFault Nat}

/-- A rename that changes anything makes edits inside code, and it ends as the edits of the facade do. -/
theorem editFacade_of_changed (renamed : applyRename session uri result = (outcome, after))
    (changed : after ≠ session) :
    let edits := TextEdit.toEdits session.facade (WorkspaceEdit.editsFor result uri)
    edits ≠ [] ∧ (∀ edit ∈ edits, isInsideCode session edit = true) ∧
      ∃ answer, session.editFacade edits .alone = (answer, after) ∧
        outcome = (answer.map fun _ => edits.length).mapError .notebook := by
  intro edits
  rcases applyRename_cases session uri result with
    ⟨-, same⟩ | ⟨_, same⟩ | ⟨some, inside, ⟨fault, last, done, same⟩ | ⟨last, done, same⟩⟩
  · cases same.symm.trans renamed
    exact absurd rfl changed
  · cases same.symm.trans renamed
    exact absurd rfl changed
  · cases same.symm.trans renamed
    exact ⟨some, inside, _, done, rfl⟩
  · cases same.symm.trans renamed
    exact ⟨some, inside, _, done, rfl⟩

/-- So it makes the replacements that are seen. -/
theorem renamedBy_editsFor (renamed : applyRename session uri result = (outcome, after))
    (changed : after ≠ session) :
    RenamedBy session (WorkspaceEdit.editsFor result uri) outcome after := by
  obtain ⟨some, inside, answer, done, told⟩ := editFacade_of_changed renamed changed
  rw [length_toEdits] at told
  refine ⟨fun edit member => TextEdit.inCode_of_isInsideCode ?_, ?_⟩
  · exact inside _ ((Edit.bottomUp_perm _).symm.subset (List.mem_map_of_mem member))
  · cases flushed : session.flush with | mk flush middle
    cases flush with
    | error fault =>
      rw [Session.editFacade, flushed_eq, flushed] at done
      cases done
      exact .inl ⟨fault, rfl, told⟩
    | ok =>
      refine .inr ⟨middle, rfl, ?_⟩
      have read := editFacade_flush flushed some .alone
      rw [lines_toEdits, ← Markup.parse] at read
      cases parsed : Markup.parse middle.settings.tag (rewritten ((WorkspaceEdit.editsFor result uri).map
        (TextEdit.toEdit session.facade)) middle.facade.text) with
      | error fault =>
        rw [parsed] at read
        cases read.symm.trans done
        exact ⟨told, rfl⟩
      | ok blocks =>
        rw [parsed] at read
        obtain ⟨last, made, shows⟩ := read
        cases made.symm.trans done
        exact ⟨told, shows⟩

/-- A rename that changes anything was made where the lowest 32 bits of the numbers point: there each
replacement starts and stops on content lines of one code cell, and it takes the columns, cut to the lines,
that it names. So it is with the numbers themselves if all points fit, as they do if 32 bits hold the numbers.
In a facade whose lines can be addressed, a replacement that does not fit is made at another place than it
names. Replacements that are separate and start at different places are made at once where a server finds
their points. -/
theorem rename_made_where_seen (renamed : applyRename session uri result = (outcome, after))
    (changed : after ≠ session) :
    let written := WorkspaceEdit.writtenFor result uri
    RenamedBy session (written.map TextEdit.narrow) outcome after ∧
    ((∀ edit ∈ written, edit.FitsIn session.facade) → RenamedBy session written outcome after) ∧
    (session.facade.text.Addressable → ∀ edit ∈ written, (edit.FitsIn session.facade ↔
      edit.narrow.toEdit session.facade = edit.toEdit session.facade)) ∧
    (Edit.Separate session.facade.text (written.map (TextEdit.toEdit session.facade)) →
      (written.map fun edit => TextEdit.place session.facade edit.range.start).Nodup →
      rewritten (written.map (TextEdit.toEdit session.facade)) session.facade.text =
        Splice.atOnce (written.map (TextEdit.spliceIn session.facade.text)) session.facade.text) := by
  intro written
  have seen : RenamedBy session (written.map TextEdit.narrow) outcome after :=
    WorkspaceEdit.editsFor_eq_narrow result uri ▸ renamedBy_editsFor renamed changed
  refine ⟨seen, fun fits => ⟨fun edit member => ?_, ?_⟩,
    fun addressable edit _ => TextEdit.fitsIn_iff addressable, rewritten_at_once⟩
  · exact (fits edit member).inCode (seen.inside _ (List.mem_map_of_mem member))
  · have made := seen.made
    rwa [TextEdit.toEdit_narrow fits, List.length_map] at made

/-- So a replacement on a line that no facade has is made on the first line of a cell, and a column past the
end of the line is its end. -/
theorem far_line_taken_for_near : ∃ session far near : Session,
    Session.ofCells [{ id := "a", kind := .code, source := "x = 1" }] {} = .ok session ∧
    let beyond : TextEdit := ⟨⟨⟨0x100000001, 4⟩, ⟨0x100000001, 5⟩⟩, "2"⟩
    let within : TextEdit := ⟨⟨⟨1, 4⟩, ⟨1, 99⟩⟩, "3"⟩
    applyRename session "u" (proposal "u" [beyond]) = (.ok 1, far) ∧
    RenamedBy session [⟨⟨⟨1, 4⟩, ⟨1, 5⟩⟩, "2"⟩] (.ok 1) far ∧ ¬beyond.FitsIn session.facade ∧
    far.cells.blocks = [⟨.code, "x = 2"⟩] ∧
    applyRename session "u" (proposal "u" [within]) = (.ok 1, near) ∧
    RenamedBy session [within] (.ok 1) near ∧ near.cells.blocks = [⟨.code, "x = 3"⟩] := by
  refine ⟨_, _, _, rfl, Prod.ext (by decide +kernel) rfl, ?_, by decide +kernel, by decide +kernel,
    Prod.ext (by decide +kernel) rfl, ?_, by decide +kernel⟩
  · exact (rename_made_where_seen (show applyRename _ "u"
      (proposal "u" [⟨⟨⟨0x100000001, 4⟩, ⟨0x100000001, 5⟩⟩, "2"⟩]) = (.ok 1, _) from
        Prod.ext (by decide +kernel) rfl)
      fun same => absurd (congrArg (·.cells.blocks) same) (by decide +kernel)).1
  · exact (rename_made_where_seen (show applyRename _ "u"
      (proposal "u" [⟨⟨⟨1, 4⟩, ⟨1, 99⟩⟩, "3"⟩]) = (.ok 1, _) from Prod.ext (by decide +kernel) rfl)
      fun same => absurd (congrArg (·.cells.blocks) same) (by decide +kernel)).2.1 (by decide +kernel)

end Notebook.Lsp

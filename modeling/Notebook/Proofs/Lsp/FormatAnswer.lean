import Notebook.Proofs.Lsp.Desk
import Notebook.Proofs.Session.Refusal
import Notebook.Proofs.Session.Trail
import Notebook.Proofs.Session.Undo
/-!
# What the answer to formatting may change

Formatting is carried out while its cell stands where it stood when the formatting was asked for. That
much is checked, after the changes of the editor were brought in, and nothing else. So at most one cell
is changed, which has the same identity and as many lines in the same place. Its text may be another
one by then. It is the same as long as the facade has the revision that it had.
-/
namespace Notebook

open Workspace

namespace Session

variable {session : Session}

/-! ## One cell at most is changed -/

/-- Edits in a cell leave the cells as the editor left them, or change the source of one that stands
where it was expected. -/
theorem cells_editCell (session : Session) (id : Text) (expected : Span) (edits : List Edit) :
    (session.editCell id expected edits).2.cells = session.broughtIn.cells ∨
      ∃ index cell source, cell.id = id ∧ session.broughtIn.cells.get? index = some cell ∧
        session.broughtIn.spanOf? index = some expected ∧
        (session.editCell id expected edits).2.cells =
          session.broughtIn.cells.modifyAt index fun cell => { cell with source } := by
  have middle : session.broughtIn = session.flush.2 := rfl
  rw [editCell, flushed_eq, middle]
  split
  next fault met refused =>
    rw [refused]
    exact .inl rfl
  next met brought =>
    rw [brought]
    dsimp only
    split
    next => exact .inl rfl
    next index found =>
      split
      next cell span here stands =>
        split
        next => exact .inl rfl
        next same =>
          split
          next => exact .inl rfl
          next =>
            split
            next => exact .inl rfl
            next =>
              rcases met.cells_replaceSource index _ with kept | ⟨source, written⟩
              · exact .inl kept
              · right
                -- The cell was looked up by its identity, and it stands where it was expected.
                obtain ⟨_, named, -⟩ := List.findIdx?_eq_some_iff_getElem.mp found
                have held := here
                rw [CellList.get?, List.getElem?_eq_getElem ‹_›, Option.some.injEq] at held
                refine ⟨index, cell, source, ?_, here, ?_, written⟩
                · simpa [held] using named
                · rw [stands, not_not.mp same]
      next => exact .inl rfl

/-! ## Cells in the same place -/

/-- Where blocks are the same, the cells that stand on one line show the same. -/
theorem block_eq_of_depth {above above' below below' : List Cell} {cell cell' : Cell}
    (blocks : (above ++ cell :: below).map Cell.block = (above' ++ cell' :: below').map Cell.block)
    (depth : Layout.depth above = Layout.depth above') : cell.block = cell'.block := by
  induction above generalizing above' with
  | nil =>
    cases above' with
    | nil => exact (List.cons.inj blocks).1
    | cons first rest =>
      rw [Layout.depth_nil, Layout.depth_cons] at depth
      omega
  | cons first rest ih =>
    cases above' with
    | nil =>
      rw [Layout.depth_nil, Layout.depth_cons] at depth
      omega
    | cons first' rest' =>
      obtain ⟨same, blocks⟩ := List.cons.inj blocks
      -- Cells that show the same are of the same height.
      have height := height_eq_of_block same
      refine ih blocks ?_
      rw [Layout.depth_cons, Layout.depth_cons] at depth
      omega

/-- In sound sessions with the same facade, cells in the same place show the same. -/
theorem Sound.block_eq_of_text {other : Session} (sound : session.Sound) (target : other.Sound)
    (settings : session.settings = other.settings) (text : session.facade.text = other.facade.text)
    {index index' : Nat} {cell cell' : Cell} {span : Span} (here : session.cells.get? index = some cell)
    (stands : session.spanOf? index = some span) (here' : other.cells.get? index' = some cell')
    (stands' : other.spanOf? index' = some span) : cell.block = cell'.block := by
  obtain ⟨above, below, cells, rfl⟩ := exists_around here
  obtain ⟨above', below', cells', rfl⟩ := exists_around here'
  rw [sound.inStep.spanOf? sound.plain cells, Option.some.injEq] at stands
  rw [target.inStep.spanOf? target.plain cells', Option.some.injEq, ← stands, Span.mk.injEq] at stands'
  have blocks := (sound.showsAs_of_text target settings text).blocks
  rw [CellList.blocks, cells, CellList.blocks, cells'] at blocks
  exact block_eq_of_depth blocks stands'.1.symm

end Session

namespace Lsp

variable {session : Session}

theorem cells_applyFormat (session : Session) (id : Text) (expected : Span)
    (proposed : List TextEdit) :
    (applyFormat session id expected proposed).2 = session ∨
      (applyFormat session id expected proposed).2.cells = session.broughtIn.cells ∨
      ∃ index cell source, cell.id = id ∧ session.broughtIn.cells.get? index = some cell ∧
        session.broughtIn.spanOf? index = some expected ∧
        (applyFormat session id expected proposed).2.cells =
          session.broughtIn.cells.modifyAt index fun cell => { cell with source } := by
  unfold applyFormat
  split
  next => exact .inl rfl
  next =>
    split
    next => exact .inl rfl
    next edits _ =>
      have edited := session.cells_editCell id expected edits
      split
      all_goals
        rw [‹session.editCell _ _ _ = _›] at edited
        exact .inr edited

/-- The answer to formatting is used by making edits in the cell that the formatting is about. -/
theorem answerPending_format {pending : Pending} {cell : Text} {span : Span}
    (target : pending.purpose.target? = some (cell, span)) (relay : Relay) (session : Session)
    (addresses : Addresses) (origin : Origin) (result : Json) :
    (relay.answerPending session addresses origin pending result).2.2 =
      (applyFormat session cell span (TextEdit.decodeAll result)).2 := by
  unfold Relay.answerPending
  split
  next known =>
    rw [known] at target
    cases target
  next known =>
    rw [known] at target
    cases target
  next known =>
    rw [known] at target
    cases target
    exact Relay.answerFormatRange_snd session _ _ _ result
  next job known =>
    rw [known] at target
    cases target
    rw [← Relay.formatStep_snd]
    unfold Relay.answerFormatNotebook
    split
    next => rw [‹Relay.formatStep _ _ _ = _›]
    next =>
      rw [‹Relay.formatStep _ _ _ = _›]
      dsimp only
      split <;> rfl

/-- Whatever happened since the formatting of a range or of one cell of a notebook was asked for: its
answer leaves every notebook alone, or brings in what the editor holds in the one that was asked about
and changes the source of at most one cell there. That cell is the one that was asked about by its
identity, and it stands where it stood. Its kind and source are those at the time of the request if
the facade has the same revision; else they need not be. -/
theorem Desk.Run.format_answered {desk : Desk} (run : Run desk) {message : Json} {response : Response}
    {pending : Pending} (decoded : Response.decode? message = some response)
    (waits : Table.get? desk.relay.pending response.id = some pending)
    (format : pending.method = "textDocument/rangeFormatting") :
    ∃ registration ∈ desk.ledger, registration.number = response.id ∧
      (∀ other ∈ desk.ledger, other.number = response.id → other = registration) ∧
      ∃ asked index former span, registration.workspace.session? pending.notebook = some asked ∧
        pending.purpose.target? = some (former.id, span) ∧
        asked.cells.get? index = some former ∧ asked.spanOf? index = some span ∧
        ∀ id later, (desk.perform (.answer message)).workspace.session? id = some later →
          desk.workspace.session? id = some later ∨
          id = pending.notebook ∧ ∃ current, desk.workspace.session? id = some current ∧
            (later.cells = current.broughtIn.cells ∨
            ∃ place held source, held.id = former.id ∧
              current.broughtIn.cells.get? place = some held ∧
              current.broughtIn.spanOf? place = some span ∧
              later.cells = current.broughtIn.cells.modifyAt place (fun cell => { cell with source }) ∧
              ('\n' ∉ current.settings.tag →
                current.broughtIn.facade.revision = asked.facade.revision →
                held.kind = former.kind ∧ held.source = former.source)) := by
  obtain ⟨registration, member, number, once, document, asked, settings, recalls, reachable, same,
    leads⟩ := run.recalls waits
  obtain ⟨index, former, span, target, there, stood⟩ := recalls.formatting format
  refine ⟨registration, member, number, once, asked, index, former, span, recalls.opened, target,
    there, stood, ?_⟩
  change ∀ id later, (desk.relay.answer desk.workspace message).2.2.session? id = some later → _
  intro id later after
  rcases Relay.answer_cases decoded waits with
    ⟨outcome, idle, -⟩ | ⟨origin, known, current, located, registered, opened, used⟩
  · rw [idle] at after
    exact .inl after
  rw [same origin located] at opened used
  rw [used, session?_setSession, answerPending_format target] at after
  split at after
  next here =>
    subst here
    rw [opened, Option.map_some, Option.some.injEq] at after
    subst after
    rcases cells_applyFormat current former.id span (TextEdit.decodeAll (Json.orNull response.result))
      with still | kept | ⟨place, held, source, named, here, stands, written⟩
    · rw [still]
      exact .inl opened
    · exact .inr ⟨rfl, current, opened, .inl kept⟩
    · refine .inr ⟨rfl, current, opened, .inr ⟨place, held, source, named, here, stands, written, ?_⟩⟩
      intro plain revision
      have onward := (leads current opened).trans (leads_broughtIn current)
      obtain ⟨rfl, -⟩ := reachable.headed
      have plain : '\n' ∉ asked.settings.tag := by
        rwa [← (leads current opened).course.settings]
      obtain ⟨soundAsked, -⟩ := reachable.sound plain
      obtain ⟨sound, -⟩ := (onward.reachable reachable).sound plain
      have block := sound.block_eq_of_text soundAsked onward.course.settings
        (onward.course.revised.text revision) here stands there stood
      exact ⟨congrArg Block.kind block, congrArg Block.source block⟩
  next => exact .inl after

/-- A cell that was changed since its formatting was asked for, and still has as many lines in the same
place, is changed by the answer, although its source is another one. -/
theorem format_answered_late : ∃ (session : Session) (desk : Desk) (message : Json),
    Session.ofCells [{ id := "a", kind := .code, source := "a=1" }] {} = .ok session ∧
    desk = [.insert "/a.ipynb" session, .didOpen ⟨0⟩,
      .request ⟨1⟩ "textDocument/rangeFormatting"
        (Json.object [("range", Range.encode ⟨⟨1, 0⟩, ⟨1, 3⟩⟩)]),
      .operate ⟨0⟩ (.setSource 0 "b=2")].foldl Desk.perform { relay := {}, workspace := {} } ∧
    ∃ registration ∈ desk.ledger, registration.number = 0 ∧
      ∃ (asked current later : Session) (former held : Cell),
        registration.workspace.session? ⟨0⟩ = some asked ∧
        desk.workspace.session? ⟨0⟩ = some current ∧
        (desk.perform (.answer message)).workspace.session? ⟨0⟩ = some later ∧
        held.id = former.id ∧ former ∈ asked.cells.cells ∧ former.source = "a=1" ∧
        held ∈ current.broughtIn.cells.cells ∧ held.source = "b=2" ∧
        later.cells.blocks = [⟨.code, "a = 1"⟩] := by
  have start : Session.Reachable {} _ := .cells
    (rfl : Session.ofCells [{ id := "a", kind := .code, source := "a=1" }] {} = .ok _)
  have run := ((((Desk.Run.start {}).step (.insert "/a.ipynb" _) ⟨_, start⟩).step (.didOpen ⟨0⟩)
    trivial).step (.request ⟨1⟩ "textDocument/rangeFormatting"
      (Json.object [("range", Range.encode ⟨⟨1, 0⟩, ⟨1, 3⟩⟩)])) trivial).step
      (.operate ⟨0⟩ (.setSource 0 "b=2")) trivial
  let message := Json.object [("id", .nat 0), ("result", .arr [Json.object [
    ("range", Range.encode ⟨⟨1, 0⟩, ⟨1, 3⟩⟩), ("newText", .str "a = 1")]])]
  let pending : Pending := ⟨"textDocument/rangeFormatting", ⟨1⟩, ⟨0⟩, .formatRange "a" ⟨0, 2⟩⟩
  obtain ⟨registration, member, number, -, asked, index, former, span, before, -, there, -, leaves⟩ :=
    @Desk.Run.format_answered _ run message _ pending rfl (by decide +kernel) rfl
  have old := (show ∀ registration ∈ (_ : List Registration),
    ∀ asked ∈ registration.workspace.session? ⟨0⟩, ∀ cell ∈ asked.cells.cells,
      cell.source = ("a=1" : Text) from by decide +kernel) registration member asked before former
        (List.mem_of_getElem? there)
  rcases leaves ⟨0⟩ _ (Option.some_get (by decide +kernel)).symm with
    same | ⟨-, current, now, kept | ⟨place, held, source, named, here, -, -, -⟩⟩
  · exact absurd same (by decide +kernel)
  · exact absurd kept ((show ∀ current ∈ (_ : Option Session), Session.cells _ ≠
      current.broughtIn.cells from by decide +kernel) current now)
  · have new := (show ∀ current ∈ (_ : Option Session), ∀ cell ∈ current.broughtIn.cells.cells,
      cell.source = ("b=2" : Text) from by decide +kernel) current now held
        (List.mem_of_getElem? here)
    exact ⟨_, _, message, rfl, rfl, registration, member, number, asked, current, _, former, held, before,
      now, (Option.some_get (by decide +kernel)).symm, named, List.mem_of_getElem? there, old,
      List.mem_of_getElem? here, new, by decide +kernel⟩

end Lsp

end Notebook

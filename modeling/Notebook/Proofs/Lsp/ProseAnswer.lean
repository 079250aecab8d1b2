import Notebook.Proofs.CellList.Prose
import Notebook.Proofs.Lsp.FormatAnswer
import Notebook.Proofs.Lsp.RenameInPlace
/-!
# What answers do to markdown and raw cells

A lookup changes nothing, and nor does a refusal or an answer that has come too late. Formatting writes the
source of the cell it was asked for, whatever kind that cell has by then. The edits of a rename all lie in
code cells, but afterwards the cells are read from the whole facade: markdown and raw cells come through
exactly if what is read still holds them in their order.
-/
namespace Notebook

namespace CellList

variable {list : CellList}

/-- To write the source of a cell leaves markdown and raw cells alone exactly if it is a code cell or
had that source before. -/
theorem prose_modifyAt_iff {index : Nat} {cell : Cell} (here : list.get? index = some cell)
    (source : Text) :
    list.prose.Sublist (list.modifyAt index fun cell => { cell with source }).prose ↔
      cell.kind.isCode = true ∨ source = cell.source := by
  obtain ⟨above, below, cells, rfl⟩ := Session.exists_around here
  have after : (list.modifyAt above.length fun cell => { cell with source }).cells =
      above ++ { cell with source } :: below := by
    rw [CellList.modifyAt, cells, Session.modify_around]
  rw [prose, prose, after, cells, List.filter_append, List.filter_append]
  cases code : cell.kind.isCode with
  | true => simp [Cell.block, Block.isProse, code]
  | false =>
    have kept : cell.block.isProse = true := by simp [Cell.block, Block.isProse, code]
    have also : (Cell.block { cell with source }).isProse = true := kept
    rw [List.filter_cons, if_pos kept, List.filter_cons, if_pos also]
    constructor
    · intro sublist
      -- The cell stays markdown or raw, so a row that comes through is the whole one.
      have same := sublist.eq_of_length (by simp)
      simp [Cell.block] at same
      exact .inr same.symm
    · rintro (never | same)
      · cases never
      · rw [same]

/-- Blocks that differ in code alone hold the same markdown and raw ones. -/
theorem filter_isProse_eq {row others : List Block} (length : row.length = others.length)
    (same : ∀ (index : Nat) (block other : Block), row[index]? = some block → others[index]? = some other →
      block = other ∨ block.isProse = false ∧ other.isProse = false) :
    row.filter Block.isProse = others.filter Block.isProse := by
  induction row generalizing others with
  | nil => rw [List.length_eq_zero_iff.mp length.symm]
  | cons block more ih =>
    cases others with
    | nil => cases length
    | cons other rest =>
      have later := ih (Nat.succ.inj length) fun index => same (index + 1)
      rcases same 0 block other rfl rfl with rfl | ⟨code, code'⟩
      · rw [List.filter_cons, List.filter_cons, later]
      · rw [List.filter_cons_of_neg (by simp [code]), List.filter_cons_of_neg (by simp [code']), later]

end CellList

namespace Session

open Text

variable {settings : Settings} {session : Session} {edits : List Edit} {blocks read : List Block}

/-! ## Renames -/

/-- Edits inside code that find the lines of their cells leave the markdown and raw blocks alone. -/
theorem Sound.prose_rewritten (sound : session.Sound)
    (inside : ∀ edit ∈ edits, Lsp.isInsideCode session edit = true)
    (rewritten : session.rewritten? edits = some blocks) :
    blocks.filter Block.isProse = session.cells.blocks.filter Block.isProse := by
  have kinds := congrArg List.length (Edit.kinds_rewriteCells? rewritten)
  have length : blocks.length = session.cells.blocks.length := by simpa [CellList.blocks] using kinds
  apply CellList.filter_isProse_eq length
  intro index block other here there
  rw [CellList.blocks, List.getElem?_map, Option.map_eq_some_iff] at there
  obtain ⟨cell, there, rfl⟩ := there
  obtain ⟨source, wrote, code⟩ := sound.touched inside rewritten there
  obtain rfl := Option.some.inj (here.symm.trans wrote)
  by_cases same : source = cell.source
  · left
    rw [same]
    rfl
  · right
    simp [Block.isProse, Cell.block, (code same).1]

/-- What such edits leave is read as it was written, if no source closes its cell early. -/
theorem Sound.parseLines_rewritten (sound : session.Sound)
    (inside : ∀ edit ∈ edits, Lsp.isInsideCode session edit = true)
    (rewritten : session.rewritten? edits = some blocks)
    (free : ∀ block ∈ blocks, Markup.checkSource session.settings.tag block.source = .ok ()) :
    Markup.parseLines session.settings.tag
      (Edit.applyAll edits .alone (Buffer.ofText session.facade.text)).lines = .ok blocks := by
  have shows : (Buffer.ofText session.facade.text).lines =
      Markup.renderLines session.settings.tag (session.cells.cells.map Cell.block) :=
    sound.inStep.facade
  rw [Edit.lines_applyAll_cells sound.plain (fun edit member => sound.staysIn (inside edit member))
    rewritten .alone shows]
  apply Markup.parseLines_renderLines
  intro block member
  rw [← Markup.checkSource_iff]
  exact free block member

end Session

namespace Lsp

open Session Workspace

variable {settings : Settings} {session after : Session}

/-- Cells were read from a facade that was edited inside code. -/
structure ReadAfter (edits : List Edit) (before after : Session) (read : List Block) : Prop where
  nonempty : edits ≠ []
  inside : ∀ edit ∈ edits, isInsideCode before edit = true
  parsed : Markup.parseLines before.settings.tag
    (Edit.applyAll edits .alone (Buffer.ofText before.facade.text)).lines = .ok read
  cells : after.cells = before.cells.reconcile read

/-- While the editor holds no changes, a rename leaves the notebook alone or reads its cells anew. -/
theorem applyRename_reads (reachable : Reachable settings session)
    (clean : session.editorIsDirty = false) (uri : Text) (result : Json) :
    (applyRename session uri result).2 = session ∨
      ∃ read, ReadAfter (TextEdit.toEdits session.facade (WorkspaceEdit.editsFor result uri)) session
        (applyRename session uri result).2 read := by
  -- A rename that is refused made no edits, whether it is refused before or by the facade.
  have edited (some : TextEdit.toEdits session.facade (WorkspaceEdit.editsFor result uri) ≠ [])
      (inside : ∀ edit ∈ TextEdit.toEdits session.facade (WorkspaceEdit.editsFor result uri),
        isInsideCode session edit = true) :
      let after := (session.editFacade (TextEdit.toEdits session.facade
        (WorkspaceEdit.editsFor result uri)) .alone).2
      after = session ∨ ∃ read, ReadAfter (TextEdit.toEdits session.facade
        (WorkspaceEdit.editsFor result uri)) session after read := by
    rcases editFacade_of_clean clean some with
      ⟨fault, refused⟩ | ⟨read, parsed, ⟨-, still⟩ | ⟨-, facade, anew⟩⟩
    · exact .inl (congrArg Prod.snd refused)
    · exact .inl (congrArg Prod.snd still)
    · obtain ⟨rfl, -⟩ := reachable.headed
      have sound := (reachable.sound (plain_of_parseLines reachable some inside parsed)).1
      rw [anew]
      exact .inr ⟨read, some, inside, parsed, sound.cells_rerender_reconcile facade read⟩
  rcases applyRename_cases session uri result with
    ⟨-, same⟩ | ⟨_, same⟩ | ⟨some, inside, ⟨fault, after, done, same⟩ | ⟨after, done, same⟩⟩
  · rw [same]
    exact .inl rfl
  · rw [same]
    exact .inl rfl
  · rw [same, ← show _ = after from congrArg Prod.snd done]
    exact edited some inside
  · rw [same, ← show _ = after from congrArg Prod.snd done]
    exact edited some inside

theorem answerRename_snd (session : Session) (id : NotebookId) (uri : Text) (revision version : Nat)
    (result : Json) : (Relay.answerRename session id uri revision version result).2 = session ∨
      (Relay.answerRename session id uri revision version result).2 =
        (applyRename session uri result).2 := by
  unfold Relay.answerRename
  split
  next =>
    right
    split
    all_goals rw [‹applyRename _ _ _ = _›]
  next => exact .inl rfl

/-! ## Answers -/

/-- Formatting wrote a source into a cell that stands where the formatting was asked for. -/
def Formats (purpose : Purpose) (before after : Session) (held : Cell) (source : Text) : Prop :=
  ∃ index span, purpose.target? = some (held.id, span) ∧ before.cells.get? index = some held ∧
    before.spanOf? index = some span ∧
    after.cells = before.cells.modifyAt index fun cell => { cell with source }

/-- The range that was to be formatted lay in a code cell, and as long as the facade has the same revision
it is the same cell that stands there. -/
theorem Formats.isCode {pending : Pending} {asked : Session} {held : Cell} {source : Text}
    (formats : Formats pending.purpose session after held source) {cell : Text} {span : Span}
    (purpose : pending.purpose = .formatRange cell span) {relay : Relay} {workspace : Workspace}
    {document : Document} (recalls : pending.Recalls relay workspace document asked)
    (reachable : Reachable settings asked) (leads : asked.Leads session)
    (plain : '\n' ∉ session.settings.tag) (revision : session.facade.revision = asked.facade.revision) :
    held.kind.isCode = true := by
  obtain ⟨place, former, -, there, stood, code⟩ := recalls.ranged cell span purpose
  obtain ⟨index, span', target, here, stands, -⟩ := formats
  rw [purpose] at target
  obtain ⟨-, rfl⟩ := Prod.mk.inj (Option.some.inj target)
  obtain ⟨rfl, -⟩ := reachable.headed
  obtain ⟨sound, -⟩ := (leads.reachable reachable).sound (leads.course.settings ▸ plain)
  obtain ⟨soundAsked, -⟩ := reachable.sound (leads.course.settings ▸ plain)
  -- With its revision the facade has kept its text, which shows kinds as well as sources.
  have block := sound.block_eq_of_text soundAsked leads.course.settings
    (leads.course.revised.text revision) here stands there stood
  have kind : held.kind = former.kind := congrArg Block.kind block
  rw [kind, code]

/-- An answer leaves a notebook alone, or it is used for the purpose of the request that waited for it. -/
theorem session?_answer {relay : Relay} {workspace : Workspace} {id : NotebookId}
    (opened : workspace.session? id = some session) (message : Json) :
    (relay.answer workspace message).2.2.session? id = some session ∨
      ∃ response pending origin addresses, Response.decode? message = some response ∧
        Table.get? relay.pending response.id = some pending ∧
        Origin.of? workspace pending.origin = some origin ∧ origin.notebook = id ∧
        relay.addresses? id = some addresses ∧
        ∃ struck : Relay, (relay.answer workspace message).2.2.session? id =
          some (struck.answerPending session addresses origin pending
            (Json.orNull response.result)).2.2 := by
  by_cases used : ∃ response pending, Response.decode? message = some response ∧
      Table.get? relay.pending response.id = some pending
  · obtain ⟨response, pending, decoded, waits⟩ := used
    rcases Relay.answer_cases decoded waits with
      ⟨outcome, idle, -⟩ | ⟨origin, document, current, located, registered, here, used⟩
    · rw [idle]
      exact .inl opened
    · rw [used, session?_setSession]
      split
      next same =>
        obtain rfl := same
        obtain rfl := Option.some.inj (here.symm.trans opened)
        refine .inr ⟨response, pending, origin, document.addresses, decoded, waits, located, rfl, ?_,
          _, by rw [opened]; rfl⟩
        rw [Relay.addresses?, registered]
        rfl
      next => exact .inl opened
  · left
    rw [(Relay.answer_idle fun response decoded => ?_).1]
    · exact opened
    · cases waits : Table.get? relay.pending response.id with
      | none => rfl
      | some pending => exact absurd ⟨response, pending, decoded, waits⟩ used

/-- Whatever an answer is used for, it leaves the cells alone, formats one of them, or reads them anew. -/
theorem answerPending_cases (reachable : Reachable settings session)
    (clean : session.editorIsDirty = false) (relay : Relay) (addresses : Addresses) (origin : Origin)
    (pending : Pending) (result : Json) :
    let after := (relay.answerPending session addresses origin pending result).2.2
    after.cells = session.cells ∨
      (∃ held source, Formats pending.purpose session after held source) ∨
      ∃ revision version read, pending.purpose = .rename revision version ∧ ReadAfter
        (TextEdit.toEdits session.facade (WorkspaceEdit.editsFor result addresses.shadow)) session
          after read := by
  have formatted {cell : Text} {span : Span} (target : pending.purpose.target? = some (cell, span)) :
      let after := (relay.answerPending session addresses origin pending result).2.2
      after.cells = session.cells ∨ ∃ held source, Formats pending.purpose session after held source := by
    -- There is nothing to be brought in from the editor.
    have settled : session.broughtIn = session := congrArg Prod.snd (flushed_of_clean clean _)
    have applied := cells_applyFormat session cell span (TextEdit.decodeAll result)
    rw [settled] at applied
    dsimp only
    rw [answerPending_format target]
    rcases applied with still | kept | ⟨index, held, source, rfl, here, stands, written⟩
    · exact .inl (congrArg Session.cells still)
    · exact .inl kept
    · exact .inr ⟨held, source, index, span, target, here, stands, written⟩
  intro after
  cases purpose : pending.purpose with
  | lookup =>
    have same : after = session := by simp only [after, Relay.answerPending, purpose]
    exact .inl (congrArg Session.cells same)
  | rename revision version =>
    have same : after = (Relay.answerRename session origin.notebook addresses.shadow revision version
        result).2 := by
      simp only [after, Relay.answerPending, purpose]
    rcases answerRename_snd session origin.notebook addresses.shadow revision version result with
      still | used
    · exact .inl (congrArg Session.cells (same.trans still))
    · rw [same, used]
      rcases applyRename_reads reachable clean addresses.shadow result with still | ⟨read, anew⟩
      · exact .inl (congrArg Session.cells still)
      · exact .inr (.inr ⟨revision, version, read, rfl, anew⟩)
  | formatRange cell span => exact (purpose ▸ formatted (by rw [purpose]; rfl)).imp_right .inl
  | formatNotebook job => exact (purpose ▸ formatted (by rw [purpose]; rfl)).imp_right .inl

/-- Markdown and raw cells come through a rename exactly if the blocks that are read hold them in their
order. So it is if its edits find the lines of their cells and no new source closes its cell early. -/
theorem ReadAfter.prose (reachable : Reachable settings session) {edits : List Edit}
    {read : List Block} (anew : ReadAfter edits session after read) :
    (session.cells.prose.Sublist after.cells.prose ↔
      (read.filter Block.isProse).bagInter (session.cells.blocks.filter Block.isProse) =
        session.cells.blocks.filter Block.isProse) ∧
      ∀ blocks, session.rewritten? edits = some blocks →
        (∀ block ∈ blocks, Markup.checkSource session.settings.tag block.source = .ok ()) →
        after.cells.prose = session.cells.prose := by
  obtain ⟨rfl, -⟩ := reachable.headed
  have sound := (reachable.sound (plain_of_parseLines reachable anew.nonempty anew.inside anew.parsed)).1
  rw [anew.cells]
  refine ⟨CellList.prose_reconcile_iff sound.coherent, fun blocks rewritten free => ?_⟩
  have parsed := sound.parseLines_rewritten anew.inside rewritten free
  obtain rfl := Except.ok.inj (anew.parsed.symm.trans parsed)
  exact CellList.prose_reconcile sound.coherent (sound.prose_rewritten anew.inside rewritten)

/-- When an answer comes in while the editor of a notebook holds no changes, all markdown and raw cells of
that notebook come through, with their identities, kinds and sources and in their order, unless the answer
formats one of them or is that of a rename. Formatting keeps them exactly if it is a code cell that is
written, or nothing new is written; and for a range it is a code cell as long as the facade has the revision
that it had when the formatting was asked for. A rename keeps them exactly if the blocks read afterwards,
each counted as often as it was there before, hold theirs in their order, and so it does whenever its edits
find the lines of their cells one after the other and no new source closes its cell early. -/
theorem Desk.Run.prose_answered {desk : Desk} (run : Run desk) (message : Json) {id : NotebookId}
    {current : Session} (opened : desk.workspace.session? id = some current)
    (clean : current.editorIsDirty = false) :
    ∃ later, (desk.perform (.answer message)).workspace.session? id = some later ∧
      (later.cells = current.cells ∨
      ∃ response pending, Response.decode? message = some response ∧
        Table.get? desk.relay.pending response.id = some pending ∧ pending.notebook = id ∧
        ((∃ held source, Formats pending.purpose current later held source ∧
          (current.cells.prose.Sublist later.cells.prose ↔
            held.kind.isCode = true ∨ source = held.source) ∧
          ∀ cell span, pending.purpose = .formatRange cell span →
            ∃ registration ∈ desk.ledger, registration.number = response.id ∧
              ∃ asked, registration.workspace.session? id = some asked ∧
                ('\n' ∉ current.settings.tag → current.facade.revision = asked.facade.revision →
                  held.kind.isCode = true)) ∨
        ∃ revision version addresses read, pending.purpose = .rename revision version ∧
          desk.relay.addresses? id = some addresses ∧
          let edits := TextEdit.toEdits current.facade
            (WorkspaceEdit.editsFor (Json.orNull response.result) addresses.shadow)
          ReadAfter edits current later read ∧
          (current.cells.prose.Sublist later.cells.prose ↔
            (read.filter Block.isProse).bagInter (current.cells.blocks.filter Block.isProse) =
              current.cells.blocks.filter Block.isProse) ∧
          ∀ blocks, current.rewritten? edits = some blocks →
            (∀ block ∈ blocks, Markup.checkSource current.settings.tag block.source = .ok ()) →
            later.cells.prose = current.cells.prose)) := by
  change ∃ later, (desk.relay.answer desk.workspace message).2.2.session? id = some later ∧ _
  rcases session?_answer opened message with same |
    ⟨response, pending, origin, addresses, decoded, waits, located, rfl, known, struck, used⟩
  · exact ⟨current, same, .inl rfl⟩
  obtain ⟨registration, member, number, -, document, asked, settings, recalls, reachable, belongs,
    leads⟩ := run.recalls waits
  have belongs := belongs origin located
  -- No handle is given out twice, so it is the notebook of the registration, led on by operations.
  have leads := leads current (belongs ▸ opened)
  have after := leads.reachable reachable
  refine ⟨_, used, ?_⟩
  rcases answerPending_cases after clean struck addresses origin pending
    (Json.orNull response.result) with
    kept | ⟨held, source, formats⟩ | ⟨revision, version, read, purpose, anew⟩
  · exact .inl kept
  · refine .inr ⟨response, pending, decoded, waits, belongs.symm,
      .inl ⟨held, source, formats, ?_, fun cell span purpose => ?_⟩⟩
    · obtain ⟨index, span, -, here, -, written⟩ := formats
      rw [written]
      exact CellList.prose_modifyAt_iff here source
    · refine ⟨registration, member, number, asked, belongs ▸ recalls.opened, fun plain revision => ?_⟩
      exact formats.isCode purpose recalls reachable leads plain revision
  · obtain ⟨whole, apart⟩ := anew.prose after
    exact .inr ⟨response, pending, decoded, waits, belongs.symm,
      .inr ⟨revision, version, addresses, read, purpose, known, anew, whole, apart⟩⟩

/-- So a markdown cell is overwritten when it is formatted from its editor, which asks for whatever kind
of cell it is open on. -/
theorem formatting_overwrites_markdown : ∃ (session : Session) (desk : Desk) (message : Json)
    (current later : Session),
    Session.ofCells [{ id := "a", kind := .markdown, source := "x" }] {} = .ok session ∧
    desk = [.insert "/a.ipynb" session, .didOpen ⟨0⟩, .openEditor ⟨0⟩ 0,
      .request ⟨3⟩ "textDocument/formatting" (Json.object [])].foldl Desk.perform
        { relay := {}, workspace := {} } ∧
    desk.workspace.session? ⟨0⟩ = some current ∧
    (desk.perform (.answer message)).workspace.session? ⟨0⟩ = some later ∧
    later.cells.blocks = [⟨.markdown, "y"⟩] ∧
    ∃ purpose held source, Formats purpose current later held source ∧
      held.kind.isCode = false ∧ source ≠ held.source := by
  have start : Session.Reachable {} _ := .cells
    (rfl : Session.ofCells [{ id := "a", kind := .markdown, source := "x" }] {} = .ok _)
  have run := ((((Desk.Run.start {}).step (.insert "/a.ipynb" _) ⟨_, start⟩).step (.didOpen ⟨0⟩)
    trivial).step (.openEditor ⟨0⟩ 0) trivial).step
      (.request ⟨3⟩ "textDocument/formatting" (Json.object [])) trivial
  let message := Json.object [("id", .nat 0), ("result", .arr [Json.object [
    ("range", Range.encode ⟨⟨1, 0⟩, ⟨1, 1⟩⟩), ("newText", .str "y")]])]
  obtain ⟨later, there, answered⟩ := run.prose_answered message
    (show Workspace.session? _ ⟨0⟩ = some _ from (Option.some_get (by decide +kernel)).symm)
    (by decide +kernel)
  have now := there.symm.trans (Option.some_get (by decide +kernel)).symm
  obtain rfl := Option.some.inj now
  rcases answered with kept | ⟨response, pending, -, waits, -,
    ⟨held, source, formats, whole, -⟩ | ⟨revision, version, _, _, rename, -⟩⟩
  · exact absurd kept (by decide +kernel)
  · obtain ⟨code, wrote⟩ := not_or.mp (whole.not.mp (by decide +kernel))
    exact ⟨_, _, message, _, _, rfl, rfl, (Option.some_get (by decide +kernel)).symm, there,
      by decide +kernel, _, held, source, formats, by simpa using code, wrote⟩
  · have format := (show ∀ entry ∈ (_ : Table Nat Pending), entry.2.purpose.target?.isSome = true from
      by decide +kernel) _ (Table.mem_of_get? waits)
    rw [rename] at format
    cases format

end Lsp

end Notebook

import Notebook.Proofs.File.RoundTrip
import Notebook.Proofs.Session.Frame
import Notebook.Proofs.Session.Tickets
/-!
# A session that is saved opens again

What cells carry along comes from the document that was opened and from the kernel, and neither reuses
the names of known fields. Identities are distinct and none is empty, so none is replaced when the cells
are loaded.
-/
namespace Notebook

open CellList (ids)

/-! ## What cells carry along -/

theorem Cell.Storable.of_parts {old cell : Cell} (storable : old.Storable)
    (metadata : cell.metadata = old.metadata) (extra : cell.extra = old.extra)
    (outputs : ∀ output ∈ cell.outputs, output ∈ old.outputs ∨ output.Storable) : cell.Storable where
  metadata := metadata ▸ storable.metadata
  extra := extra ▸ storable.extra
  lacks := extra ▸ storable.lacks
  outputs output member := (outputs output member).elim (storable.outputs output) fun fresh => fresh

theorem CellList.storable_of_blank {cell : Cell} (blank : Blank cell) : cell.Storable := by
  rw [blank]
  exact ⟨⟨.nil, trivial⟩, ⟨.nil, trivial⟩, List.forall_mem_nil _, List.forall_mem_nil _⟩

namespace CellList

/-- All cells can be stored, the remembered ones included. -/
def Storable (list : CellList) : Prop := ∀ cell ∈ list.held, cell.Storable

variable {list before after : CellList}

theorem Storable.descendant (storable : list.Storable) {cell : Cell} (descends : list.Descends cell) :
    cell.Storable := by
  cases descends with
  | blank fresh => exact storable_of_blank fresh
  | rewritten source there same =>
    subst same
    exact (storable _ there).of_parts rfl rfl fun _ => .inl
  | @retyped old kind there same =>
    subst same
    refine (storable _ there).of_parts ?_ ?_ fun output member => .inl ?_
    all_goals unfold retyped at *
    · split <;> rfl
    · split <;> rfl
    · split at member
      · exact member
      · cases member

theorem Storable.leads (storable : before.Storable) (leads : before.Leads after) : after.Storable := by
  induction leads with
  | still => exact storable
  | step _ action ih => exact fun cell member => ih.descendant (descends_perform _ action cell member)

theorem Storable.modifyAt (storable : list.Storable) (index : Nat) {change : Cell → Cell}
    (keeps : ∀ cell : Cell, cell.Storable → (change cell).Storable) :
    (list.modifyAt index change).Storable := by
  intro cell member
  rcases mem_held_modifyAt member with same | ⟨old, there, rfl⟩
  · exact storable cell same
  · exact keeps old (storable old there)

theorem Storable.modifyCell (storable : list.Storable) (id : Text) {change : Cell → Cell}
    (keeps : ∀ cell : Cell, cell.Storable → (change cell).Storable) :
    (list.modifyCell id change).Storable := by
  unfold CellList.modifyCell
  split
  · exact storable.modifyAt _ keeps
  · exact storable

/-- Loading may give cells other identities and changes nothing else. -/
theorem storable_ofCells {cells : List Cell} (each : ∀ cell ∈ cells, cell.Storable) :
    (ofCells cells).Storable := by
  intro loaded member
  rw [held, removed_ofCells, List.append_nil] at member
  obtain ⟨cell, here, same⟩ := Json.Tree.exists_of_forall₂ (forall₂_ofCells cells).flip member
  rw [same]
  exact (each cell here).of_parts rfl rfl fun _ => .inl

end CellList

/-! ## What the kernel reports -/

/-- If the kernel reports an output, that can be stored. -/
def Event.Storable (event : Event) : Prop :=
  ∀ ticket output, event = .output ticket output → output.Storable

theorem Event.storable_of_ofFields? {name : Text} {fields : List (Option Json.Tree)} {event : Event}
    (decoded : ofFields? name fields = some event) : event.Storable := by
  rintro ticket output rfl
  unfold ofFields? at decoded
  repeat' split at decoded
  all_goals
    simp only [Option.bind_eq_bind, Option.bind_eq_some_iff, Option.some.injEq, reduceCtorEq, and_false,
      exists_false, Event.output.injEq] at decoded
  obtain ⟨_, -, found, required, -, rfl⟩ := decoded
  obtain ⟨tree, -, here⟩ := Option.bind_eq_some_iff.mp required
  exact Output.storable_of_decode? here

/-- Whatever line the kernel writes, the event that it reports can be stored. -/
theorem Event.storable_of_ofLine {line : Text} {event : Event} (read : ofLine line = some event) :
    event.Storable := by
  obtain ⟨tree, -, strict⟩ := Option.bind_eq_some_iff.mp read
  obtain ⟨_, -, decoded⟩ := Option.bind_eq_some_iff.mp strict
  unfold Event.decode? at decoded
  split at decoded
  next =>
    simp only [Option.bind_eq_bind, Option.bind_eq_some_iff] at decoded
    obtain ⟨_, -, _, -, _, -, made⟩ := decoded
    exact storable_of_ofFields? made
  next =>
    obtain ⟨-, made⟩ := Option.ite_none_right_eq_some.mp decoded
    exact storable_of_ofFields? made
  next => cases decoded

namespace Session

variable {settings : Settings} {session : Session}

theorem storable_withCell (storable : session.cells.Storable) (id : Text) {change : Cell → Cell}
    (keeps : ∀ cell : Cell, cell.Storable → (change cell).Storable) :
    (session.withCell id change).cells.Storable :=
  storable.modifyCell id keeps

theorem storable_settleAll (storable : session.cells.Storable) : session.settleAll.cells.Storable := by
  rw [settleAll_eq]
  dsimp only
  -- Cells are settled one after the other, so the list is kept general.
  generalize session.cells = list at storable
  induction session.executions generalizing list with
  | nil => exact storable
  | cons entry rest ih =>
    exact ih _ (storable.modifyCell entry.2 fun cell old => old.of_parts rfl rfl fun _ => .inl)

theorem storable_applyGeneral (storable : session.cells.Storable) (event : Event) :
    (session.applyGeneral event).2.cells.Storable := by
  have settled := storable_settleAll storable
  cases event with
  | shutdown | restarted | interrupted => exact settled
  | _ => exact storable

theorem storable_applyTo (storable : session.cells.Storable) (ticket : Nat) (id : Text) {event : Event}
    (fits : event.Storable) : (session.applyTo ticket id event).2.cells.Storable := by
  -- Every event but an output leaves the outputs of the cells and what the file holds of them.
  have changed {change : Cell → Cell} (metadata : ∀ cell, (change cell).metadata = cell.metadata)
      (extra : ∀ cell, (change cell).extra = cell.extra)
      (outputs : ∀ cell, (change cell).outputs = cell.outputs) :
      (session.withCell id change).cells.Storable :=
    storable_withCell storable id fun cell old => old.of_parts (metadata cell) (extra cell)
      fun output member => .inl (outputs cell ▸ member)
  unfold applyTo
  split
  next =>
    split
    · exact changed (fun _ => rfl) (fun _ => rfl) fun _ => rfl
    · split
      · exact changed (fun _ => rfl) (fun _ => rfl) fun _ => rfl
      · exact storable
  next => exact changed (fun _ => rfl) (fun _ => rfl) fun _ => rfl
  next => exact changed (fun _ => rfl) (fun _ => rfl) fun _ => rfl
  next ticket output =>
    refine storable_withCell storable id fun cell old => old.of_parts rfl rfl fun other member => ?_
    rcases List.mem_append.mp member with before | new
    · exact .inl before
    · exact .inr (List.mem_singleton.mp new ▸ fits ticket output rfl)
  next => exact storable
  next => exact changed (fun _ => rfl) (fun _ => rfl) fun _ => rfl
  next => exact storable

theorem storable_applyEvent (storable : session.cells.Storable) {event : Event}
    (fits : event.Storable) : (session.applyEvent event).2.cells.Storable := by
  unfold applyEvent
  split
  next => exact storable_applyGeneral storable event
  next =>
    split
    next => exact storable
    next =>
      split
      · exact storable
      · exact storable_applyTo storable _ _ fits

theorem storable_queue (storable : session.cells.Storable) (index : Nat) :
    (session.queue index).2.cells.Storable := by
  obtain ⟨middle, passage, ⟨fault, refused⟩ | ⟨command, cell, -, -, -, done⟩⟩ := session.queue_cases index
  · rw [refused]
    exact storable.leads passage.cells
  · rw [done]
    refine (storable.leads passage.cells).modifyAt index fun cell old => ?_
    exact old.of_parts rfl rfl (List.forall_mem_nil _)

end Session

/-- The operation brings in nothing that cannot be stored. -/
def Operation.Storable (operation : Operation) : Prop :=
  ∀ event, operation = .applyEvent event → event.Storable

namespace Session

variable {settings : Settings} {session : Session}

theorem storable_perform (storable : session.cells.Storable) {operation : Operation}
    (fits : operation.Storable) : (operation.perform session).2.cells.Storable := by
  cases concerns : operation.concernsExecution with
  | false => exact storable.leads (session.passage_perform concerns).cells
  | true =>
    cases operation with
    | queue index => exact storable_queue storable index
    | applyEvent event => exact storable_applyEvent storable (fits event rfl)
    | _ => cases concerns

/-- A session can be stored if it was opened from a text, or from cells that can be stored, and only
operations were performed that bring in nothing else. Events that the kernel wrote are such. -/
inductive Storable (settings : Settings) : Session → Prop
  | text {text : Text} {session : Session} :
      Session.ofText text settings = .ok session → Storable settings session
  | cells {cells : List Cell} {session : Session} : (∀ cell ∈ cells, cell.Storable) →
      Session.ofCells cells settings = .ok session → Storable settings session
  | step {session : Session} : Storable settings session → (operation : Operation) →
      operation.Storable → Storable settings (operation.perform session).2

theorem Storable.reachable (storable : Storable settings session) : Reachable settings session := by
  induction storable with
  | text opened => exact .text opened
  | cells _ opened => exact .cells opened
  | step _ operation _ ih => exact ih.step operation

/-- What is saved can be stored: the cells, and the document around them. -/
structure Saveable (session : Session) : Prop where
  cells : session.cells.Storable
  file : session.file.Storable
  bare : session.file.cells = []

theorem saveable_build {file : File} {cells : List Cell} (document : file.Storable)
    (each : ∀ cell ∈ cells, cell.Storable) (built : build file cells settings = .ok session) :
    session.Saveable := by
  obtain ⟨-, rfl⟩ := build_eq_ok built
  exact ⟨CellList.storable_ofCells each, ⟨document.metadata, document.extra, document.lacks,
    document.format, document.formatMinor⟩, rfl⟩

theorem storable_empty : ({} : File).Storable where
  metadata := ⟨.nil, trivial⟩
  extra := ⟨.nil, trivial⟩
  lacks := List.forall_mem_nil _
  format := by decide
  formatMinor := by decide

theorem Storable.saveable (storable : Storable settings session) : session.Saveable := by
  induction storable with
  | text opened =>
    unfold Session.ofText at opened
    split at opened
    next => cases opened
    next file read =>
      split at opened
      next => cases opened
      next cells loaded =>
        obtain ⟨document, each⟩ := File.storable_of_ofText read loaded
        exact saveable_build document each opened
  | cells each opened => exact saveable_build storable_empty each opened
  | @step before _ operation fits ih =>
    have same := before.file_perform operation
    exact ⟨storable_perform ih.cells fits, same ▸ ih.file, same ▸ ih.bare⟩

/-! ## Opening again -/

/-- A tag with a line feed makes an end marker that is not a line of any source. -/
theorem checkSource_of_not_isLine {tag : Text} (broken : ¬Text.IsLine tag) (source : Text) :
    Markup.checkSource tag source = .ok () := by
  have none : (Text.lines source).findIdx? (fun line => line = endMarker tag) = none := by
    refine List.findIdx?_eq_none_iff.mpr fun line member => decide_eq_false ?_
    rintro rfl
    refine Text.isLine_of_mem_lines member ?_
    exact List.mem_append_left _ (List.mem_append_right _ (not_not.mp broken))
  rw [Markup.checkSource, none]

/-- The sources of an open notebook can be rendered. -/
theorem Reachable.checkSource (reachable : Reachable settings session) :
    ∀ cell ∈ session.cells.cells, Markup.checkSource settings.tag cell.source = .ok () := by
  intro cell member
  -- The invariant of sessions asks for a tag that is a line, and no other tag can be in the way.
  by_cases plain : Text.IsLine settings.tag
  · obtain ⟨sound, rfl⟩ := reachable.sound plain
    exact sound.free cell.block (List.mem_map_of_mem member)
  · exact checkSource_of_not_isLine plain cell.source

theorem checkSources_of_each {tag : Text} {cells : List Cell}
    (each : ∀ cell ∈ cells, Markup.checkSource tag cell.source = .ok ()) :
    checkSources tag cells = .ok () := by
  unfold checkSources
  induction cells with
  | nil => rfl
  | cons cell rest ih =>
    obtain ⟨here, there⟩ := List.forall_mem_cons.mp each
    rw [List.forM_eq_forM] at ih ⊢
    rw [List.forM_cons, here]
    exact ih there

/-- If its sources can be rendered, a notebook opens. -/
theorem build_of_checkSources {cells : List Cell} (checked : checkSources settings.tag cells = .ok ())
    (file : File) : ∃ session, build file cells settings = .ok session ∧
      session.cells = CellList.ofCells cells ∧ session.file = { file with cells := [] } := by
  rw [build, checked]
  exact ⟨_, rfl, rfl, rfl⟩

theorem Reachable.coherent (reachable : Reachable settings session) : session.cells.Coherent := by
  obtain ⟨opened, past, start, annals⟩ := reachable_iff_annals.mp reachable
  exact (annals.books start).coherent

/-- Whatever was done to a notebook, its text opens again, with the same document around the same cells,
of which none is executed. Only code cells keep outputs and an execution count. What cells and document
carry along may hold no other numbers than integers, and may nest no deeper than is read. -/
theorem Storable.reopens (storable : Storable settings session)
    (fits : session.toFile.encode.Fits Json.maxDepth) :
    ∃ reopened, Session.ofText session.text settings = .ok reopened ∧
      reopened.cells.cells = session.cells.cells.map Cell.saved ∧ reopened.file = session.file := by
  have saveable := storable.saveable
  have reachable := storable.reachable
  have coherent := reachable.coherent
  have read := saveable.file.ofText_text
    (fun cell member => saveable.cells cell (List.mem_append_left _ member)) fits
  have loaded := File.loadFrom_readBack 0 session.cells.cells
  -- The sources passed the check when they came in, and the cells are read with the identities they
  -- were saved with.
  have sources : checkSources settings.tag (session.cells.cells.map Cell.saved) = .ok () := by
    refine checkSources_of_each fun cell member => ?_
    obtain ⟨old, there, rfl⟩ := List.mem_map.mp member
    exact reachable.checkSource old there
  have same : ids (session.cells.cells.map Cell.saved) = ids session.cells.cells := by
    rw [ids, List.map_map]
    rfl
  have cells : (CellList.ofCells (session.cells.cells.map Cell.saved)).cells =
      session.cells.cells.map Cell.saved := by
    refine CellList.cells_ofCells (same ▸ coherent.distinct_cells) fun empty => coherent.named ?_
    exact coherent.issued [] (List.mem_append_left _ (same ▸ empty))
  obtain ⟨reopened, built, list, file⟩ := build_of_checkSources sources
    { session.file with cells := session.cells.cells.map Cell.readBack }
  refine ⟨reopened, ?_, list ▸ cells, ?_⟩
  · rw [Session.ofText, Session.text, Session.toFile, read]
    dsimp only
    rw [File.load, loaded]
    exact built
  · rw [file, ← saveable.bare]

/-- So it is with a cell that got an output, below one that was inserted. -/
theorem reopens_after_output : ∃ opened session event reopened,
    Session.ofCells [{ id := "a", kind := .code, source := "x\ny", extra := [("tag", .null)] }] {} =
      .ok opened ∧
    Event.ofLine "[\"output\", 0, \x7b\"output_type\": \"stream\", \"text\": \"7\"\x7d]" = some event ∧
    session = (Operation.perform (Operation.perform (Operation.perform opened (.queue 0)).2
      (.applyEvent event)).2 (.insertCell 0 .markdown "prose\n")).2 ∧
    session.toFile.encode.Fits Json.maxDepth ∧ Session.ofText session.text {} = .ok reopened ∧
    reopened.cells.cells = [{ id := "00000000", kind := .markdown, source := "prose\n" },
      { id := "a", kind := .code, source := "x\ny", outputs := [⟨"stream", [("text", .str "7")]⟩],
        extra := [("tag", .null)] }] ∧
    reopened.file = {} := by
  have storable : ∀ cell : Cell,
      cell ∈ [{ id := "a", kind := .code, source := "x\ny", extra := [("tag", .null)] }] →
        cell.Storable := by
    refine List.forall_mem_singleton.mpr
      ⟨⟨.nil, trivial⟩, ⟨List.pairwise_singleton _ _, trivial, trivial⟩, ?_, List.forall_mem_nil _⟩
    exact List.forall_mem_singleton.mpr (by decide)
  have line : Event.ofLine "[\"output\", 0, \x7b\"output_type\": \"stream\", \"text\": \"7\"\x7d]" =
      some (.output (some 0) ⟨"stream", [("text", .str "7")]⟩) := by decide +kernel
  have start : Storable {} _ := .cells storable (rfl : Session.ofCells
    [{ id := "a", kind := .code, source := "x\ny", extra := [("tag", .null)] }] {} = .ok _)
  have queued := start.step (.queue 0) (by rintro _ ⟨⟩)
  have told := queued.step (.applyEvent (.output (some 0) ⟨"stream", [("text", .str "7")]⟩)) (by
    rintro _ ⟨⟩
    exact Event.storable_of_ofLine line)
  have inserted := told.step (.insertCell 0 .markdown "prose\n") (by rintro _ ⟨⟩)
  obtain ⟨reopened, opens, cells, file⟩ := inserted.reopens (by decide +kernel)
  refine ⟨_, _, _, reopened, rfl, line, rfl, by decide +kernel, opens, cells.trans ?_, file.trans ?_⟩
  · decide +kernel
  · decide +kernel

end Session

end Notebook

import Notebook.Proofs.Lsp.Diagnostics
import Notebook.Proofs.Lsp.Publisher
/-!
# What is published

A record is kept of all that happened at the desk. It tells what was done to the publisher: diagnostics
that came in for a registered notebook, notebooks that were to be published again, and documents that
were closed. So it tells which notebooks wait, since when, and with which set, however the notebooks
changed in the meantime; and what is published of them depends on how they are when it is asked for.
-/
namespace Notebook.Lsp

open Workspace Publisher

theorem ServerNotice.diagnostics_of_decode? {method : Text} {params : Json} {set : DiagnosticSet}
    (decoded : ServerNotice.decode? method params = some (.diagnostics set)) :
    DiagnosticSet.decode? params = some set := by
  unfold ServerNotice.decode? at decoded
  split at decoded
  next =>
    obtain ⟨_, -, other⟩ := Option.map_eq_some_iff.mp decoded
    cases other
  next =>
    split at decoded
    next =>
      obtain ⟨_, -, other⟩ := Option.map_eq_some_iff.mp decoded
      cases other
    next =>
      split at decoded
      next =>
        obtain ⟨_, read, same⟩ := Option.map_eq_some_iff.mp decoded
        exact read.trans (congrArg some (ServerNotice.diagnostics.inj same))
      next => cases decoded

/-! ## What the relay keeps of diagnostics -/

/-- A notebook waits only if something was received for it, and that is kept only as long as it is
registered. -/
structure Relay.Attended (relay : Relay) : Prop where
  received : ∀ id ∈ relay.publisher.queue, (Table.get? relay.publisher.latest id).isSome
  registered : ∀ id, (Table.get? relay.publisher.latest id).isSome → (relay.document? id).isSome

namespace Relay

variable {relay after : Relay} {id : NotebookId}

theorem Attended.of_alike (attended : relay.Attended) (alike : relay.Alike after)
    (kept : ∀ id, (relay.document? id).isSome → (after.document? id).isSome) : after.Attended := by
  refine ⟨fun id waits => ?_, fun id known => kept id (attended.registered id ?_)⟩
  · rw [alike.publisher] at waits ⊢
    exact attended.received id waits
  · rwa [alike.publisher] at known

theorem Attended.of_asks (attended : relay.Attended) (asks : relay.Asks after) : after.Attended := by
  refine attended.of_alike asks.toAlike fun id registered => ?_
  rwa [document?, asks.documents]

/-- Of a notebook that is not registered nothing is known. -/
theorem Attended.unknown (attended : relay.Attended) (missing : relay.document? id = none) :
    Table.get? relay.publisher.latest id = none ∧ id ∉ relay.publisher.queue := by
  have nothing : Table.get? relay.publisher.latest id = none := by
    by_contra known
    have registered := attended.registered id (Option.isSome_iff_ne_none.mpr known)
    rw [missing] at registered
    cases registered
  refine ⟨nothing, fun waits => ?_⟩
  have known := attended.received id waits
  rw [nothing] at known
  cases known

theorem registered_of_notebookOf? {uri : Text} (found : relay.notebookOf? uri = some id) :
    (relay.document? id).isSome := by
  obtain ⟨entry, known, rfl⟩ := Option.map_eq_some_iff.mp found
  exact Table.isSome_get?_of_mem (List.mem_of_find?_eq_some known)

theorem mem_queue_enqueue {publisher : Publisher} {other : NotebookId}
    (waits : other ∈ (publisher.enqueue id).queue) : other ∈ publisher.queue ∨ other = id := by
  rw [queue_enqueue] at waits
  split at waits
  · exact .inl waits
  · simpa using waits

theorem Attended.schedule (attended : relay.Attended) (registered : (relay.document? id).isSome)
    (set : DiagnosticSet) :
    Attended { relay with publisher := relay.publisher.schedule id set } := by
  constructor
  · intro other waits
    rw [Publisher.schedule, latest_enqueue, Table.get?_set]
    split
    next => rfl
    next apart =>
      rcases mem_queue_enqueue waits with old | same
      · exact attended.received other old
      · exact absurd same.symm apart
  · intro other known
    rw [Publisher.schedule, latest_enqueue, Table.get?_set] at known
    split at known
    next same => exact same ▸ registered
    next => exact attended.registered other known

theorem Attended.notice (attended : relay.Attended) (method : Text) (params : Json) :
    (relay.notice method params).2.Attended := by
  unfold Relay.notice
  split
  next set _ =>
    split
    next found => exact attended.schedule (registered_of_notebookOf? found) set
    next => exact attended
  all_goals exact attended

theorem Attended.refreshDiagnostics (attended : relay.Attended) (id : NotebookId) :
    (relay.refreshDiagnostics id).2.Attended := by
  simp only [Relay.refreshDiagnostics, refresh]
  split
  next known =>
    constructor
    · intro other waits
      rw [latest_enqueue]
      rcases mem_queue_enqueue waits with old | rfl
      · exact attended.received other old
      · exact known
    · intro other known
      rw [latest_enqueue] at known
      exact attended.registered other known
  next => exact attended

/-- Closing a document forgets what was received for it. -/
theorem Attended.didClose (attended : relay.Attended) (workspace : Workspace) (id : NotebookId) :
    (relay.didClose workspace id).2.1.Attended ∧
      (relay.didClose workspace id).2.1.publisher = relay.publisher.forget id := by
  unfold Relay.didClose
  split
  next missing =>
    obtain ⟨nothing, idle⟩ := attended.unknown missing
    exact ⟨attended, (forget_unknown nothing idle).symm⟩
  next =>
    refine ⟨⟨fun other waits => ?_, fun other known => ?_⟩, rfl⟩
    · obtain ⟨old, apart⟩ := List.mem_filter.mp waits
      rw [forget, Table.get?_erase, if_neg (Ne.symm (of_decide_eq_true apart))]
      exact attended.received other old
    · rw [forget, Table.get?_erase] at known
      rw [document?, Table.get?_erase]
      split at known
      next => cases known
      next apart =>
        rw [if_neg apart]
        exact attended.registered other known

end Relay

/-! ## The record -/

namespace Desk

/-- Something that happened, and the desk as it was before. -/
structure Stage where
  before : Desk
  dealing : Dealing

/-- All that happened at a desk that was empty at first, the last first. -/
inductive Annals : List Stage → Desk → Prop
  | start (settings : RelaySettings) : Annals [] { relay := { settings }, workspace := {} }
  | step {past : List Stage} {desk : Desk} (dealing : Dealing) : Annals past desk →
      dealing.Admitted → Annals (⟨desk, dealing⟩ :: past) (desk.perform dealing)

/-- What this does to the publisher, if anything. -/
def Stage.act? (stage : Stage) : Option Publisher.Act :=
  match stage.dealing with
  | .notice method params =>
    match ServerNotice.decode? method params, (stage.before.relay.notice method params).1 with
    | some (.diagnostics set), .queued id => some (.schedule id set)
    | _, _ => none
  | .refreshDiagnostics id =>
    if (stage.before.relay.refreshDiagnostics id).1 then some (.enqueue id) else none
  | .didClose id => some (.forget id)
  | .drainDiagnostics => some .drain
  | _ => none

/-- All that was done to the publisher, the last first. -/
def acts (past : List Stage) : List Publisher.Act := past.filterMap Stage.act?

variable {past : List Stage} {desk : Desk} {id : NotebookId}

theorem Annals.run (annals : Annals past desk) : Run desk := by
  induction annals with
  | start settings => exact .start settings
  | step dealing _ admitted ih => exact ih.step dealing admitted

theorem Annals.orderly (annals : Annals past desk)
    (fair : ∀ stage ∈ past, stage.dealing.IsOrderly) : desk.workspace.Orderly := by
  induction annals with
  | start =>
    intro id session opened
    cases opened
  | step dealing _ _ ih =>
    obtain ⟨here, fair⟩ := List.forall_mem_cons.mp fair
    exact orderly_perform (ih fair) here

theorem attended_perform (attended : desk.relay.Attended) (dealing : Dealing) :
    (desk.perform dealing).relay.Attended := by
  let relay := desk.relay
  cases dealing with
  | operate notebook operation =>
    simp only [perform]
    split <;> exact attended
  | didOpen notebook =>
    exact attended.of_alike (relay.alike_didOpen _ notebook) (relay.document?_didOpen _ notebook)
  | didClose notebook => exact (attended.didClose _ notebook).1
  | flush notebook =>
    exact attended.of_alike (relay.alike_flush _ notebook) (relay.document?_flush _ notebook)
  | request surface method params =>
    exact attended.of_asks (relay.asks_request _ surface method params)
  | requestFlushed surface method params =>
    exact attended.of_alike (relay.alike_requestFlushed _ surface method params)
      (relay.document?_requestFlushed _ surface method params)
  | answer message => exact attended.of_asks (relay.asks_answer _ message)
  | notice method params => exact attended.notice method params
  | drainDiagnostics => exact ⟨fun _ waits => absurd waits List.not_mem_nil, attended.registered⟩
  | refreshDiagnostics notebook => exact attended.refreshDiagnostics notebook
  | openEditor | closeEditor | insert | openText | close => exact attended

/-- The publisher is left as it was, or that is done to it which the record tells. -/
theorem publisher_perform (attended : desk.relay.Attended) (dealing : Dealing) :
    (desk.perform dealing).relay.publisher =
      ((⟨desk, dealing⟩ : Stage).act?.elim desk.relay.publisher (·.perform desk.relay.publisher)) := by
  let relay := desk.relay
  -- Only notices, closing a document and the two functions of the publisher touch it.
  cases dealing with
  | operate notebook operation =>
    simp only [perform]
    split <;> rfl
  | didOpen notebook => exact (relay.alike_didOpen _ notebook).publisher
  | didClose notebook => exact (attended.didClose _ notebook).2
  | flush notebook => exact (relay.alike_flush _ notebook).publisher
  | request surface method params => exact (relay.asks_request _ surface method params).publisher
  | requestFlushed surface method params =>
    exact (relay.alike_requestFlushed _ surface method params).publisher
  | answer message => exact (relay.asks_answer _ message).publisher
  | notice method params =>
    simp only [perform, Stage.act?, Relay.notice]
    cases ServerNotice.decode? method params with
    | none => rfl
    | some notice =>
      cases notice with
      | diagnostics set =>
        dsimp only
        cases desk.relay.notebookOf? set.uri <;> rfl
      | display | log => rfl
  | refreshDiagnostics notebook =>
    simp only [perform, Stage.act?, Relay.refreshDiagnostics, refresh]
    split <;> rfl
  | openEditor | closeEditor | insert | openText | close | drainDiagnostics => rfl

/-- The publisher holds what the record tells. -/
theorem Annals.told (annals : Annals past desk) :
    Told (acts past) desk.relay.publisher ∧ desk.relay.Attended := by
  -- Closing a document that is not registered forgets nothing, so both are carried along.
  induction annals with
  | start => exact ⟨told_nil, by simp, by simp⟩
  | @step past desk dealing _ _ ih =>
    obtain ⟨told, attended⟩ := ih
    refine ⟨?_, attended_perform attended dealing⟩
    rw [publisher_perform attended, acts, List.filterMap_cons]
    cases (⟨desk, dealing⟩ : Stage).act? with
    | none => exact told
    | some act => exact told.step act

/-- A set that was received was read off a notice. -/
theorem decoded_of_lastReceived {set : DiagnosticSet} (newest : LastReceived id set (acts past)) :
    ∃ params, DiagnosticSet.decode? params = some set := by
  obtain ⟨later, act, earlier, split, rfl, -⟩ := newest
  have member : .schedule id set ∈ acts past := split ▸ List.mem_append_right _ List.mem_cons_self
  obtain ⟨⟨before, dealing⟩, -, told⟩ := List.mem_filterMap.mp member
  cases dealing with
  | notice method params =>
    simp only [Stage.act?] at told
    split at told
    next decoded _ =>
      obtain ⟨rfl, rfl⟩ := Publisher.Act.schedule.inj (Option.some.inj told)
      exact ⟨params, ServerNotice.diagnostics_of_decode? decoded⟩
    next => cases told
  | refreshDiagnostics notebook =>
    simp only [Stage.act?] at told
    split at told <;> cases told
  | _ => cases told

/-! ## What is published -/

/-- What the facade shows of a set: the diagnostics on lines of code. -/
def facadeSet (id : NotebookId) (uri : Text) (session : Session) (set : DiagnosticSet) : Published where
  target := .facade id
  set := { uri, diagnostics := onCode session set.diagnostics }

/-- What the editor shows of a set: of these, what starts in the content of its cell. -/
def editorSet (surface : SurfaceId) (uri : Text) (session : Session) (span : Span)
    (set : DiagnosticSet) : Published where
  target := .editor surface
  set := { uri, diagnostics := fromContent span (onCode session set.diagnostics) }

/-- The editor counts lines from the first content line of its cell. So no line is above it, and a
content line is a line of its buffer, unless that is dirty or was exchanged. -/
structure CountsFrom (past : List Stage) (editor : Editor) (span : Span) : Prop where
  offset : editor.lineOffset = span.contentStart
  above : ∀ line, span.containsContent line = true → editor.lineOffset ≤ line
  within : (∀ stage ∈ past, stage.dealing.IsOrderly) → editor.isDirty = false →
    ∀ line, span.containsContent line = true → line - editor.lineOffset < editor.buffer.lineCount

/-- What is published of a notebook that waits: nothing if it is closed or not registered, and otherwise
what its facade shows of the newest set, after what its editor shows if the handle of that is live. -/
inductive Shown (past : List Stage) (desk : Desk) (id : NotebookId) : List Published → Prop
  | nothing : desk.workspace.session? id = none ∨ desk.relay.document? id = none →
      Shown past desk id []
  | facade {session : Session} {document : Document} {set : DiagnosticSet} :
      desk.workspace.session? id = some session → desk.relay.document? id = some document →
      LastReceived id set (acts past) → desk.workspace.editorSurface? id = none →
      Shown past desk id [facadeSet id document.addresses.facade session set]
  | both {session : Session} {document : Document} {set : DiagnosticSet} {surface : SurfaceId}
      {editor : Editor} {index : Nat} {span : Span} :
      desk.workspace.session? id = some session → desk.relay.document? id = some document →
      LastReceived id set (acts past) → desk.workspace.editorSurface? id = some surface →
      session.editor = some editor → session.cells.indexOf? editor.cell = some index →
      session.spanOf? index = some span → CountsFrom past editor span →
      Shown past desk id [editorSet surface document.addresses.facade session span set,
        facadeSet id document.addresses.facade session set]

theorem Annals.countsFrom (annals : Annals past desk) {session : Session} {editor : Editor}
    (opened : desk.workspace.session? id = some session) (sits : session.editor = some editor) :
    CountsFrom past editor editor.span := by
  refine ⟨rfl, fun line => contentStart_le, fun fair clean line inside => ?_⟩
  obtain ⟨settings, orderly⟩ := annals.orderly fair id session opened
  exact line_in_editor orderly sits clean inside

/-- A notebook that waits is published as it is now. -/
theorem Annals.shown (annals : Annals past desk) (waits : id ∈ desk.relay.publisher.queue) :
    Shown past desk id (desk.relay.publisher.publish desk.workspace
      (fun id => (desk.relay.addresses? id).map (·.facade)) id) := by
  obtain ⟨told, attended⟩ := annals.told
  obtain ⟨set, received⟩ := Option.isSome_iff_exists.mp (attended.received id waits)
  have newest := (told.latest id set).mp received
  obtain ⟨document, registered⟩ := Option.isSome_iff_exists.mp
    (attended.registered id (Option.isSome_of_eq_some received))
  have uri : (desk.relay.addresses? id).map (·.facade) = some document.addresses.facade := by
    rw [Relay.addresses?, registered]
    rfl
  rw [publish, received, uri]
  cases opened : desk.workspace.session? id with
  | none => exact .nothing (.inl opened)
  | some session =>
    obtain ⟨settings, reachable⟩ := annals.run.accounted.grown id session opened
    dsimp only
    rw [filter_isInCode reachable.posed.anchored, editorSet?]
    cases live : desk.workspace.editorSurface? id with
    | none => exact .facade opened registered newest live
    | some surface =>
      obtain ⟨editor, sits⟩ := exists_editor annals.run.editorsApart live opened
      obtain ⟨index, place, stands⟩ := editor_stands reachable sits
      -- Lines that were read from a notice are in 32 bits, and so is an offset that they are not above.
      obtain ⟨params, decoded⟩ := decoded_of_lastReceived newest
      have short : ∀ diagnostic ∈ onCode session set.diagnostics,
          diagnostic.range.start.line < 0x100000000 :=
        fun diagnostic member => line_lt_of_decode? decoded diagnostic (List.mem_of_mem_filter member)
      simp only [sits, Editor.lineOffset, Option.bind_eq_bind, Option.bind_some, Option.toList_some,
        List.singleton_append, shiftedUp_word short]
      exact .both opened registered newest live sits place stands (annals.countsFrom opened sits)

end Desk

end Notebook.Lsp

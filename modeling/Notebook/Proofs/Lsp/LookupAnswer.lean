import Notebook.Proofs.Lsp.Desk
import Notebook.Proofs.Lsp.Readdress
/-!
# Answers to lookups

A shadow is always addressed by a file URI and a preview by one of its scheme, so neither is taken for
a part of a position. The answer to a lookup from an editor, unless it leads to the notebook itself,
is handed back with every position it holds: bare ones are counted from the first line of the editor,
and all others stay where they are. Bare are also those under the entries of `changes` and in the
edits of `documentChanges`, whatever document these are keyed or addressed by.
-/
namespace Notebook.Lsp

open Workspace

/-! ## Every document has the addresses of its path -/

/-- The addresses of registered notebooks were made from their paths. -/
def Relay.Addressed (relay : Relay) : Prop :=
  ∀ entry ∈ relay.documents, ∃ path settings, entry.2.addresses = Addresses.ofPath path settings

namespace Relay

variable {relay after : Relay} {workspace : Workspace}

theorem Addressed.of_same (addressed : relay.Addressed) (same : after.documents = relay.documents) :
    after.Addressed := by
  rw [Addressed, same]
  exact addressed

theorem Addressed.didOpen (addressed : relay.Addressed) (workspace : Workspace) (id : NotebookId) :
    (relay.didOpen workspace id).2.1.Addressed := by
  unfold Relay.didOpen
  split
  next => exact addressed
  next entry _ =>
    intro bound member
    rcases Table.mem_set member with old | rfl
    · exact addressed bound old
    · exact ⟨entry.path, relay.settings, rfl⟩

theorem Addressed.didClose (addressed : relay.Addressed) (workspace : Workspace) (id : NotebookId) :
    (relay.didClose workspace id).2.1.Addressed := by
  unfold Relay.didClose
  split
  next => exact addressed
  next => exact fun entry member => addressed entry (List.mem_of_mem_filter member)

/-- Changing a document leaves its addresses. -/
theorem Addressed.flush (addressed : relay.Addressed) (workspace : Workspace) (id : NotebookId) :
    (relay.flush workspace id).2.1.Addressed := by
  rcases relay.flush_cases workspace id with same | ⟨document, _, registered, -, same⟩ <;> rw [same]
  · exact addressed
  · intro bound member
    rcases Table.mem_set member with old | rfl
    · exact addressed bound old
    · obtain ⟨path, settings, made⟩ := addressed _ (Table.mem_of_get? registered)
      exact ⟨path, settings, (document.addresses_changed _).trans made⟩

theorem Addressed.requestFlushed (addressed : relay.Addressed) (workspace : Workspace)
    (surface : SurfaceId) (method : Text) (params : Json) :
    (relay.requestFlushed workspace surface method params).2.1.Addressed := by
  apply requestFlushed_steps (motive := fun after _ => after.Addressed)
  case here => exact addressed
  case brought => exact fun _ _ _ _ _ => addressed
  case flushed => exact fun id workspace _ => addressed.flush workspace id
  case asked =>
    exact fun after workspace known =>
      known.of_same (after.asks_request workspace surface method params).documents

theorem asks_answerPending (relay : Relay) (session : Session) (addresses : Addresses)
    (origin : Origin) (pending : Pending) (result : Json) :
    relay.Asks (relay.answerPending session addresses origin pending result).2.1 := by
  unfold answerPending
  split
  · exact .refl relay
  · exact .refl relay
  · exact .refl relay
  next job _ =>
    unfold answerFormatNotebook
    split
    next => exact .refl relay
    next applied later _ =>
      have asked := asks_requestFormat relay later origin addresses.shadow job.options applied
        job.remaining
      split <;> rwa [‹requestFormat _ _ _ _ _ _ _ = _›] at asked

/-- Answers only lead to further requests. -/
theorem asks_answer (relay : Relay) (workspace : Workspace) (message : Json) :
    relay.Asks (relay.answer workspace message).2.1 := by
  rcases relay.idle_or_waits message with idle | ⟨response, pending, decoded, waits⟩
  · rw [(answer_idle idle).1]
    exact .refl relay
  · have struck : relay.Asks { relay with pending := Table.erase relay.pending response.id } :=
      ⟨⟨rfl, rfl⟩, rfl⟩
    rcases answer_cases decoded waits with ⟨outcome, same, -⟩ | ⟨origin, document, session, -, -, -, same⟩
    · rwa [same]
    · rw [same]
      exact struck.trans (asks_answerPending _ _ _ _ _ _)

theorem documents_notice (relay : Relay) (method : Text) (params : Json) :
    (relay.notice method params).2.documents = relay.documents := by
  unfold notice
  split
  · split <;> rfl
  all_goals rfl

end Relay

/-- How the answers to lookups are readdressed that do not lead to the notebook itself. -/
def Origin.readdressing (origin : Origin) (addresses : Addresses) : Readdressing where
  shadow := addresses.shadow
  target := addresses.preview
  offset := origin.lineOffset

/-- The notebook of a surface that is live is open. -/
theorem Origin.exists_session {workspace : Workspace} {surface : SurfaceId} {origin : Origin}
    (located : Origin.of? workspace surface = some origin) :
    ∃ session, workspace.session? origin.notebook = some session := by
  obtain ⟨found, resolved, located⟩ := Option.bind_eq_some_iff.mp located
  obtain ⟨known, live, resolved⟩ := Option.bind_eq_some_iff.mp resolved
  obtain ⟨session, opened, resolved⟩ := Option.bind_eq_some_iff.mp resolved
  obtain rfl : known = found := by
    split at resolved
    · cases resolved
    · exact Option.some.inj resolved
  refine ⟨session, ?_⟩
  split at located
  next =>
    obtain ⟨_, -, located⟩ := Option.bind_eq_some_iff.mp located
    obtain ⟨editor, -, located⟩ := Option.bind_eq_some_iff.mp located
    obtain rfl := Option.some.inj located
    exact opened
  next =>
    obtain rfl := Option.some.inj located
    exact opened

theorem colon_mem_shadow (path : Text) (settings : RelaySettings) :
    ':' ∈ (Addresses.ofPath path settings).shadow := by
  change ':' ∈ Uri.ofPath _
  unfold Uri.ofPath
  split <;> exact List.mem_append_left _ (by decide)

theorem colon_mem_preview (path : Text) (settings : RelaySettings) :
    ':' ∈ (Addresses.ofPath path settings).preview := by
  change ':' ∈ Uri.preview _ _
  simp [Uri.preview]

/-- Addresses are URIs, and no member of a position is called like that. -/
theorem proper_ofPath (path : Text) (settings : RelaySettings) (offset : Nat) :
    Readdressing.Proper {
      shadow := (Addresses.ofPath path settings).shadow
      target := (Addresses.ofPath path settings).preview
      offset } := by
  have colon {name : Text} {address : Text} (plain : ':' ∉ name) (uri : ':' ∈ address) :
      address ≠ name := fun same => plain (same ▸ uri)
  have shadow := colon_mem_shadow path settings
  have preview := colon_mem_preview path settings
  exact ⟨⟨colon (by decide) shadow, colon (by decide) shadow⟩,
    ⟨colon (by decide) preview, colon (by decide) preview⟩⟩

namespace Desk

variable {desk : Desk}

theorem Run.addressed (run : Run desk) : desk.relay.Addressed := by
  induction run with
  | start settings => exact List.forall_mem_nil _
  | @step desk dealing _ admitted ih =>
    cases dealing with
    | operate notebook operation =>
      simp only [perform]
      split <;> exact ih
    | didOpen notebook => exact ih.didOpen desk.workspace notebook
    | didClose notebook => exact ih.didClose desk.workspace notebook
    | flush notebook => exact ih.flush desk.workspace notebook
    | request surface method params =>
      exact ih.of_same (desk.relay.asks_request desk.workspace surface method params).documents
    | requestFlushed surface method params =>
      exact ih.requestFlushed desk.workspace surface method params
    | answer message => exact ih.of_same (desk.relay.asks_answer desk.workspace message).documents
    | notice method params => exact ih.of_same (Relay.documents_notice desk.relay method params)
    | openEditor | closeEditor | insert | openText | close | drainDiagnostics | refreshDiagnostics =>
      exact ih

theorem Run.proper (run : Run desk) {origin : Origin} {addresses : Addresses}
    (registered : desk.relay.addresses? origin.notebook = some addresses) :
    (origin.readdressing addresses).Proper := by
  obtain ⟨document, known, rfl⟩ := Option.map_eq_some_iff.mp registered
  obtain ⟨path, settings, made⟩ := run.addressed _ (Table.mem_of_get? known)
  rw [Origin.readdressing, made]
  exact proper_ofPath path settings origin.lineOffset

/-- The answer to a lookup that does not lead to the notebook itself is handed back to the surface, if
that is still live, its notebook registered, and the server did not refuse. Wherever a position stood
in the result there is one now, at the same place up to renamed keys. It has the character it had, and
the line it had, less the lines above the editor if the position is bare. Only what stood beside an
entry for the shadow under the name of the preview is lost. -/
theorem Run.lookup_answered (run : Run desk) {message : Json} {response : Response} {pending : Pending}
    {origin : Origin} {addresses : Addresses}
    (decoded : Response.decode? message = some response) (succeeded : response.error = none)
    (waits : Table.get? desk.relay.pending response.id = some pending)
    (lookup : pending.purpose = .lookup) (elsewhere : pending.method ∉ Relay.navigationMethods)
    (located : Origin.of? desk.workspace pending.origin = some origin)
    (registered : desk.relay.addresses? origin.notebook = some addresses) :
    ∃ value, (desk.relay.answer desk.workspace message).1 =
        .ok (.result pending.origin pending.method value []) ∧
      ∀ way line character,
        ((Json.orNull response.result).at? way).bind position? = some (line, character) →
        (origin.readdressing addresses).keeps (Json.orNull response.result) way = true →
        (value.at? (way.map (origin.readdressing addresses).turned)).bind position? =
          some (if isBare (Json.orNull response.result) way then line - origin.lineOffset else line,
            character) := by
  obtain ⟨session, opened⟩ := Origin.exists_session located
  have navigation : (Relay.navigationMethods.any fun name => pending.method = name) = false := by
    rw [List.any_eq_false]
    rintro name member same
    exact elsewhere (of_decide_eq_true same ▸ member)
  have known (waiting : Table Nat Pending) : { desk.relay with pending := waiting }.addresses?
      origin.notebook = some addresses := registered
  refine ⟨(origin.readdressing addresses).inbound (0 < origin.lineOffset)
    (Json.orNull response.result), ?_, fun way line character found kept => ?_⟩
  · simp only [Relay.answer, decoded, waits, located, known, succeeded, opened, Relay.answerPending,
      lookup, Relay.lookupResult, navigation, (Origin.of?_spec located).1]
    rfl
  · rw [Readdressing.position?_at?_inbound (run.proper registered) found kept]
    -- Without an offset it makes no difference what is bare.
    congr 2
    by_cases below : 0 < origin.lineOffset
    · rw [decide_eq_true below, Bool.true_and]
      rfl
    · rw [Nat.eq_zero_of_not_pos below, decide_eq_false (Nat.lt_irrefl 0), Bool.false_and,
        Nat.sub_zero, ite_self]
      rfl

end Desk

/-- So the edits of another document are counted from the editor. -/
theorem lookup_moves_foreign_edits :
    let result := Json.object [("changes", Json.object [("file:///lib.py", .arr [
      Json.object [("newText", .str "y"), ("range", Range.encode ⟨⟨5, 0⟩, ⟨5, 1⟩⟩)]])])]
    let way : List Turn :=
      [.member "changes", .member "file:///lib.py", .item 0, .member "range", .member "start"]
    ∃ (session : Session) (desk : Desk) (origin : Origin) (value : Json),
      Session.ofCells [{ id := "a", kind := .code, source := "x" }] {} = .ok session ∧
      desk = [.insert "/a.ipynb" session, .didOpen ⟨0⟩, .openEditor ⟨0⟩ 0,
        .request ⟨3⟩ "textDocument/codeAction" (Json.object [])].foldl Desk.perform
          { relay := {}, workspace := {} } ∧
      Origin.of? desk.workspace ⟨3⟩ = some origin ∧ origin.kind = .editor ∧
      (desk.relay.answer desk.workspace (Json.object [("id", .nat 0), ("result", result)])).1 =
        .ok (.result ⟨3⟩ "textDocument/codeAction" value []) ∧
      (result.at? way).bind position? = some (5, 0) ∧
      (value.at? way).bind position? = some (4, 0) := by
  intro result way
  have start : Session.Reachable {} _ := .cells
    (rfl : Session.ofCells [{ id := "a", kind := .code, source := "x" }] {} = .ok _)
  have run := ((((Desk.Run.start {}).step (.insert "/a.ipynb" _) ⟨_, start⟩).step (.didOpen ⟨0⟩)
    trivial).step (.openEditor ⟨0⟩ 0) trivial).step
      (.request ⟨3⟩ "textDocument/codeAction" (Json.object [])) trivial
  have decoded : Response.decode? (Json.object [("id", .nat 0), ("result", result)]) =
    some { id := 0, result, error := none } := by decide +kernel
  obtain ⟨value, answered, places⟩ := run.lookup_answered decoded rfl
    (show _ = some ⟨"textDocument/codeAction", ⟨3⟩, ⟨0⟩, .lookup⟩ by decide +kernel) rfl
    (by decide +kernel) (show _ = some ⟨⟨3⟩, ⟨0⟩, .editor, 1, some "a"⟩ by decide +kernel)
    (show _ = some (Addresses.ofPath "/a.ipynb" {}) by decide +kernel)
  refine ⟨_, _, ⟨⟨3⟩, ⟨0⟩, .editor, 1, some "a"⟩, value, rfl, rfl, by decide +kernel, rfl, answered,
    by decide +kernel, ?_⟩
  exact (places way 5 0 (by decide +kernel) (by decide +kernel)).trans (by decide +kernel)

end Notebook.Lsp

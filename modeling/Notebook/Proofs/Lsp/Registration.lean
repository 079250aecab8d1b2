import Notebook.Lsp.Relay.Answer
import Notebook.Proofs.Lsp.Relay
import Notebook.Proofs.Session.Editor
import Notebook.Proofs.Session.Edits
import Notebook.Proofs.Workspace.Continues
/-!
# Requests and what they remember

A request that is registered remembers what it found: for a rename the revision of the facade and the
version of the document, for formatting the cell and where it stood. Everything that the relay does
leads the notebooks on by operations, and adds at most one request to those that wait.
-/
namespace Notebook.Lsp

open Workspace

/-- The cell that formatting is about, and where it stood when it was asked for. -/
def Purpose.target? : Purpose → Option (Text × Span)
  | .formatRange cell span => some (cell, span)
  | .formatNotebook job => some (job.cell, job.span)
  | _ => none

/-- A request waits that was registered with a relay and a workspace. -/
structure Pending.Recalls (pending : Pending) (relay : Relay) (workspace : Workspace)
    (document : Document) (session : Session) : Prop where
  surface : ∃ found, Table.get? workspace.surfaces pending.origin = some found ∧
    found.notebook = pending.notebook
  registered : relay.document? pending.notebook = some document
  opened : workspace.session? pending.notebook = some session
  rename : pending.method = "textDocument/rename" →
    pending.purpose = .rename session.facade.revision document.version
  formatting : pending.method = "textDocument/rangeFormatting" → ∃ index cell span,
    pending.purpose.target? = some (cell.id, span) ∧ session.cells.get? index = some cell ∧
      session.spanOf? index = some span
  ranged : ∀ id span, pending.purpose = .formatRange id span → ∃ index cell, cell.id = id ∧
    session.cells.get? index = some cell ∧ session.spanOf? index = some span ∧
      cell.kind.isCode = true

/-- The relay went on, and a request was registered at last if one was handed out. -/
structure Relay.Handed (relay : Relay) (asked : Option Request) (after : Relay)
    (workspace : Workspace) : Prop where
  next : after.next = relay.next + asked.toList.length
  number : ∀ request ∈ asked, request.id = relay.next
  distinct : Table.Distinct relay.pending → Table.Distinct after.pending
  pending : Table.Distinct relay.pending → ∀ number pending,
    Table.get? after.pending number = some pending → Table.get? relay.pending number = some pending ∨
      number = relay.next ∧ asked.isSome ∧ ∃ document session,
        pending.Recalls after workspace document session

theorem Origin.of?_spec {workspace : Workspace} {surface : SurfaceId} {origin : Origin}
    (located : Origin.of? workspace surface = some origin) : origin.surface = surface ∧
      ∃ found, Table.get? workspace.surfaces surface = some found ∧
        found.notebook = origin.notebook := by
  obtain ⟨found, resolved, located⟩ := Option.bind_eq_some_iff.mp located
  have live : Table.get? workspace.surfaces surface = some found := by
    obtain ⟨known, live, resolved⟩ := Option.bind_eq_some_iff.mp resolved
    obtain ⟨session, -, resolved⟩ := Option.bind_eq_some_iff.mp resolved
    split at resolved
    · cases resolved
    · rwa [← Option.some.inj resolved]
  -- Only an editor is looked up further, and that changes nothing of what the handle means.
  split at located
  next =>
    obtain ⟨session, -, located⟩ := Option.bind_eq_some_iff.mp located
    obtain ⟨editor, -, located⟩ := Option.bind_eq_some_iff.mp located
    obtain rfl := Option.some.inj located
    exact ⟨rfl, found, live, rfl⟩
  next =>
    obtain rfl := Option.some.inj located
    exact ⟨rfl, found, live, rfl⟩

namespace Relay

variable {relay after : Relay} {workspace : Workspace}

/-! ## What is registered -/

theorem Handed.of_same (next : after.next = relay.next) (pending : after.pending = relay.pending) :
    relay.Handed none after workspace :=
  ⟨next, by simp, fun distinct => pending ▸ distinct, fun _ _ _ waits => .inl (pending ▸ waits)⟩

/-- Requests that are struck from those that wait are no matter. -/
theorem Handed.of_filter (next : after.next = relay.next) (keep : Nat × Pending → Bool)
    (pending : after.pending = relay.pending.filter keep) : relay.Handed none after workspace :=
  ⟨next, by simp, fun distinct => pending ▸ distinct.filter keep,
    fun distinct _ _ waits => .inl (distinct.get?_of_filter (pending ▸ waits))⟩

theorem Handed.from {former : Relay} {asked : Option Request} (next : relay.next = former.next)
    (distinct : Table.Distinct former.pending → Table.Distinct relay.pending)
    (pending : Table.Distinct former.pending → ∀ number pending,
      Table.get? relay.pending number = some pending → Table.get? former.pending number = some pending)
    (handed : relay.Handed asked after workspace) : former.Handed asked after workspace := by
  refine ⟨next ▸ handed.next, next ▸ handed.number, handed.distinct ∘ distinct, ?_⟩
  intro apart number waiting waits
  rcases handed.pending (distinct apart) number waiting waits with old | new
  · exact .inl (pending apart number waiting old)
  · exact .inr (next ▸ new)

/-- Registering a request hands it out. -/
theorem handed_register {origin : Origin} {found : Surface} {document : Document} {session : Session}
    (live : Table.get? workspace.surfaces origin.surface = some found)
    (notebook : found.notebook = origin.notebook)
    (registered : relay.document? origin.notebook = some document)
    (opened : workspace.session? origin.notebook = some session) (method : Text) (params : Json)
    {purpose : Purpose}
    (rename : method = "textDocument/rename" →
      purpose = .rename session.facade.revision document.version)
    (formatting : method = "textDocument/rangeFormatting" → ∃ index cell span,
      purpose.target? = some (cell.id, span) ∧ session.cells.get? index = some cell ∧
        session.spanOf? index = some span)
    (ranged : ∀ id span, purpose = .formatRange id span → ∃ index cell, cell.id = id ∧
      session.cells.get? index = some cell ∧ session.spanOf? index = some span ∧
        cell.kind.isCode = true) :
    relay.Handed (some (relay.register method params origin purpose).1)
      (relay.register method params origin purpose).2 workspace := by
  refine ⟨rfl, ?_, fun distinct => distinct.set _ _, ?_⟩
  · rintro request ⟨⟩
    rfl
  · intro _ number pending waits
    rw [register, Table.get?_set] at waits
    split at waits
    next here =>
      obtain rfl := Option.some.inj waits
      exact .inr ⟨here.symm, rfl, document, session, ⟨found, live, notebook⟩, registered, opened,
        rename, formatting, ranged⟩
    next => exact .inl waits

theorem exists_cell_of_indexOf? {session : Session} {id : Text} {span : Span}
    (found : (session.cells.indexOf? id).bind session.spanOf? = some span) : ∃ index cell,
      cell.id = id ∧ session.cells.get? index = some cell ∧ session.spanOf? index = some span := by
  obtain ⟨index, there, stands⟩ := Option.bind_eq_some_iff.mp found
  obtain ⟨bound, same, -⟩ := List.findIdx?_eq_some_iff_getElem.mp there
  exact ⟨index, session.cells.cells[index], by simpa using same, List.getElem?_eq_getElem bound, stands⟩

/-- Formatting the next cell hands out a request about it, if there is one that exists. -/
theorem handed_requestFormat {origin : Origin} {found : Surface} {document : Document}
    {session : Session} (live : Table.get? workspace.surfaces origin.surface = some found)
    (notebook : found.notebook = origin.notebook)
    (registered : relay.document? origin.notebook = some document)
    (opened : workspace.session? origin.notebook = some session) (uri : Text) (options : Json)
    (applied : Nat) (cells : List Text) :
    relay.Handed (relay.requestFormat session origin uri options applied cells).1
      (relay.requestFormat session origin uri options applied cells).2 workspace := by
  induction cells with
  | nil => exact .of_same rfl rfl
  | cons cell remaining ih =>
    unfold requestFormat
    split
    next => exact ih
    next span stands =>
      obtain ⟨index, held, rfl, here, stands⟩ := exists_cell_of_indexOf? stands
      -- It goes out as formatting of a range, and is no rename.
      refine handed_register live notebook registered opened _ _ (fun other => ?_)
        (fun _ => ⟨index, held, span, rfl, here, stands⟩) nofun
      exact absurd other (by decide)

theorem codeCellAt?_spec {session : Session} {line : Nat} {cell : Cell} {span : Span}
    (found : codeCellAt? session line = some (cell, span)) : ∃ index,
      session.cells.get? index = some cell ∧ session.spanOf? index = some span ∧
        cell.kind.isCode = true ∧ span.containsContent line = true := by
  obtain ⟨index, -, found⟩ := Option.bind_eq_some_iff.mp found
  obtain ⟨held, here, found⟩ := Option.bind_eq_some_iff.mp found
  obtain ⟨place, stands, found⟩ := Option.bind_eq_some_iff.mp found
  split at found
  next fits =>
    obtain ⟨rfl, rfl⟩ := Prod.mk.inj (Option.some.inj found)
    exact ⟨index, here, stands, fits⟩
  next => cases found

/-- The formatting of a range is about a code cell. -/
theorem formatTarget_spec {session : Session} {range : Range} {id : Text} {span : Span}
    (target : formatTarget session range = .ok (id, span)) : ∃ index cell, cell.id = id ∧
      session.cells.get? index = some cell ∧ session.spanOf? index = some span ∧
        cell.kind.isCode = true := by
  unfold formatTarget at target
  split at target
  next => cases target
  next cell stood here =>
    split at target
    next =>
      obtain ⟨index, there, stands, code, -⟩ := codeCellAt?_spec here
      obtain ⟨rfl, rfl⟩ := Prod.mk.inj (Except.ok.inj target)
      exact ⟨index, cell, rfl, there, stands, code⟩
    next => cases target

/-- A request to format a range is registered as one, and no other request is. -/
theorem purposeOf_formatRange {session : Session} {document : Document} {method : Text}
    {params : Json} {purpose : Purpose}
    (meant : purposeOf session document method params = .ok purpose)
    (format : method = "textDocument/rangeFormatting" ∨ ∃ id span, purpose = .formatRange id span) :
    ∃ range target, formatTarget session range = .ok target ∧
      purpose = .formatRange target.1 target.2 := by
  unfold purposeOf at meant
  split at meant
  next =>
    split at meant
    next => cases meant
    next range _ =>
      cases aimed : formatTarget session range with
      | error fault =>
        rw [aimed] at meant
        cases meant
      | ok target =>
        rw [aimed] at meant
        exact ⟨range, target, aimed, (Except.ok.inj meant).symm⟩
  next other =>
    rcases format with same | ⟨id, span, rfl⟩
    · exact absurd same other
    · split at meant <;> cases meant

theorem handed_request (relay : Relay) (workspace : Workspace) (surface : SurfaceId) (method : Text)
    (params : Json) :
    relay.Handed ((relay.request workspace surface method params).1.toOption.bind id)
      (relay.request workspace surface method params).2 workspace := by
  unfold request
  split
  next => exact .of_same rfl rfl
  next origin located =>
    obtain ⟨rfl, found, live, notebook⟩ := Origin.of?_spec located
    split
    next => exact .of_same rfl rfl
    next document registered =>
      split
      next => exact .of_same rfl rfl
      next session opened =>
        dsimp only
        split
        next => exact handed_requestFormat live notebook registered opened _ _ _ _
        next =>
          split
          next => exact .of_same rfl rfl
          next purpose meant =>
            -- What the answer will be used for is fixed by the method, and is recalled as it was then.
            refine handed_register live notebook registered opened _ _ ?_ ?_ ?_
            · rintro rfl
              rw [purposeOf, if_neg (by decide), if_pos rfl] at meant
              exact (Except.ok.inj meant).symm
            · rintro rfl
              obtain ⟨range, target, aimed, rfl⟩ := purposeOf_formatRange meant (.inl rfl)
              obtain ⟨index, cell, id, there, stands, -⟩ := formatTarget_spec aimed
              exact ⟨index, cell, target.2, by rw [id]; rfl, there, stands⟩
            · rintro id span rfl
              obtain ⟨range, target, aimed, same⟩ := purposeOf_formatRange meant (.inr ⟨id, span, rfl⟩)
              obtain ⟨rfl, rfl⟩ := Purpose.formatRange.inj same
              exact formatTarget_spec aimed

end Relay

/-! ## How the notebooks go on -/

theorem steered_broughtIn (session : Session) : session.Steered session.broughtIn := by
  have synced : session.Steered session.syncEditor.2 := .one session .syncEditor trivial
  unfold Session.broughtIn Session.flushed
  split
  · split
    · rwa [‹session.syncEditor = _›] at synced
    · rwa [‹session.syncEditor = _›] at synced
  · exact .still

theorem leads_broughtIn (session : Session) : session.Leads session.broughtIn :=
  (steered_broughtIn session).leads

/-- A rename without edits does nothing, one with an edit outside of code is refused, and all else is
left to the edits of the facade. -/
theorem applyRename_cases (session : Session) (uri : Text) (result : Json) :
    let edits := TextEdit.toEdits session.facade (WorkspaceEdit.editsFor result uri)
    edits = [] ∧ applyRename session uri result = (.ok 0, session) ∨
    (∃ fault, applyRename session uri result = (.error fault, session)) ∨
    edits ≠ [] ∧ (∀ edit ∈ edits, isInsideCode session edit = true) ∧
      ((∃ fault after, session.editFacade edits .alone = (.error fault, after) ∧
        applyRename session uri result = (.error (.notebook fault), after)) ∨
      ∃ after, session.editFacade edits .alone = (.ok (), after) ∧
        applyRename session uri result = (.ok edits.length, after)) := by
  intro edits
  -- Edits are only put in another order and count as many.
  have length : edits.length = (WorkspaceEdit.editsFor result uri).length := by
    exact (Edit.bottomUp_perm _).length_eq.trans (List.length_map _)
  unfold applyRename
  dsimp only
  split
  next none =>
    rw [none, List.length_nil] at length
    exact .inl ⟨List.length_eq_zero_iff.mp length, rfl⟩
  next some =>
    have some : edits ≠ [] := by
      intro none
      rw [none, List.length_nil] at length
      exact some (List.length_eq_zero_iff.mp length.symm)
    split
    next inside =>
      refine .inr (.inr ⟨some, List.all_eq_true.mp inside, ?_⟩)
      split
      next fault after refused => exact .inl ⟨fault, after, refused, rfl⟩
      next after done => exact .inr ⟨after, done, rfl⟩
    next => exact .inr (.inl ⟨_, rfl⟩)

theorem steered_applyRename (session : Session) (uri : Text) (result : Json) :
    session.Steered (applyRename session uri result).2 := by
  let edits := TextEdit.toEdits session.facade (WorkspaceEdit.editsFor result uri)
  have edited : session.Steered (session.editFacade edits .alone).2 :=
    .one session (.editFacade edits .alone) trivial
  rcases applyRename_cases session uri result with
    ⟨-, same⟩ | ⟨_, same⟩ | ⟨-, -, ⟨_, after, done, same⟩ | ⟨after, done, same⟩⟩
  · rw [same]
    exact .still
  · rw [same]
    exact .still
  · rw [same]
    rwa [done] at edited
  · rw [same]
    rwa [done] at edited

theorem steered_applyFormat (session : Session) (id : Text) (expected : Span)
    (proposed : List TextEdit) : session.Steered (applyFormat session id expected proposed).2 := by
  unfold applyFormat
  split
  next => exact .still
  next =>
    split
    next => exact .still
    next edits _ =>
      have edited : session.Steered (session.editCell id expected edits).2 :=
        .one session (.editCell id expected edits) trivial
      split
      · rwa [‹session.editCell _ _ _ = _›] at edited
      · rwa [‹session.editCell _ _ _ = _›] at edited
      · rwa [‹session.editCell _ _ _ = _›] at edited

namespace Relay

variable {relay : Relay} {workspace : Workspace}

theorem steered_answerRename (session : Session) (id : NotebookId) (uri : Text)
    (revision version : Nat) (result : Json) :
    session.Steered (answerRename session id uri revision version result).2 := by
  have renamed := steered_applyRename session uri result
  unfold answerRename
  split
  · split
    all_goals rwa [‹applyRename _ _ _ = _›] at renamed
  · exact .still

theorem answerFormatRange_snd (session : Session) (id : NotebookId) (cell : Text) (span : Span)
    (result : Json) : (answerFormatRange session id cell span result).2 =
      (applyFormat session cell span (TextEdit.decodeAll result)).2 := by
  unfold answerFormatRange
  split
  all_goals rw [‹applyFormat _ _ _ _ = _›]

theorem formatStep_snd (session : Session) (job : FormatJob) (result : Json) :
    (formatStep session job result).2 =
      (applyFormat session job.cell job.span (TextEdit.decodeAll result)).2 := by
  unfold formatStep
  split
  all_goals rw [‹applyFormat _ _ _ _ = _›]

/-- An answer is used by an operation on the notebook, or by none. -/
theorem steered_answerPending (relay : Relay) (session : Session) (addresses : Addresses)
    (origin : Origin) (pending : Pending) (result : Json) :
    session.Steered (relay.answerPending session addresses origin pending result).2.2 := by
  unfold answerPending
  split
  next => exact .still
  next => exact steered_answerRename session _ _ _ _ result
  next =>
    dsimp only
    rw [answerFormatRange_snd]
    exact steered_applyFormat session _ _ _
  next job _ =>
    -- A round of a job makes the edits of one cell, and asking for the next cell changes nothing.
    have stepped : session.Steered (formatStep session job result).2 := by
      rw [formatStep_snd]
      exact steered_applyFormat session _ _ _
    unfold answerFormatNotebook
    split
    next => rwa [‹formatStep _ _ _ = _›] at stepped
    next =>
      rw [‹formatStep _ _ _ = _›] at stepped
      split <;> exact stepped

/-! ## What the relay does -/

theorem ledOn_didOpen (relay : Relay) (workspace : Workspace) (id : NotebookId) :
    LedOn workspace (relay.didOpen workspace id).2.2 := by
  unfold didOpen
  split
  next => exact .still
  next opened => exact ledOn_operation (session?_eq_some opened) (.trackShadow true) trivial

theorem ledOn_didClose (relay : Relay) (workspace : Workspace) (id : NotebookId) :
    LedOn workspace (relay.didClose workspace id).2.2 := by
  unfold didClose
  split
  next => exact .still
  next =>
    dsimp only
    split
    next opened => exact ledOn_operation opened (.trackShadow false) trivial
    next => exact .still

theorem ledOn_flush (relay : Relay) (workspace : Workspace) (id : NotebookId) :
    LedOn workspace (relay.flush workspace id).2.2 := by
  rcases relay.flush_cases workspace id with same | ⟨_, _, -, opened, same⟩ <;> rw [same]
  · exact .still
  · exact ledOn_operation opened .takeShadowSplices trivial

/-- A request that begins with a flush is refused before that, or after it, or goes out then. -/
theorem requestFlushed_steps {motive : Relay → Workspace → Prop} {surface : SurfaceId} {method : Text}
    {params : Json} (here : motive relay workspace)
    (brought : ∀ id former session, workspace.session? id = some former → former.Steered session →
      motive relay (workspace.setSession id session))
    (flushed : ∀ id workspace, motive relay workspace →
      motive (relay.flush workspace id).2.1 (relay.flush workspace id).2.2)
    (asked : ∀ relay workspace, motive relay workspace →
      motive (relay.request workspace surface method params).2 workspace) :
    motive (relay.requestFlushed workspace surface method params).2.1
      (relay.requestFlushed workspace surface method params).2.2 := by
  -- The three stages follow the order of the function. Each may be the last one.
  unfold requestFlushed
  split
  next => exact here
  next origin _ =>
    split
    next => exact here
    next session opened =>
      have steered := steered_broughtIn session
      unfold Session.broughtIn at steered
      split
      next refused =>
        rw [refused] at steered
        exact brought origin.notebook session _ opened steered
      next done =>
        rw [done] at steered
        have told := flushed origin.notebook _ (brought origin.notebook session _ opened steered)
        split
        next known =>
          rw [known] at told
          exact told
        next change relay workspace known =>
          rw [known] at told
          have done := asked relay workspace told
          split
          all_goals
            rw [‹relay.request _ _ _ _ = _›] at done
            exact done

theorem ledOn_requestFlushed (relay : Relay) (workspace : Workspace) (surface : SurfaceId)
    (method : Text) (params : Json) :
    LedOn workspace (relay.requestFlushed workspace surface method params).2.2 :=
  requestFlushed_steps (motive := fun _ after => LedOn workspace after) .still
    (fun _ _ _ opened steered => ledOn_setSession opened steered)
    (fun id after led => led.trans (relay.ledOn_flush after id)) fun _ _ led => led

theorem handed_didOpen (relay : Relay) (workspace : Workspace) (id : NotebookId) :
    relay.Handed none (relay.didOpen workspace id).2.1 (relay.didOpen workspace id).2.2 := by
  unfold didOpen
  split <;> exact .of_same rfl rfl

theorem handed_didClose (relay : Relay) (workspace : Workspace) (id : NotebookId) :
    relay.Handed none (relay.didClose workspace id).2.1 (relay.didClose workspace id).2.2 := by
  unfold didClose
  split
  next => exact .of_same rfl rfl
  next => exact .of_filter rfl _ rfl

theorem pending_flush (relay : Relay) (workspace : Workspace) (id : NotebookId) :
    (relay.flush workspace id).2.1.next = relay.next ∧
      (relay.flush workspace id).2.1.pending = relay.pending := by
  rcases relay.flush_cases workspace id with same | ⟨_, _, -, -, same⟩ <;> rw [same] <;>
    exact ⟨rfl, rfl⟩

theorem handed_requestFlushed (relay : Relay) (workspace : Workspace) (surface : SurfaceId)
    (method : Text) (params : Json) :
    let result := relay.requestFlushed workspace surface method params
    relay.Handed (result.1.toOption.bind (·.2)) result.2.1 result.2.2 := by
  intro result
  simp only [result, requestFlushed]
  split
  next => exact .of_same rfl rfl
  next origin _ =>
    split
    next => exact .of_same rfl rfl
    next =>
      split
      next => exact .of_same rfl rfl
      next middle _ =>
        obtain ⟨next, pending⟩ :=
          pending_flush relay (workspace.setSession origin.notebook middle) origin.notebook
        split
        next refused =>
          rw [refused] at next pending
          exact .of_same next pending
        next change after changed told =>
          rw [told] at next pending
          -- The flush before left the requests alone, so the request finds those that waited at first.
          have handed := handed_request after changed surface method params
          have handed := handed.from next (fun distinct => pending ▸ distinct)
            fun _ number waiting waits => pending ▸ waits
          split
          all_goals
            rw [‹after.request _ _ _ _ = _›] at handed
            exact handed

/-- The next request of a row, if an answer led to one. -/
def followUp? : Except RelayFault AnswerOutcome → Option Request
  | .ok (.followUp request) => some request
  | _ => none

/-- An answer to a request that waits strikes the request. Then it is of no effect, or it is used on
the notebook that the surface belongs to. -/
theorem answer_cases {message : Json} {response : Response} {pending : Pending}
    (decoded : Response.decode? message = some response)
    (waits : Table.get? relay.pending response.id = some pending) :
    let struck := { relay with pending := Table.erase relay.pending response.id }
    (∃ outcome, relay.answer workspace message = (outcome, struck, workspace) ∧
      followUp? outcome = none ∧ ∀ id edits, outcome ≠ .ok (.applied id edits)) ∨
    ∃ origin document session, Origin.of? workspace pending.origin = some origin ∧
      relay.document? origin.notebook = some document ∧
      workspace.session? origin.notebook = some session ∧
      relay.answer workspace message =
        ((struck.answerPending session document.addresses origin pending
            (Json.orNull response.result)).1,
          (struck.answerPending session document.addresses origin pending
            (Json.orNull response.result)).2.1,
          workspace.setSession origin.notebook (struck.answerPending session document.addresses
            origin pending (Json.orNull response.result)).2.2) := by
  intro struck
  simp only [answer, decoded, waits]
  split
  next => exact .inl ⟨_, rfl, rfl, by simp⟩
  next origin located =>
    split
    next => exact .inl ⟨_, rfl, rfl, by simp⟩
    next addresses known =>
      obtain ⟨document, registered, rfl⟩ := Option.map_eq_some_iff.mp known
      split
      -- An error of the server is handed back, whatever was asked for.
      next error _ =>
        refine .inl ⟨_, rfl, ?_, ?_⟩
        · split <;> rfl
        · intro id edits
          split <;> simp
      next =>
        split
        next => exact .inl ⟨_, rfl, rfl, by simp⟩
        next session opened => exact .inr ⟨origin, document, session, located, registered, opened, rfl⟩

/-- A message answers a request that waits, or it does not. -/
theorem idle_or_waits (relay : Relay) (message : Json) :
    (∀ response, Response.decode? message = some response →
      Table.get? relay.pending response.id = none) ∨
    ∃ response pending, Response.decode? message = some response ∧
      Table.get? relay.pending response.id = some pending := by
  by_cases idle : ∀ response, Response.decode? message = some response →
      Table.get? relay.pending response.id = none
  · exact .inl idle
  · simp only [not_forall] at idle
    obtain ⟨response, decoded, waits⟩ := idle
    obtain ⟨pending, waits⟩ := Option.ne_none_iff_exists'.mp waits
    exact .inr ⟨response, pending, decoded, waits⟩

/-- An answer to no request that waits changes nothing. -/
theorem answer_idle {message : Json} (idle : ∀ response, Response.decode? message = some response →
    Table.get? relay.pending response.id = none) :
    (relay.answer workspace message).2 = (relay, workspace) ∧
      followUp? (relay.answer workspace message).1 = none := by
  unfold answer
  split
  next => exact ⟨rfl, rfl⟩
  next response decoded => simp [idle response decoded, followUp?]

theorem followUp?_answerRename (session : Session) (id : NotebookId) (uri : Text)
    (revision version : Nat) (result : Json) :
    followUp? (answerRename session id uri revision version result).1 = none := by
  unfold answerRename
  split
  · split <;> rfl
  · rfl

theorem followUp?_answerFormatRange (session : Session) (id : NotebookId) (cell : Text) (span : Span)
    (result : Json) : followUp? (answerFormatRange session id cell span result).1 = none := by
  unfold answerFormatRange
  split
  · rfl
  · rfl
  · dsimp only
    split <;> rfl

/-- Only a step of formatting a notebook leads to another request. -/
theorem handed_answerPending {origin : Origin} {found : Surface} {document : Document}
    {session : Session} (live : Table.get? workspace.surfaces origin.surface = some found)
    (notebook : found.notebook = origin.notebook)
    (registered : relay.document? origin.notebook = some document)
    (opened : workspace.session? origin.notebook = some session) (addresses : Addresses)
    (pending : Pending) (result : Json) :
    relay.Handed (followUp? (relay.answerPending session addresses origin pending result).1)
      (relay.answerPending session addresses origin pending result).2.1
      (workspace.setSession origin.notebook
        (relay.answerPending session addresses origin pending result).2.2) := by
  unfold answerPending
  split
  next => exact .of_same rfl rfl
  next =>
    dsimp only
    rw [followUp?_answerRename]
    exact .of_same rfl rfl
  next =>
    dsimp only
    rw [followUp?_answerFormatRange]
    exact .of_same rfl rfl
  next job _ =>
    unfold answerFormatNotebook
    split
    next => exact .of_same rfl rfl
    next applied later _ =>
      -- The next request finds the notebook as this step left it.
      have changed : (workspace.setSession origin.notebook later).session? origin.notebook =
          some later := by
        rw [session?_setSession, if_pos rfl, opened]
        rfl
      have live : Table.get? (workspace.setSession origin.notebook later).surfaces origin.surface =
          some found := live
      have handed := handed_requestFormat live notebook registered changed addresses.shadow
        job.options applied job.remaining
      split
      · rwa [‹requestFormat _ _ _ _ _ _ _ = _›] at handed
      · rwa [‹requestFormat _ _ _ _ _ _ _ = _›] at handed

theorem ledOn_answer (relay : Relay) (workspace : Workspace) (message : Json) :
    LedOn workspace (relay.answer workspace message).2.2 := by
  rcases relay.idle_or_waits message with idle | ⟨response, pending, decoded, waits⟩
  · rw [(answer_idle idle).1]
    exact .still
  · rcases answer_cases decoded waits with ⟨outcome, same, -⟩ | ⟨_, _, _, -, -, opened, same⟩
    · rw [same]
      exact .still
    · rw [same]
      exact ledOn_setSession opened (steered_answerPending _ _ _ _ _ _)

/-- An answer to a request that waits goes on from where that request is struck. -/
theorem handed_answer_of_waits {message : Json} {response : Response} {pending : Pending}
    (decoded : Response.decode? message = some response)
    (waits : Table.get? relay.pending response.id = some pending) :
    Handed { relay with pending := Table.erase relay.pending response.id }
      (followUp? (relay.answer workspace message).1)
      (relay.answer workspace message).2.1 (relay.answer workspace message).2.2 := by
  rcases answer_cases decoded waits with
    ⟨outcome, same, nothing, -⟩ | ⟨origin, document, session, located, registered, opened, same⟩
  · rw [same, nothing]
    exact .of_same rfl rfl
  · rw [same]
    obtain ⟨surface, found, live, notebook⟩ := Origin.of?_spec located
    rw [← surface] at live
    let struck := { relay with pending := Table.erase relay.pending response.id }
    have registered : struck.document? origin.notebook = some document := registered
    exact handed_answerPending live notebook registered opened document.addresses pending
      (Json.orNull response.result)

theorem handed_answer (relay : Relay) (workspace : Workspace) (message : Json) :
    relay.Handed (followUp? (relay.answer workspace message).1)
      (relay.answer workspace message).2.1 (relay.answer workspace message).2.2 := by
  rcases relay.idle_or_waits message with idle | ⟨response, pending, decoded, waits⟩
  · -- A message that is no response is treated like one that nothing waits for.
    obtain ⟨same, nothing⟩ := answer_idle idle
    rw [same, nothing]
    exact .of_same rfl rfl
  · let struck := { relay with pending := Table.erase relay.pending response.id }
    have next : struck.next = relay.next := rfl
    exact (handed_answer_of_waits decoded waits).from next (fun distinct => distinct.filter _)
      fun distinct _ _ => distinct.get?_of_filter

end Relay

end Notebook.Lsp

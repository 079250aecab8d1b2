import Notebook.Proofs.Lsp.LookupAnswer
import Notebook.Proofs.Workspace.Handles
/-!
# Answers that come too late

Requests are numbered by a counter, and a request is struck from those that wait before its answer is
used. So an answer is used once at most. What a surface means is found out anew when the answer is
there, and a surface that is closed never opens again; nor does a request come back that was dropped
with its document. Such answers are discarded, now and at any later time.
-/
namespace Notebook.Lsp

open Workspace

/-! ## Live surfaces -/

namespace Origin

variable {workspace before after : Workspace} {surface : SurfaceId} {origin : Origin}

/-- What a live surface means is told by what its handle was given out for, and by the editor. -/
theorem of?_resolved (located : Origin.of? workspace surface = some origin) :
    ∃ found session, workspace.resolve? surface = some found ∧
      workspace.session? origin.notebook = some session ∧ found.notebook = origin.notebook ∧
      found.kind = origin.kind ∧
      origin.cell = if origin.kind = .editor then session.editor.map (·.cell) else none := by
  obtain ⟨session, opened⟩ := Origin.exists_session located
  obtain ⟨found, resolved, located⟩ := Option.bind_eq_some_iff.mp located
  refine ⟨found, session, resolved, opened, ?_⟩
  split at located
  next editor =>
    obtain ⟨current, there, located⟩ := Option.bind_eq_some_iff.mp located
    obtain ⟨known, here, located⟩ := Option.bind_eq_some_iff.mp located
    obtain rfl := Option.some.inj located
    obtain rfl := Option.some.inj (there.symm.trans opened)
    refine ⟨rfl, editor, ?_⟩
    rw [if_pos rfl, here]
    rfl
  next other =>
    obtain rfl := Option.some.inj located
    refine ⟨rfl, rfl, ?_⟩
    rw [if_neg other]

/-- A surface means something as long as its handle names something. -/
theorem of?_eq_none_iff : Origin.of? workspace surface = none ↔ workspace.resolve? surface = none := by
  constructor
  · intro dead
    rw [Option.eq_none_iff_forall_ne_some]
    intro found live
    obtain ⟨-, session, opened, current⟩ := resolve?_eq_some_iff.mp live
    simp only [Origin.of?, live, Option.bind_eq_bind, Option.bind_some, opened] at dead
    split at dead
    next editor =>
      obtain ⟨known, there, -⟩ := Option.map_eq_some_iff.mp (current editor)
      simp [there] at dead
    next => cases dead
  · intro dead
    simp [Origin.of?, dead]

/-- A surface that means something meant something before, and if it is an editor it is on the cell that
it was on. -/
theorem of?_before (continues : Continues before after) (numbered : before.Numbered)
    (issued : before.Issued) (old : surface.number < before.next)
    (located : Origin.of? after surface = some origin) :
    ∃ former, Origin.of? before surface = some former ∧ former.notebook = origin.notebook ∧
      former.kind = origin.kind ∧ former.cell = origin.cell := by
  obtain ⟨found, session, live, opened, notebook, kind, cell⟩ := of?_resolved located
  obtain ⟨lived, stayed⟩ := continues.resolve? numbered issued old live
  cases known : Origin.of? before surface with
  | none =>
    rw [of?_eq_none_iff.mp known] at lived
    cases lived
  | some former =>
    obtain ⟨found', session', lived', opened', notebook', kind', cell'⟩ := of?_resolved known
    obtain rfl := Option.some.inj (lived.symm.trans lived')
    refine ⟨former, rfl, notebook'.symm.trans notebook, kind'.symm.trans kind, ?_⟩
    -- Only an editor has a cell, and as long as it is open it stays on that cell.
    rw [cell, cell', ← kind, ← kind']
    split
    next editor =>
      rw [← notebook] at opened
      rw [← notebook'] at opened'
      rw [stayed editor session' session opened' opened]
    next => rfl

end Origin

/-! ## What the relay leaves of handles and documents -/

/-- Every request that waits comes from a notebook that is registered. -/
def Relay.Enrolled (relay : Relay) : Prop :=
  ∀ number pending, Table.get? relay.pending number = some pending →
    (relay.document? pending.notebook).isSome

namespace Relay

variable {relay after : Relay}

theorem Enrolled.handed (enrolled : relay.Enrolled) {asked : Option Request} {workspace : Workspace}
    (handed : relay.Handed asked after workspace) (distinct : Table.Distinct relay.pending)
    (kept : ∀ id, (relay.document? id).isSome → (after.document? id).isSome) : after.Enrolled := by
  intro number pending waits
  rcases handed.pending distinct number pending waits with old | ⟨-, -, document, session, recalls⟩
  · exact kept _ (enrolled number pending old)
  · rw [recalls.registered]
    rfl

/-! Only closing a document takes one away. -/

theorem document?_didOpen (relay : Relay) (workspace : Workspace) (id other : NotebookId)
    (registered : (relay.document? other).isSome) :
    ((relay.didOpen workspace id).2.1.document? other).isSome := by
  unfold didOpen
  split
  next => exact registered
  next =>
    simp only [document?, Table.get?_set]
    split
    · rfl
    · exact registered

theorem document?_flush (relay : Relay) (workspace : Workspace) (id other : NotebookId)
    (registered : (relay.document? other).isSome) :
    ((relay.flush workspace id).2.1.document? other).isSome := by
  rcases relay.flush_cases workspace id with same | ⟨_, _, -, -, same⟩ <;> rw [same]
  · exact registered
  · simp only [document?, Table.get?_set]
    split
    · rfl
    · exact registered

theorem document?_requestFlushed (relay : Relay) (workspace : Workspace) (surface : SurfaceId)
    (method : Text) (params : Json) (id : NotebookId) (registered : (relay.document? id).isSome) :
    ((relay.requestFlushed workspace surface method params).2.1.document? id).isSome := by
  apply requestFlushed_steps (motive := fun after _ => (after.document? id).isSome)
  case here => exact registered
  case brought => exact fun _ _ _ _ _ => registered
  case flushed => exact fun notebook workspace _ => relay.document?_flush workspace notebook id registered
  case asked =>
    intro after workspace known
    rwa [document?, (asks_request after workspace surface method params).documents]

theorem Enrolled.didClose (enrolled : relay.Enrolled) (distinct : Table.Distinct relay.pending)
    (workspace : Workspace) (id : NotebookId) : (relay.didClose workspace id).2.1.Enrolled ∧
      ∀ number pending, Table.get? (relay.didClose workspace id).2.1.pending number = some pending →
        pending.notebook ≠ id := by
  unfold Relay.didClose
  split
  next missing =>
    refine ⟨enrolled, fun number pending waits same => ?_⟩
    have registered := enrolled number pending waits
    rw [same, missing] at registered
    cases registered
  next document registered =>
    have apart (number : Nat) (pending : Pending) (waits : Table.get?
        (relay.pending.filter fun entry => entry.2.notebook ≠ id) number = some pending) :
        pending.notebook ≠ id := by
      simpa using List.of_mem_filter (Table.mem_of_get? waits)
    refine ⟨fun number pending waits => ?_, apart⟩
    have old := enrolled number pending (distinct.get?_of_filter waits)
    rw [document?, Table.get?_erase, if_neg (Ne.symm (apart number pending waits))]
    exact old

/-! ## What answers leave alone -/

variable {workspace : Workspace} {message : Json} {response : Response}

/-- An answer to a request that does not wait is discarded. -/
theorem answer_settled (decoded : Response.decode? message = some response)
    (settled : Table.get? relay.pending response.id = none) :
    relay.answer workspace message = (.ok .discarded, relay, workspace) := by
  simp [answer, decoded, settled]

/-- An answer for a surface that is closed is discarded. -/
theorem answer_lost {pending : Pending} (decoded : Response.decode? message = some response)
    (waits : Table.get? relay.pending response.id = some pending)
    (lost : Origin.of? workspace pending.origin = none) :
    relay.answer workspace message = (.ok .discarded,
      { relay with pending := Table.erase relay.pending response.id }, workspace) := by
  simp [answer, decoded, waits, lost]

/-- A refusal of the server changes no notebook, if it has a code. -/
theorem answer_refused {error : Json} {code : Int} (refused : message.get? "error" = some error)
    (coded : (error.get? "code").bind Json.asInt? = some code) :
    (relay.answer workspace message).2.2 = workspace := by
  cases decoded : Response.decode? message with
  | none => simp [answer, decoded]
  | some response =>
    obtain ⟨field, found, integer⟩ := Option.bind_eq_some_iff.mp coded
    obtain ⟨fault, read⟩ : ∃ fault, ServerError.decode? error = some fault :=
      ⟨_, Option.bind_eq_some_iff.mpr ⟨field, found,
        Option.bind_eq_some_iff.mpr ⟨code, integer, rfl⟩⟩⟩
    -- A response with an error is read with that error, whatever else it holds.
    have known : response.error = some fault := by
      obtain ⟨_, -, decoded⟩ := Option.bind_eq_some_iff.mp decoded
      obtain ⟨id, -, decoded⟩ := Option.bind_eq_some_iff.mp decoded
      split at decoded
      next => cases decoded
      next =>
        obtain rfl := Option.some.inj decoded
        change (message.get? "error").bind ServerError.decode? = _
        rw [refused, Option.bind_some, read]
    simp only [answer, decoded, known]
    split
    next => rfl
    next =>
      split
      next => rfl
      next => split <;> rfl

end Relay

/-! ## Runs -/

/-- The editor of a notebook is closed, or is opened anew and by this closed where it was. -/
def Dealing.ClosesEditor (notebook : NotebookId) : Dealing → Prop
  | operate id .closeEditor => id = notebook
  | operate id (.openEditor _) => id = notebook
  | closeEditor id => id = notebook
  | openEditor id _ => id = notebook
  | _ => False

namespace Desk

variable {desk before after : Desk}

/-- From now on, every answer to a request is discarded and changes no notebook. -/
def Ignores (desk : Desk) (number : Nat) : Prop :=
  ∀ later, desk.Leads later → ∀ message response, Response.decode? message = some response →
    response.id = number → ∃ relay,
      later.relay.answer later.workspace message = (.ok .discarded, relay, later.workspace)

/-- A surface means nothing any more, now and from now on. -/
def Lost (desk : Desk) (surface : SurfaceId) : Prop :=
  ∀ later, desk.Leads later → Origin.of? later.workspace surface = none

theorem Run.issued (run : Run desk) : desk.workspace.Issued := by
  induction run with
  | start settings =>
    intro surface found live
    cases live
  | @step desk dealing run admitted ih =>
    rcases dealing.ofAct_or_ofRelay with ⟨act, rfl⟩ | own
    · rw [perform_ofAct]
      exact ih.effect run.accounted.numbered
        (desk.workspace.effect_perform (Dealing.admitted_ofAct.mp admitted))
    · exact ih.ledOn (desk.ledOn_perform own)

theorem Run.editorsApart (run : Run desk) : desk.workspace.EditorsApart := by
  induction run with
  | start settings =>
    intro id entry surface opened
    cases opened
  | @step desk dealing run admitted ih =>
    rcases dealing.ofAct_or_ofRelay with ⟨act, rfl⟩ | own
    · rw [perform_ofAct]
      exact ih.effect run.accounted.numbered
        (desk.workspace.effect_perform (Dealing.admitted_ofAct.mp admitted))
    · exact ih.ledOn (desk.ledOn_perform own)

/-- The handle of a facade or a shadow stays as long as its notebook is open. -/
theorem Run.stays (run : Run desk) {surface : SurfaceId} {found : Surface}
    (live : Table.get? desk.workspace.surfaces surface = some found) (view : found.kind ≠ .editor)
    {dealing : Dealing} (admitted : dealing.Admitted) {session : Session}
    (opened : (desk.perform dealing).workspace.session? found.notebook = some session) :
    Table.get? (desk.perform dealing).workspace.surfaces surface = some found := by
  rcases dealing.ofAct_or_ofRelay with ⟨act, rfl⟩ | own
  · rw [perform_ofAct] at opened ⊢
    exact (desk.workspace.effect_perform (Dealing.admitted_ofAct.mp admitted)).stays
      run.accounted.numbered run.editorsApart live opened fun editor => absurd editor view
  · rwa [(desk.ledOn_perform own).sameHandles.surfaces]

theorem Run.enrolled (run : Run desk) : desk.relay.Enrolled := by
  induction run with
  | start settings =>
    intro number pending waits
    cases waits
  | @step desk dealing run admitted ih =>
    have distinct := run.accounted.distinct
    obtain ⟨asked, relay, workspace, same, -, handed⟩ := desk.perform_eq_noted admitted
    -- Only closing a document takes one away, and its requests with it.
    have kept (documents : ∀ id, (desk.relay.document? id).isSome →
        ((desk.perform dealing).relay.document? id).isSome) :
        (desk.perform dealing).relay.Enrolled := by
      rw [same] at documents ⊢
      exact ih.handed handed distinct documents
    have still (documents : (desk.perform dealing).relay.documents = desk.relay.documents) :
        (desk.perform dealing).relay.Enrolled := by
      refine kept fun id registered => ?_
      rwa [Relay.document?, documents]
    cases dealing with
    | operate notebook operation =>
      apply still
      simp only [perform]
      split <;> rfl
    | didOpen notebook => exact kept (desk.relay.document?_didOpen desk.workspace notebook)
    | didClose notebook => exact (ih.didClose distinct desk.workspace notebook).1
    | flush notebook => exact kept (desk.relay.document?_flush desk.workspace notebook)
    | request surface method params =>
      exact still (desk.relay.asks_request desk.workspace surface method params).documents
    | requestFlushed surface method params =>
      exact kept (desk.relay.document?_requestFlushed desk.workspace surface method params)
    | answer message => exact still (desk.relay.asks_answer desk.workspace message).documents
    | notice method params => exact still (Relay.documents_notice desk.relay method params)
    | openEditor | closeEditor | insert | openText | close | drainDiagnostics | refreshDiagnostics =>
      exact still rfl

/-! ## For ever -/

theorem Run.lost (run : Run desk) {surface : SurfaceId} (old : surface.number < desk.workspace.next)
    (dead : Origin.of? desk.workspace surface = none) : desk.Lost surface := by
  intro later leads
  cases known : Origin.of? later.workspace surface with
  | none => rfl
  | some origin =>
    obtain ⟨former, lived, -⟩ :=
      Origin.of?_before leads.continues run.accounted.numbered run.issued old known
    rw [dead] at lived
    cases lived

/-- A request that does not wait any more, or whose surface is closed, is done with. -/
theorem Run.ignores (run : Run desk) {number : Nat} (old : number < desk.relay.next)
    (done : ∀ pending, Table.get? desk.relay.pending number = some pending →
      Origin.of? desk.workspace pending.origin = none) : desk.Ignores number := by
  rintro later leads message response decoded rfl
  cases waits : Table.get? later.relay.pending response.id with
  | none => exact ⟨_, Relay.answer_settled decoded waits⟩
  | some pending =>
    -- It waited already, and for the same surface.
    have before := (leads.pending run).2 response.id pending old waits
    have accounted := run.accounted
    obtain ⟨registration, member, -, document, session, recalls⟩ :=
      accounted.pending response.id pending before
    obtain ⟨found, live, -⟩ := recalls.surface
    obtain ⟨-, numbered, continues⟩ := accounted.history registration member
    have given := Nat.lt_of_lt_of_le (numbered.surfaces _ found live) continues.next
    have lost := run.lost given (done pending before) later leads
    exact ⟨_, Relay.answer_lost decoded waits lost⟩

theorem Run.number_lt (run : Run desk) {number : Nat} {pending : Pending}
    (waits : Table.get? desk.relay.pending number = some pending) : number < desk.relay.next := by
  obtain ⟨registration, member, rfl, -⟩ := run.accounted.pending number pending waits
  exact run.accounted.below registration member

/-- An answer strikes the request that it answers. -/
theorem Run.struck (run : Run desk) {message : Json} {response : Response}
    (decoded : Response.decode? message = some response) (old : response.id < desk.relay.next) :
    Table.get? (desk.perform (.answer message)).relay.pending response.id = none := by
  have leads : desk.Leads (desk.perform (.answer message)) := Leads.still.step _ trivial
  rw [Option.eq_none_iff_forall_ne_some]
  intro pending still
  have waits := (leads.pending run).2 response.id pending old still
  have handed := @Relay.handed_answer_of_waits desk.relay desk.workspace _ _ _ decoded waits
  rcases handed.pending (run.accounted.distinct.filter _) response.id pending still with
    erased | ⟨new, -⟩
  · simp [Table.get?_erase] at erased
  · exact Nat.ne_of_lt old new

/-- Once the document of a notebook is closed, none of its requests waits, and those that come later have
later numbers. -/
theorem Run.didClose (run : Run desk) (notebook : NotebookId) {later : Desk}
    (leads : (desk.perform (.didClose notebook)).Leads later) {number : Nat} {pending : Pending}
    (waits : Table.get? later.relay.pending number = some pending)
    (belongs : pending.notebook = notebook) : desk.relay.next ≤ number := by
  have closed : (desk.perform (.didClose notebook)).Run := run.step _ trivial
  have handed := desk.relay.handed_didClose desk.workspace notebook
  have next : (desk.perform (.didClose notebook)).relay.next = desk.relay.next := handed.next
  by_contra old
  have before := (leads.pending closed).2 number pending (by omega) waits
  exact (run.enrolled.didClose run.accounted.distinct desk.workspace notebook).2 number pending before
    belongs

/-! ## How a surface is lost -/

variable {surface : SurfaceId} {origin : Origin}

theorem Run.surface_lt (run : Run desk) (located : Origin.of? desk.workspace surface = some origin) :
    surface.number < desk.workspace.next := by
  obtain ⟨rfl, found, live, -⟩ := Origin.of?_spec located
  exact run.accounted.numbered.surfaces _ found live

theorem Run.lost_close (run : Run desk) (located : Origin.of? desk.workspace surface = some origin) :
    (desk.perform (.close origin.notebook)).Lost surface := by
  have closed : (desk.perform (.close origin.notebook)).Run := run.step _ trivial
  have continues : Continues desk.workspace (desk.workspace.close origin.notebook).2 :=
    continues_perform desk.workspace (show (Act.close origin.notebook).Admitted from trivial)
  apply closed.lost (Nat.lt_of_lt_of_le (run.surface_lt located) continues.next)
  obtain ⟨found, session, live, -, notebook, -⟩ := Origin.of?_resolved located
  rw [Origin.of?_eq_none_iff, ← notebook]
  exact resolve?_close desk.workspace run.accounted.numbered live

theorem Run.lost_editor (run : Run desk) (located : Origin.of? desk.workspace surface = some origin)
    (editor : origin.kind = .editor) {dealing : Dealing} (closes : dealing.ClosesEditor origin.notebook) :
    (desk.perform dealing).Lost surface := by
  have accounted := run.accounted
  obtain ⟨found, session, live, opened, notebook, kind, -⟩ := Origin.of?_resolved located
  -- It is enough that an editor that is open afterwards is a new one.
  have enough (admitted : dealing.Admitted) (after : Session)
      (opened' : (desk.perform dealing).workspace.session? origin.notebook = some after)
      (renewed : ∀ later, after.editor = some later → session.generation < later.generation) :
      (desk.perform dealing).Lost surface := by
    have leads : desk.Leads (desk.perform dealing) := Leads.still.step dealing admitted
    apply (leads.run run).lost
      (Nat.lt_of_lt_of_le (run.surface_lt located) leads.continues.next)
    rw [Origin.of?_eq_none_iff]
    apply leads.continues.resolve?_eq_none accounted.numbered run.issued live (kind.trans editor)
    intro former current later known known' sits
    rw [notebook] at known known'
    obtain rfl := Option.some.inj (opened.symm.trans known)
    obtain rfl := Option.some.inj (opened'.symm.trans known')
    exact renewed later sits
  have closed {later : Editor} (sits : session.closeEditor.editor = some later) :
      session.generation < later.generation := by
    rw [Session.editor_closeEditor] at sits
    cases sits
  have operated {operation : Operation} (same : dealing = .operate origin.notebook operation) :
      (desk.perform dealing).workspace.session? origin.notebook =
        some (operation.perform session).2 := by
    simp [same, perform, opened, session?_setSession]
  cases dealing with
  | operate id operation =>
    cases operation with
    | closeEditor =>
      obtain rfl : id = origin.notebook := closes
      exact enough trivial _ (operated rfl) fun _ => closed
    | openEditor index =>
      obtain rfl : id = origin.notebook := closes
      exact enough trivial _ (operated rfl) fun _ => session.editor_openEditor index
    | _ => exact closes.elim
  | closeEditor id =>
    obtain rfl : id = origin.notebook := closes
    refine enough trivial session.closeEditor ?_ fun _ => closed
    simp [perform, session?_closeEditor, opened]
  | openEditor id index =>
    obtain rfl : id = origin.notebook := closes
    refine enough trivial (session.openEditor index).2 ?_ fun _ => session.editor_openEditor index
    simp [perform, session?_openEditor, opened]
  | _ => exact closes.elim

/-- An editor does not outlast its cell. -/
theorem Run.lost_cell (run : Run desk) (located : Origin.of? desk.workspace surface = some origin)
    {later : Desk} (leads : desk.Leads later) {session : Session} {cell : Text}
    (opened : later.workspace.session? origin.notebook = some session)
    (edited : origin.cell = some cell) (gone : session.cells.indexOf? cell = none) :
    later.Lost surface := by
  have accounted := (leads.run run).accounted
  have old := run.surface_lt located
  apply (leads.run run).lost (Nat.lt_of_lt_of_le old leads.continues.next)
  rw [Option.eq_none_iff_forall_ne_some]
  intro current located'
  obtain ⟨former, known, notebook, -, same⟩ :=
    Origin.of?_before leads.continues run.accounted.numbered run.issued old located'
  obtain rfl := Option.some.inj (located.symm.trans known)
  obtain ⟨-, session', -, opened', -, -, sits⟩ := Origin.of?_resolved located'
  rw [← notebook] at opened'
  obtain rfl := Option.some.inj (opened.symm.trans opened')
  rw [← same, edited] at sits
  split at sits
  next =>
    obtain ⟨editor, open', rfl⟩ := Option.map_eq_some_iff.mp sits.symm
    -- An editor that is open is on a live cell, and this one is gone.
    obtain ⟨settings, reachable⟩ := accounted.grown _ session opened
    obtain ⟨found, member, id⟩ := List.mem_map.mp (reachable.housed editor open')
    have missing := List.findIdx?_eq_none_iff.mp gone found member
    simp [id] at missing
  next => cases sits

/-! ## Answers once and in time -/

/-- No number is given to two requests. An answer to a request strikes it, and every further one is
discarded for ever; so is any answer to a request whose surface is closed, and none of these changes a
notebook. Closing the document of a notebook drops its requests, and those that wait later on, after it
was opened again, were registered later. A message that is no response changes nothing at all, and a
refusal that has a code changes no notebook. And a surface is closed for good with its notebook; an
editor also when the editor is closed or opened anew, and as soon as its cell is gone. -/
theorem Run.answered_once (run : Run desk) :
    (desk.ledger.map (·.number)).Nodup ∧
    (∀ registration ∈ desk.ledger,
      Table.get? desk.relay.pending registration.number = none →
        desk.Ignores registration.number) ∧
    (∀ message response, Response.decode? message = some response →
      (∃ registration ∈ desk.ledger, registration.number = response.id) →
        (desk.perform (.answer message)).Ignores response.id) ∧
    (∀ number pending, Table.get? desk.relay.pending number = some pending →
      Origin.of? desk.workspace pending.origin = none → desk.Ignores number) ∧
    (∀ notebook, let closed := desk.perform (.didClose notebook)
      (∀ number pending, Table.get? closed.relay.pending number = some pending →
        pending.notebook ≠ notebook) ∧
      (∀ number pending, Table.get? desk.relay.pending number = some pending →
        pending.notebook = notebook → closed.Ignores number) ∧
      ∀ later number pending, closed.Leads later →
        Table.get? later.relay.pending number = some pending → pending.notebook = notebook →
          desk.relay.next ≤ number) ∧
    (∀ message, Response.decode? message = none →
      desk.relay.answer desk.workspace message =
        (.error (.malformed "response"), desk.relay, desk.workspace)) ∧
    (∀ message error code, message.get? "error" = some error →
      (error.get? "code").bind Json.asInt? = some code →
        (desk.relay.answer desk.workspace message).2.2 = desk.workspace) ∧
    ∀ surface origin, Origin.of? desk.workspace surface = some origin →
      (desk.perform (.close origin.notebook)).Lost surface ∧
      (origin.kind = .editor → ∀ dealing : Dealing, dealing.ClosesEditor origin.notebook →
        (desk.perform dealing).Lost surface) ∧
      ∀ later session cell, desk.Leads later →
        later.workspace.session? origin.notebook = some session → origin.cell = some cell →
          session.cells.indexOf? cell = none → later.Lost surface := by
  have accounted := run.accounted
  refine ⟨accounted.once, ?_, ?_, ?_, ?_, ?_, ?_, ?_⟩
  · intro registration member settled
    apply run.ignores (accounted.below registration member)
    intro pending waits
    rw [settled] at waits
    cases waits
  · rintro message response decoded ⟨registration, member, same⟩
    have answered : (desk.perform (.answer message)).Run := run.step _ trivial
    have old := same ▸ accounted.below registration member
    have leads : desk.Leads (desk.perform (.answer message)) := Leads.still.step _ trivial
    apply answered.ignores (Nat.lt_of_lt_of_le old (leads.pending run).1)
    intro pending waits
    rw [run.struck decoded old] at waits
    cases waits
  · intro number pending waits dead
    apply run.ignores (run.number_lt waits)
    intro other waits'
    rwa [← Option.some.inj (waits.symm.trans waits')]
  · intro notebook closed
    have dropped := (run.enrolled.didClose accounted.distinct desk.workspace notebook).2
    refine ⟨dropped, ?_, ?_⟩
    · intro number pending waits belongs
      have after : closed.Run := run.step _ trivial
      have leads : desk.Leads closed := Leads.still.step _ trivial
      have old := run.number_lt waits
      apply after.ignores (Nat.lt_of_lt_of_le old (leads.pending run).1)
      intro other waits'
      -- What waited for the notebook was dropped.
      obtain rfl := Option.some.inj (waits.symm.trans ((leads.pending run).2 number other old waits'))
      exact absurd belongs (dropped number pending waits')
    · intro later number pending leads waits belongs
      exact run.didClose notebook leads waits belongs
  · intro message malformed
    simp [Relay.answer, malformed]
  · intro message error code refused coded
    exact Relay.answer_refused refused coded
  · intro surface origin located
    refine ⟨run.lost_close located, ?_, ?_⟩
    · intro editor dealing closes
      exact run.lost_editor located editor closes
    · intro later session cell leads opened edited gone
      exact run.lost_cell located leads opened edited gone

end Desk

/-- When the cell of an editor is deleted, answers for that editor are discarded for ever. A refusal
with a code changes nothing even if it comes with edits, but one whose code is no number is not read as
a refusal, and its edits are made. -/
theorem late_for_deleted_cell : ∃ (session : Session) (desk : Desk) (later : Session),
    Session.ofCells [{ id := "a", kind := .code, source := "x" },
      { id := "b", kind := .code, source := "y=1" }] {} = .ok session ∧
    desk = [.insert "/a.ipynb" session, .didOpen ⟨0⟩, .openEditor ⟨0⟩ 0,
      .request ⟨3⟩ "textDocument/hover" (Json.object []), .operate ⟨0⟩ (.deleteCell 0),
      .request ⟨1⟩ "textDocument/rangeFormatting"
        (Json.object [("range", Range.encode ⟨⟨1, 0⟩, ⟨1, 3⟩⟩)])].foldl Desk.perform
          { relay := {}, workspace := {} } ∧
    desk.Ignores 0 ∧
    let answer (code : Json) := Json.object [("error", Json.object [("code", code)]), ("id", .nat 1),
      ("result", .arr [Json.object [("newText", .str "y = 1"),
        ("range", Range.encode ⟨⟨1, 0⟩, ⟨1, 3⟩⟩)]])]
    (desk.perform (.answer (answer (.nat 7)))).workspace = desk.workspace ∧
    (desk.perform (.answer (answer (.str "E7")))).workspace.session? ⟨0⟩ = some later ∧
    later.cells.blocks = [⟨.code, "y = 1"⟩] := by
  have start : Session.Reachable {} _ := .cells (rfl : Session.ofCells
    [{ id := "a", kind := .code, source := "x" }, { id := "b", kind := .code, source := "y=1" }] {} =
      .ok _)
  have run := ((((((Desk.Run.start {}).step (.insert "/a.ipynb" _) ⟨_, start⟩).step (.didOpen ⟨0⟩)
    trivial).step (.openEditor ⟨0⟩ 0) trivial).step
      (.request ⟨3⟩ "textDocument/hover" (Json.object [])) trivial).step
        (.operate ⟨0⟩ (.deleteCell 0)) trivial).step (.request ⟨1⟩ "textDocument/rangeFormatting"
          (Json.object [("range", Range.encode ⟨⟨1, 0⟩, ⟨1, 3⟩⟩)])) trivial
  obtain ⟨-, -, -, lost, -, -, refused, -⟩ := run.answered_once
  refine ⟨_, _, _, rfl, rfl, ?ignored, ?refused, (Option.some_get (by decide +kernel)).symm, ?made⟩
  case ignored =>
    exact lost 0 ⟨"textDocument/hover", ⟨3⟩, ⟨0⟩, .lookup⟩ (by decide +kernel) (by decide +kernel)
  case refused =>
    let message := Json.object [("error", Json.object [("code", .nat 7)]), ("id", .nat 1),
      ("result", .arr [Json.object [("newText", .str "y = 1"),
        ("range", Range.encode ⟨⟨1, 0⟩, ⟨1, 3⟩⟩)]])]
    exact refused message (Json.object [("code", .nat 7)]) 7 rfl rfl
  case made => decide +kernel

end Notebook.Lsp
